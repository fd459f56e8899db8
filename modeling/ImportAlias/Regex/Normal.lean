import ImportAlias.Regex.Basic

/-!
# Normal forms of regular expressions

Expressions are put together so that they come out flat: a sequence holds no sequence and no two
texts side by side, alternatives hold no alternatives, and alternatives of one character each are a
set.

When alternatives are sequences that begin with the same factors, these are taken in front of the
alternatives. What is preferred may change by that: in `a*b|a*c` the alternative is chosen first
and then the number of `a`, in `a*(b|c)` the other way round. The latter is what such an expression
means here.
-/

namespace ImportAlias

namespace Regex

/-- One character of a set, or a text if the set has one character only. -/
def ofSet (s : CharSet) : Regex :=
  match s.canonical with
  | .range first last => if first = last then text [first] else set (.range first last)
  | t => set t

/-- The expressions that a sequence is made of. -/
def factors : Regex → List Regex
  | empty => []
  | seq r s => r :: s.factors
  | r => [r]

/-- The expressions that are alternatives. -/
def options : Regex → List Regex
  | alt r s => r :: s.options
  | r => [r]

/-- A sequence with the texts that stand side by side made one. -/
def joinTexts : List Regex → List Regex
  | [] => []
  | text s :: rest =>
    match joinTexts rest with
    | text t :: more => text (s ++ t) :: more
    | more => text s :: more
  | r :: rest => r :: joinTexts rest

/-- Expressions one after another, flat. -/
def concat (rs : List Regex) : Regex := sequence (joinTexts (rs.flatMap factors))

/-- The character that an expression reads, if it reads a text of one. -/
def char? : Regex → Option Char
  | text [c] => some c
  | _ => none

/-- The set that an expression reads a character of. -/
def set? : Regex → Option CharSet
  | set s => some s
  | _ => none

/-- Alternatives that are single characters, or that are sets, as one set. -/
def oneSet? (rs : List Regex) : Option Regex :=
  match rs.mapM char?, rs.mapM set? with
  | some cs, _ => some (ofSet (.unions (cs.map .single)))
  | none, some sets => some (ofSet (.unions sets))
  | none, none => none

/-- Alternatives, or the set that they are. -/
def disjunction (rs : List Regex) : Regex := (oneSet? rs).getD (choice rs)

/-- What two lists begin with alike. -/
def commonPrefix : List Regex → List Regex → List Regex
  | r :: rs, s :: ss => if r = s then r :: commonPrefix rs ss else []
  | _, _ => []

/-- The factors that all of several expressions begin with; none if one of them is no sequence. -/
def commonFactors : List Regex → List Regex
  | [] => []
  | [r] => if 2 ≤ r.factors.length then r.factors else []
  | r :: rs => if 2 ≤ r.factors.length then commonPrefix r.factors (commonFactors rs) else []

/-- Ordered alternatives, flat, with the factors that all begin with in front. -/
def alternatives (rs : List Regex) : Regex :=
  let rs := rs.flatMap options
  match oneSet? rs, commonFactors rs with
  | some r, _ => r
  | none, [] => choice rs
  | none, common =>
    let rests := rs.map fun r => concat (r.factors.drop common.length)
    concat (common ++ [disjunction (rests.flatMap options)])

/-- An expression any number of times. What reads nothing need not be repeated. -/
def repeated (greedy : Bool) (r : Regex) : Regex :=
  if r.isVoid then optional greedy r else many greedy r

/-- An expression once or more. What reads nothing need not be repeated. -/
def repeated1 (greedy : Bool) (r : Regex) : Regex := if r.isVoid then r else many1 greedy r

end Regex

end ImportAlias
