import ImportAlias.Text.Basic

/-!
# Sets of characters

A set of characters is kept as it was built: from ranges, by union, intersection and complement,
and by closing it under the change of ASCII case. Membership is decided from that form, so the laws
of the operations are those of the truth tables.

`canonical` gives all forms of a set the same one, the union of its longest ranges in order.
-/

namespace ImportAlias

/-- A set of characters. -/
inductive CharSet where
  /-- No character. -/
  | empty
  /-- The characters between two, both included. -/
  | range (first last : Char)
  | union (s t : CharSet)
  | inter (s t : CharSet)
  | compl (s : CharSet)
  /-- The characters of which either case is in the set. -/
  | ignoringCase (s : CharSet)
  deriving DecidableEq, Repr

namespace CharSet

/-- Whether a character is in a set. -/
def has (c : Char) : CharSet → Bool
  | empty => false
  | range first last => decide (first.toNat ≤ c.toNat) && decide (c.toNat ≤ last.toNat)
  | union s t => has c s || has c t
  | inter s t => has c s && has c t
  | compl s => !has c s
  | ignoringCase s => has c.toLower s || has c.toUpper s

/-- The set of one character. -/
def single (c : Char) : CharSet := range c c

/-- The characters of one set that are not in another. -/
def diff (s t : CharSet) : CharSet := inter s (compl t)

/-- The characters of exactly one of two sets. -/
def symmDiff (s t : CharSet) : CharSet := union (diff s t) (diff t s)

/-- The union of sets. -/
def unions : List CharSet → CharSet
  | [] => empty
  | [s] => s
  | s :: sets => union s (unions sets)

@[simp]
theorem has_diff (c : Char) (s t : CharSet) : (diff s t).has c = (s.has c && !t.has c) := rfl

theorem has_symmDiff (c : Char) (s t : CharSet) :
    (symmDiff s t).has c = (s.has c != t.has c) := by
  cases hs : s.has c <;> cases ht : t.has c <;> simp [symmDiff, diff, has, hs, ht]

theorem has_unions (c : Char) (sets : List CharSet) :
    (unions sets).has c = sets.any fun s => s.has c := by
  fun_induction unions sets <;> simp_all [has]

/-! ### The canonical form -/

/-- The code points at which membership may change. Between them it does not. -/
def cuts : CharSet → List Nat
  | empty => []
  | range first last => [first.toNat, last.toNat + 1]
  | union s t | inter s t => s.cuts ++ t.cuts
  | compl s => s.cuts
  | ignoringCase s =>
    let distance := 'a'.toNat - 'A'.toNat
    s.cuts ++ s.cuts.map (· + distance) ++ s.cuts.map (· - distance) ++
      ['A'.toNat, 'Z'.toNat + 1, 'a'.toNat, 'z'.toNat + 1]

/-- Insert a code point into an ascending list, unless it is there. -/
def insertCut (n : Nat) : List Nat → List Nat
  | [] => [n]
  | m :: rest =>
    if n < m then n :: m :: rest else if n = m then m :: rest else m :: insertCut n rest

/-- The ranges from each of ascending code points to the next. -/
def segments : List Nat → List (Nat × Nat)
  | [] => []
  | [first] => [(first, 0x10ffff)]
  | first :: next :: rest => (first, next - 1) :: segments (next :: rest)

/-- Ascending ranges, with those that touch made one. -/
def joinRanges : List (Nat × Nat) → List (Nat × Nat)
  | [] => []
  | (first, last) :: rest =>
    match joinRanges rest with
    | (first', last') :: more =>
      if last + 1 = first' then (first, last') :: more
      else (first, last) :: (first', last') :: more
    | [] => [(first, last)]

/-- The longest ranges of code points in a set, in order. Surrogates are no characters. -/
def ranges (s : CharSet) : List (Nat × Nat) :=
  let cuts := (s.cuts.filter (· < 0x110000)).foldr insertCut [0, 0xd800, 0xe000]
  let within (r : Nat × Nat) : Bool :=
    (decide (r.1 < 0xd800) || decide (0xe000 ≤ r.1)) && s.has (Char.ofNat r.1)
  joinRanges ((segments cuts).filter within)

/-- The set as the union of its longest ranges in order. -/
def canonical (s : CharSet) : CharSet :=
  unions (s.ranges.map fun r => range (Char.ofNat r.1) (Char.ofNat r.2))

/-! ### Sets of ASCII characters -/

/-- The small letters. -/
def lower : CharSet := range 'a' 'z'

/-- The capital letters. -/
def upper : CharSet := range 'A' 'Z'

/-- The decimal digits. -/
def digit : CharSet := range '0' '9'

/-- The letters. -/
def alpha : CharSet := union upper lower

/-- The letters and digits. -/
def alnum : CharSet := union digit alpha

/-- The characters of identifiers. -/
def word : CharSet := union alnum (single '_')

/-- Blanks and the ends of lines and pages. -/
def space : CharSet := union (range '\t' '\r') (single ' ')

/-- The ASCII signs: what is visible and neither a letter nor a digit. -/
def punct : CharSet :=
  unions [range '!' '/', range ':' '@', range '[' '\x60', range '\x7b' '~']

/-- The set of a POSIX class name. -/
def ofName? (name : Text) : Option CharSet :=
  if name = "alnum".toList then some alnum
  else if name = "alpha".toList then some alpha
  else if name = "ascii".toList then some (range '\x00' '\x7f')
  else if name = "blank".toList then some (union (single '\t') (single ' '))
  else if name = "cntrl".toList then some (union (range '\x00' '\x1f') (single '\x7f'))
  else if name = "digit".toList then some digit
  else if name = "graph".toList then some (range '!' '~')
  else if name = "lower".toList then some lower
  else if name = "print".toList then some (range ' ' '~')
  else if name = "punct".toList then some punct
  else if name = "space".toList then some space
  else if name = "upper".toList then some upper
  else if name = "word".toList then some word
  else if name = "xdigit".toList then some (unions [digit, range 'A' 'F', range 'a' 'f'])
  else none

end CharSet

end ImportAlias
