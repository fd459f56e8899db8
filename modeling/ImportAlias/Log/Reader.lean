import ImportAlias.Log.Directive
import ImportAlias.Regex.Reader
import ImportAlias.Text.Bytes

/-!
# Reading the directives of a log filter

A directive is a level alone, or a target, a span in brackets or both, with a level behind an
equals sign or without. The span is a name, a field in braces, or both.

A directive is read character by character without the blanks around it. The number of bytes read
says where its parts begin and end; the parts themselves are cut out of the directive with its
blanks. A blank in front therefore makes each part begin and end too early by its width, which may
be inside a character, where nothing can be cut; and a blank at the end belongs to the last part.
-/

namespace ImportAlias

namespace Log

/-- Why directives cannot be read. -/
inductive Misreading where
  /-- One is not written as a directive. -/
  | malformed
  /-- A part of one begins or ends inside a character. -/
  | splitCharacter
  deriving DecidableEq, Repr

/-! ### Levels -/

/-- The value of a decimal numeral, which a plus sign may precede. -/
def readNumeral (t : Text) : Option Nat :=
  let digits := if t.head? == some '+' then t.drop 1 else t
  if digits ≠ [] ∧ digits.all Char.isDigit then
    some (digits.foldl (fun n c => 10 * n + (c.toNat - '0'.toNat)) 0)
  else none

/-- The rank of a level, given by its name in any ASCII case or by the rank itself. -/
def readRank (t : Text) : Option Nat :=
  match readNumeral t with
  | some n => if n ≤ Level.trace.rank then some n else none
  | none =>
    let name := Text.lowercase t
    if name = "off".toList then some 0
    else if name = "error".toList then some Level.error.rank
    else if name = "warn".toList then some Level.warn.rank
    else if name = "info".toList then some Level.info.rank
    else if name = "debug".toList then some Level.debug.rank
    else if name = "trace".toList then some Level.trace.rank
    else none

/-! ### Fields -/

/-- The text without a sign in front. -/
def dropSign : Text → Text
  | '+' :: t | '-' :: t => t
  | t => t

/-- Whether a text is nothing or a decimal exponent. -/
def isExponent : Text → Bool
  | [] => true
  | e :: t => (e == 'e' || e == 'E') && dropSign t != [] && (dropSign t).all Char.isDigit

/-- Whether a text is a decimal number, infinity, or no number. -/
def isNumber (t : Text) : Bool :=
  let t := dropSign t
  if (["inf", "infinity", "nan"].map String.toList).contains (Text.lowercase t) then true
  else
    let whole := t.takeWhile Char.isDigit
    match t.dropWhile Char.isDigit with
    | '.' :: rest =>
      let fraction := rest.takeWhile Char.isDigit
      (whole != [] || fraction != []) && isExponent (rest.dropWhile Char.isDigit)
    | rest => whole != [] && isExponent rest

/-- Read the value that is asked of a field. -/
def readAsked (t : Text) : Option Asked :=
  if t = "true".toList ∨ t = "false".toList ∨ isNumber t then some (.plain t)
  else (Regex.parse t).map (.pattern t)

/-- Read a field: a name, and a value behind an equals sign. A second equals sign ends the value. -/
def readField (t : Text) : Option AskedField :=
  match t.splitOn '=' with
  | name :: value :: _ => (readAsked value).map fun asked => { name, value := some asked }
  | _ => some { name := t }

/-! ### Directives -/

/-- What is being read of a directive, with the place where it began. -/
inductive Part where
  | start
  /-- A target, or a level alone. -/
  | word (start : Nat)
  /-- The name of a span. -/
  | span (start : Nat)
  | field (start : Nat)
  /-- What is behind the brace that closes a field. -/
  | fieldEnd
  /-- What is behind the bracket that closes a span. -/
  | spanEnd
  | level (start : Nat)
  deriving DecidableEq, Repr

/-- Whether a directive may begin with a character. -/
def beginsDirective (c : Char) : Bool := c == '-' || c == ':' || c == '_' || Text.isAlphanumeric c

/-- The part of a directive between two places. -/
def cut (source : Text) (start stop : Nat) : Except Misreading Text :=
  match Text.slice? start stop source with
  | some t => .ok t
  | none => .error .splitCharacter

/-- The part of a directive from a place on. -/
def cutFrom (source : Text) (start : Nat) : Except Misreading Text :=
  match Text.dropBytes? start source with
  | some t => .ok t
  | none => .error .splitCharacter

namespace Part

/-- Read the character at a place. -/
def next (source : Text) (i : Nat) (c : Char) (d : Directive) :
    Part → Except Misreading (Part × Directive)
  | start =>
    if c = '[' then .ok (span (i + 1), d)
    else if beginsDirective c then .ok (word i, d)
    else .error .malformed
  | word begun =>
    if c = '=' then do return (level (i + 1), { d with target := some (← cut source begun i) })
    else if c = '[' then do return (span (i + 1), { d with target := some (← cut source begun i) })
    else .ok (word begun, d)
  | span begun =>
    if c = ']' then do return (spanEnd, { d with span := some (← cut source begun i) })
    else if c = '\x7b' then do
      let name ← cut source begun i
      return (field (i + 1), { d with span := if name = [] then none else some name })
    else .ok (span begun, d)
  | field begun =>
    if c = '\x7d' then do
      let t ← cut source begun i
      match if t = [] then none else readField t with
      | some f => return (fieldEnd, { d with field := some f })
      | none => .error .malformed
    else .ok (field begun, d)
  | fieldEnd => if c = ']' then .ok (spanEnd, d) else .error .malformed
  | spanEnd => if c = '=' then .ok (level (i + 1), d) else .error .malformed
  | level begun => .ok (level begun, d)

/-- The directive when nothing is left to read. -/
def finish (source : Text) (d : Directive) : Part → Except Misreading Directive
  | word begun => do
    let t ← cutFrom source begun
    match readRank t with
    | some rank => return { d with rank }
    | none => return { d with target := some t }
  | level begun => do
    let t ← cutFrom source begun
    if t = [] then return d
    else
      match readRank t with
      | some rank => return { d with rank }
      | none => .error .malformed
  | spanEnd => .ok d
  | start | span _ | field _ | fieldEnd => .error .malformed

end Part

/-- Read on from a place. -/
def readFrom (source : Text) (i : Nat) (part : Part) (d : Directive) :
    Text → Except Misreading Directive
  | [] => part.finish source d
  | c :: t => do
    let (part, d) ← part.next source i c d
    readFrom source (i + c.utf8Size) part d t

/-- Read one directive. -/
def readDirective (t : Text) : Except Misreading Directive :=
  let bare := ((t.dropWhile Text.isBlank).reverse.dropWhile Text.isBlank).reverse
  readFrom t 0 .start {} bare

/-- Read directives separated by commas. Empty ones do not count. -/
def readDirectives (t : Text) : Except Misreading (List Directive) :=
  ((t.splitOn ',').filter (· ≠ [])).mapM readDirective

end Log

end ImportAlias
