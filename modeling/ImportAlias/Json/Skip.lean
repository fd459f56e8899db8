import ImportAlias.Json.Literal

/-!
# Skipping values

A value under a field that does not matter is skipped without being built. Skipping is a machine
that reads one character at a time: a stack holds the objects and arrays that are open, the
innermost first, and a state says what the next character belongs to. So values may be nested to
any depth, and the machine stops with the character that ends the value.

Skipped values are checked less strictly than read ones: numbers may be out of range, escaped
surrogates need not form pairs.
-/

namespace ImportAlias

namespace Json

/-- An open container. -/
inductive Frame where
  | list
  | object
  deriving DecidableEq, Repr

/-- The part of a number that the next character belongs to or follows. -/
inductive NumberPart where
  | minus
  | zero
  | integer
  | point
  | fraction
  | exponent
  | exponentSign
  | exponentDigits
  deriving DecidableEq, Repr

/-- What the next character belongs to. A string is a key when `isKey` holds. -/
inductive Skipping where
  /-- A value is due. -/
  | value
  /-- A container was just opened. -/
  | opened
  /-- A value inside a container is complete. -/
  | next
  /-- A key is due. -/
  | key
  /-- A key is complete, and the colon is due. -/
  | colon
  /-- The letters of a name are due. -/
  | letters (due : List Char)
  | number (part : NumberPart)
  | string (isKey : Bool)
  | escape (isKey : Bool)
  /-- Bytes of an escaped code are due; it is valid so far or not. -/
  | code (isKey : Bool) (left : Nat) (valid : Bool)
  deriving DecidableEq, Repr

/-- What one character does. -/
inductive Move where
  /-- It is read, and the machine goes on. -/
  | go (state : Skipping) (frames : List Frame)
  /-- The value ended before it. -/
  | endsBefore
  /-- The value ends with it. -/
  | endsAfter
  /-- It is refused; the place lies a number of bytes into it. -/
  | refuse (cause : Cause) (bytes : Nat)
  deriving DecidableEq, Repr

/-- A value ended with the character just read. -/
def ended : List Frame → Move
  | [] => .endsAfter
  | frames => .go .next frames

/-- The move of a character where a value is due. -/
def beginValue (frames : List Frame) (c : Char) : Move :=
  if c = 'n' then .go (.letters "ull".toList) frames
  else if c = 't' then .go (.letters "rue".toList) frames
  else if c = 'f' then .go (.letters "alse".toList) frames
  else if c = '-' then .go (.number .minus) frames
  else if c = '0' then .go (.number .zero) frames
  else if isDigit c then .go (.number .integer) frames
  else if c = '"' then .go (.string false) frames
  else if c = '[' then .go .opened (.list :: frames)
  else if c = '\x7b' then .go .opened (.object :: frames)
  else .refuse .expectedValue 1

/-- The move of a character where a key is due. -/
def beginKey (frames : List Frame) (c : Char) : Move :=
  if c = '"' then .go (.string true) frames else .refuse .keyNotString 1

/-- The move of a character after a container was opened. -/
def afterOpening (frames : List Frame) (c : Char) : Move :=
  match frames with
  | .list :: outer => if c = ']' then ended outer else beginValue frames c
  | .object :: outer => if c = '\x7d' then ended outer else beginKey frames c
  | [] => .endsBefore

/-- The move of a character after a value. -/
def afterValue (frames : List Frame) (c : Char) : Move :=
  match frames with
  | [] => .endsBefore
  | .list :: outer =>
    if c = ',' then .go .value frames
    else if c = ']' then ended outer
    else .refuse .expectedListCommaOrEnd 1
  | .object :: outer =>
    if c = ',' then .go .key frames
    else if c = '\x7d' then ended outer
    else .refuse .expectedObjectCommaOrEnd 1

/-- The move of the character after a number. -/
def afterNumber (frames : List Frame) (c : Char) : Move :=
  match frames with
  | [] => .endsBefore
  | frames => if isSpace c then .go .next frames else afterValue frames c

/-- The move of a character in or after a number. -/
def inNumber (frames : List Frame) (part : NumberPart) (c : Char) : Move :=
  let isE := c = 'e' ∨ c = 'E'
  match part with
  | .minus =>
    if c = '0' then .go (.number .zero) frames
    else if isDigit c then .go (.number .integer) frames
    else .refuse .invalidNumber 1
  | .zero =>
    if isDigit c then .refuse .invalidNumber 1
    else if c = '.' then .go (.number .point) frames
    else if isE then .go (.number .exponent) frames
    else afterNumber frames c
  | .integer =>
    if isDigit c then .go (.number .integer) frames
    else if c = '.' then .go (.number .point) frames
    else if isE then .go (.number .exponent) frames
    else afterNumber frames c
  | .point => if isDigit c then .go (.number .fraction) frames else .refuse .invalidNumber 1
  | .fraction =>
    if isDigit c then .go (.number .fraction) frames
    else if isE then .go (.number .exponent) frames
    else afterNumber frames c
  | .exponent =>
    if c = '+' ∨ c = '-' then .go (.number .exponentSign) frames
    else if isDigit c then .go (.number .exponentDigits) frames
    else .refuse .invalidNumber 1
  | .exponentSign =>
    if isDigit c then .go (.number .exponentDigits) frames else .refuse .invalidNumber 1
  | .exponentDigits =>
    if isDigit c then .go (.number .exponentDigits) frames else afterNumber frames c

/-- The move of a character in a given state. -/
def move (frames : List Frame) (c : Char) : Skipping → Move
  | .value => if isSpace c then .go .value frames else beginValue frames c
  | .opened => if isSpace c then .go .opened frames else afterOpening frames c
  | .next => if isSpace c then .go .next frames else afterValue frames c
  | .key => if isSpace c then .go .key frames else beginKey frames c
  | .colon =>
    if isSpace c then .go .colon frames
    else if c = ':' then .go .value frames
    else .refuse .expectedColon 1
  | .letters [] => .endsBefore
  | .letters [letter] => if c = letter then ended frames else .refuse .expectedIdent 1
  | .letters (letter :: due) =>
    if c = letter then .go (.letters due) frames else .refuse .expectedIdent 1
  | .number part => inNumber frames part c
  | .string isKey =>
    if c = '"' then if isKey then .go .colon frames else ended frames
    else if c = '\\' then .go (.escape isKey) frames
    else if c.toNat < 0x20 then .refuse .controlCharacter 0
    else .go (.string isKey) frames
  | .escape isKey =>
    if c = 'u' then .go (.code isKey 4 true) frames
    else if (simpleEscape c).isSome then .go (.string isKey) frames
    else .refuse .invalidEscape 1
  | .code isKey left valid =>
    let valid := valid && (Text.hexValue? c).isSome
    if c.utf8Size < left then .go (.code isKey (left - c.utf8Size) valid) frames
    else if valid then .go (.string isKey) frames
    else .refuse .invalidEscape left

/-- What is missing when the text ends inside a container. -/
def endInFrame : List Frame → Cause
  | .object :: _ => .endInObject
  | _ => .endInList

/-- What the end of the text means in a given state: nothing is wrong after a complete number
that is not inside a container. -/
def atEnd (frames : List Frame) : Skipping → Option Cause
  | .value => some .endInValue
  | .opened | .next => some (endInFrame frames)
  | .key | .colon => some .endInObject
  | .letters _ => some .endInValue
  | .number part =>
    match part with
    | .zero | .integer | .fraction | .exponentDigits =>
      if frames = [] then none else some (endInFrame frames)
    | _ => some .invalidNumber
  | .string _ | .escape _ | .code .. => some .endInString

/-- Skip what is left of a value. The answer is the text after it. -/
def skipFrom : Skipping → List Frame → Text → Except Fault Text
  | state, frames, [] =>
    match atEnd frames state with
    | none => .ok []
    | some cause => .error (.here cause [])
  | state, frames, c :: rest =>
    match move frames c state with
    | .go state frames => skipFrom state frames rest
    | .endsBefore => .ok (c :: rest)
    | .endsAfter => .ok rest
    | .refuse cause bytes => .error ⟨cause, c :: rest, bytes⟩

/-- Skip one value. -/
def skipValue (s : Text) : Except Fault Text := skipFrom .value [] s

end Json

end ImportAlias
