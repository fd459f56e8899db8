import ImportAlias.Json.Literal

/-!
# Typed places of a document

Where a document is read for its content, each place takes values of one kind. `mistyped` reports
a value of another kind: a scalar is read first, so that a fault inside it comes before the
report. `readMembers` and `readElements` go through an object or an array and hand each member or
element to a function that reads its value.

Both loops are bounded by the length of the text, as each member and each element takes at least
one character of it.
-/

namespace ImportAlias

namespace Json

/-- The report on a value, the next token of the text, where `expected` belongs. -/
def mistyped (expected : Expected) (s : Text) : Fault :=
  let report (found : Found) : Except Fault Text → Fault
    | .ok rest => .here (.invalidType found expected) rest
    | .error fault => fault
  match s with
  | [] => .here .endInValue []
  | c :: rest =>
    if c = 'n' then report .null (readLetters "ull".toList rest)
    else if c = 't' then report (.boolean true) (readLetters "rue".toList rest)
    else if c = 'f' then report (.boolean false) (readLetters "alse".toList rest)
    else if c = '-' ∨ isDigit c then
      match readNumber (c = '-') (if c = '-' then rest else s) with
      | .ok (n, rest) => .here (.invalidType (n.found (c = '-')) expected) rest
      | .error fault => fault
    else if c = '"' then
      match readString rest with
      | .ok (t, rest) => .here (.invalidType (.string t) expected) rest
      | .error fault => fault
    else if c = '[' then .here (.invalidType .sequence expected) s
    else if c = '\x7b' then .here (.invalidType .map expected) s
    else .byte .expectedValue s

/-- Read a string. -/
def readText (s : Text) : Read Text :=
  match skipSpace s with
  | '"' :: rest => readString rest
  | s => .error (mistyped .string s)

/-- Read `null`, or else a value by `read`. -/
def readNullable {α : Type} (read : Text → Read α) (s : Text) : Read (Option α) :=
  match skipSpace s with
  | 'n' :: rest =>
    match readLetters "ull".toList rest with
    | .ok rest => .ok (none, rest)
    | .error fault => .error fault
  | s =>
    match read s with
    | .ok (a, rest) => .ok (some a, rest)
    | .error fault => .error fault

/-- Read the colon after a key. -/
def readColon (s : Text) : Except Fault Text :=
  match skipSpace s with
  | ':' :: rest => .ok rest
  | [] => .error (.here .endInObject [])
  | s => .error (.byte .expectedColon s)

/-! ### Arrays -/

/-- The text at the next element of an array, or nothing when the array ends there. -/
def nextElement (first : Bool) (s : Text) : Except Fault (Option Text) :=
  match skipSpace s with
  | [] => .error (.here .endInList [])
  | c :: rest =>
    if c = ']' then .ok none
    else if first then .ok (some (c :: rest))
    else if c = ',' then
      match skipSpace rest with
      | ']' :: rest => .error (.byte .trailingComma (']' :: rest))
      | s => .ok (some s)
    else .error (.byte .expectedListCommaOrEnd (c :: rest))

/-- Read the end of an array whose elements were all read. -/
def endArray (s : Text) : Except Fault Text :=
  match skipSpace s with
  | [] => .error (.here .endInList [])
  | ']' :: rest => .ok rest
  | ',' :: rest =>
    match skipSpace rest with
    | ']' :: rest => .error (.byte .trailingComma (']' :: rest))
    | s => .error (.byte .trailingCharacters s)
  | s => .error (.byte .trailingCharacters s)

/-- Read the elements that are left of an array and its end. The elements read so far are given
last first. -/
def readElements {α : Type} (read : Text → Read α) :
    (bound : Nat) → (first : Bool) → List α → Text → Read (List α)
  | 0, _, _, s => .error (.here .endInList s)
  | bound + 1, first, elements, s =>
    match nextElement first s with
    | .error fault => .error fault
    | .ok none =>
      match endArray s with
      | .ok rest => .ok (elements.reverse, rest)
      | .error fault => .error fault
    | .ok (some s) =>
      match read s with
      | .ok (a, rest) => readElements read bound false (a :: elements) rest
      | .error fault => .error fault

/-- Read an array whose elements are read by `read`. -/
def readArray {α : Type} (read : Text → Read α) (s : Text) : Read (List α) :=
  match skipSpace s with
  | '[' :: rest => readElements read (rest.length + 1) true [] rest
  | s => .error (mistyped .sequence s)

/-! ### Objects -/

/-- The next key of an object and the text after it, or nothing when the object ends there. -/
def nextKey (first : Bool) (s : Text) : Except Fault (Option (Text × Text)) :=
  let key : Text → Except Fault (Option (Text × Text)) := fun rest =>
    match readString rest with
    | .ok (k, rest) => .ok (some (k, rest))
    | .error fault => .error fault
  match skipSpace s with
  | [] => .error (.here .endInObject [])
  | c :: rest =>
    if c = '\x7d' then .ok none
    else if first then
      if c = '"' then key rest else .error (.byte .keyNotString (c :: rest))
    else if c = ',' then
      match skipSpace rest with
      | '"' :: rest => key rest
      | '\x7d' :: rest => .error (.byte .trailingComma ('\x7d' :: rest))
      | [] => .error (.here .endInValue [])
      | s => .error (.byte .keyNotString s)
    else .error (.byte .expectedObjectCommaOrEnd (c :: rest))

/-- The text after the end of an object, if that comes next. -/
def endObject (s : Text) : Text :=
  match skipSpace s with
  | '\x7d' :: rest => rest
  | s => s

/-- A report about a key that comes a second time. Its place is where the search for the object's
end stopped that began after the key. -/
def duplicateKey (key rest : Text) : Fault := .here (.duplicateField key) (endObject rest)

/-- Read the members that are left of an object and its end. `member` takes what was read so far,
the key, and the text after the key. -/
def readMembers {σ : Type} (member : σ → Text → Text → Read σ) :
    (bound : Nat) → (first : Bool) → σ → Text → Read σ
  | 0, _, _, s => .error (.here .endInObject s)
  | bound + 1, first, state, s =>
    match nextKey first s with
    | .error fault => .error fault
    | .ok none => .ok (state, endObject s)
    | .ok (some (key, rest)) =>
      match member state key rest with
      | .ok (state, rest) => readMembers member bound false state rest
      | .error fault => .error fault

/-- Read an object after its opening brace. -/
def readObject {σ : Type} (member : σ → Text → Text → Read σ) (start : σ) (s : Text) : Read σ :=
  readMembers member (s.length + 1) true start s

end Json

end ImportAlias
