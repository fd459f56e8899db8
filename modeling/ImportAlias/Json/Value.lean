import ImportAlias.Text.Basic

/-!
# JSON values and their printed form

Documents that the program prints are JSON values. They are laid out with an indentation of two
spaces, one member or element to a line, and an empty container on one line. Entries of a log take
one line each and are written without any blanks. In strings only what must be escaped is:
quotation marks, backslashes and control characters.
-/

namespace ImportAlias

namespace Json

/-- A JSON value. Numbers are kept as they are written. -/
inductive Value where
  | null
  | boolean (b : Bool)
  | number (numeral : Text)
  | string (t : Text)
  | list (elements : List Value)
  | object (members : List (Text × Value))

namespace Value

/-- A natural number as a value. -/
def ofNat (n : Nat) : Value := .number (Text.ofNat n)

/-- A text or null. -/
def ofText? (t : Option Text) : Value :=
  match t with
  | some t => .string t
  | none => .null

end Value

/-- A character as it is written in a string. -/
def writeChar (c : Char) : Text :=
  if c = '"' ∨ c = '\\' then ['\\', c]
  else if c = '\x08' then ['\\', 'b']
  else if c = '\x0c' then ['\\', 'f']
  else if c = '\n' then ['\\', 'n']
  else if c = '\r' then ['\\', 'r']
  else if c = '\t' then ['\\', 't']
  else if c.toNat < 0x20 then
    "\\u00".toList ++ (if c.toNat < 0x10 then ['0'] else []) ++ Text.hex c.toNat
  else [c]

/-- A text as a JSON string. -/
def writeString (t : Text) : Text := '"' :: t.flatMap writeChar ++ ['"']

/-- The start of a line at a depth of nesting. -/
def newLine (depth : Nat) : Text := '\n' :: List.replicate (2 * depth) ' '

mutual

/-- A value as it is printed at a depth of nesting. -/
def write (depth : Nat) : Value → Text
  | .null => "null".toList
  | .boolean b => (if b then "true" else "false").toList
  | .number numeral => numeral
  | .string t => writeString t
  | .list [] => ['[', ']']
  | .list (v :: vs) =>
    '[' :: newLine (depth + 1) ++ write (depth + 1) v ++ writeElements (depth + 1) vs ++
      newLine depth ++ [']']
  | .object [] => ['\x7b', '\x7d']
  | .object ((key, v) :: members) =>
    '\x7b' :: newLine (depth + 1) ++ writeString key ++ [':', ' '] ++ write (depth + 1) v ++
      writeMembers (depth + 1) members ++ newLine depth ++ ['\x7d']

/-- The elements after the first, each after a comma. -/
def writeElements (depth : Nat) : List Value → Text
  | [] => []
  | v :: vs => ',' :: newLine depth ++ write depth v ++ writeElements depth vs

/-- The members after the first, each after a comma. -/
def writeMembers (depth : Nat) : List (Text × Value) → Text
  | [] => []
  | (key, v) :: members =>
    ',' :: newLine depth ++ writeString key ++ [':', ' '] ++ write depth v ++
      writeMembers depth members

end

/-- A value as a document of its own. -/
def print (v : Value) : Text := write 0 v

mutual

/-- A value without blanks between its tokens. -/
def inline : Value → Text
  | .null => "null".toList
  | .boolean b => (if b then "true" else "false").toList
  | .number numeral => numeral
  | .string t => writeString t
  | .list [] => ['[', ']']
  | .list (v :: vs) => '[' :: inline v ++ inlineElements vs ++ [']']
  | .object [] => ['\x7b', '\x7d']
  | .object ((key, v) :: members) =>
    '\x7b' :: writeString key ++ ':' :: inline v ++ inlineMembers members ++ ['\x7d']

/-- The elements after the first, without blanks. -/
def inlineElements : List Value → Text
  | [] => []
  | v :: vs => ',' :: inline v ++ inlineElements vs

/-- The members after the first, without blanks. -/
def inlineMembers : List (Text × Value) → Text
  | [] => []
  | (key, v) :: members => ',' :: writeString key ++ ':' :: inline v ++ inlineMembers members

end

end Json

end ImportAlias
