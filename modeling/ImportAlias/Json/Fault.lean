import ImportAlias.Decimal.Shortest
import ImportAlias.Text.Quoted

/-!
# What can be wrong with a JSON text

A reader that cannot go on reports the cause and the place. While reading, the place is the part
of the text that is still unread, together with a number of bytes of it that the report steps
over: reports about a byte that was looked at name that byte, reports about something already
consumed name its end. Line and column are computed from that once, at the end. Lines count from
one, and the column is the number of bytes of the line up to the place.
-/

namespace ImportAlias

namespace Json

/-- A place in a text. -/
structure Position where
  /-- The line, counted from one. -/
  line : Nat
  /-- The bytes of the line before the place. -/
  column : Nat
  deriving DecidableEq, Repr

namespace Position

/-- The place before the first character. -/
def start : Position := ⟨1, 0⟩

/-- The place after one more character. -/
def advance (p : Position) (c : Char) : Position :=
  if c = '\n' then ⟨p.line + 1, 0⟩ else ⟨p.line, p.column + c.utf8Size⟩

/-- The place a number of bytes further on, but not past the end of the text. -/
def advanceBytes : Nat → Text → Position → Position
  | _, [], p => p
  | n, c :: rest, p =>
    if n = 0 then p
    else if c.utf8Size ≤ n then advanceBytes (n - c.utf8Size) rest (p.advance c)
    else ⟨p.line, p.column + n⟩

end Position

/-- What a typed place of a document takes. -/
inductive Expected where
  | configFile
  | compilerOptions
  | string
  | map
  | sequence
  deriving DecidableEq, Repr

/-- What a typed place of a document holds instead. -/
inductive Found where
  | null
  | boolean (b : Bool)
  | natural (n : Nat)
  | negative (n : Nat)
  | float (isNegative : Bool) (magnitude : Binary64)
  | string (t : Text)
  | sequence
  | map
  deriving DecidableEq, Repr

/-- What is wrong. -/
inductive Cause where
  | endInValue
  | endInObject
  | endInList
  | endInString
  | expectedColon
  | expectedListCommaOrEnd
  | expectedObjectCommaOrEnd
  | expectedIdent
  | expectedValue
  | invalidEscape
  | invalidNumber
  | numberOutOfRange
  | loneSurrogate
  | unfinishedPair
  | keyNotString
  | controlCharacter
  | trailingComma
  | trailingCharacters
  | invalidType (found : Found) (expected : Expected)
  | duplicateField (name : Text)
  deriving DecidableEq, Repr

/-- The kinds of causes: the text ends too early, is no JSON, or is JSON of the wrong shape. -/
inductive Category where
  | eof
  | syntactic
  | data
  deriving DecidableEq, Repr

/-- The expected thing, in words. -/
def Expected.describe : Expected → Text
  | configFile => "struct ConfigFile".toList
  | compilerOptions => "struct CompilerOptions".toList
  | string => "a string".toList
  | map => "a map".toList
  | sequence => "a sequence".toList

/-- The found thing, in words. -/
def Found.describe : Found → Text
  | null => "null".toList
  | boolean b => (if b then "boolean `true`" else "boolean `false`").toList
  | natural n => "integer `".toList ++ Text.ofNat n ++ ['`']
  | negative n => "integer `-".toList ++ Text.ofNat n ++ ['`']
  | float isNegative magnitude =>
    "floating point `".toList ++ (if isNegative then ['-'] else []) ++ magnitude.render ++ ['`']
  | string t => "string ".toList ++ Text.quoted t
  | sequence => "sequence".toList
  | map => "map".toList

namespace Cause

/-- The cause in words. -/
def describe : Cause → Text
  | endInValue => "EOF while parsing a value".toList
  | endInObject => "EOF while parsing an object".toList
  | endInList => "EOF while parsing a list".toList
  | endInString => "EOF while parsing a string".toList
  | expectedColon => "expected `:`".toList
  | expectedListCommaOrEnd => "expected `,` or `]`".toList
  | expectedObjectCommaOrEnd => "expected `,` or `\x7d`".toList
  | expectedIdent => "expected ident".toList
  | expectedValue => "expected value".toList
  | invalidEscape => "invalid escape".toList
  | invalidNumber => "invalid number".toList
  | numberOutOfRange => "number out of range".toList
  | loneSurrogate => "lone leading surrogate in hex escape".toList
  | unfinishedPair => "unexpected end of hex escape".toList
  | keyNotString => "key must be a string".toList
  | controlCharacter =>
    "control character (\\u0000-\\u001F) found while parsing a string".toList
  | trailingComma => "trailing comma".toList
  | trailingCharacters => "trailing characters".toList
  | invalidType found expected =>
    "invalid type: ".toList ++ found.describe ++ ", expected ".toList ++ expected.describe
  | duplicateField name => "duplicate field `".toList ++ name ++ ['`']

/-- The kind of the cause. -/
def category : Cause → Category
  | endInValue | endInObject | endInList | endInString => .eof
  | invalidType .. | duplicateField .. => .data
  | _ => .syntactic

end Cause

/-- The name of a kind of causes. -/
def Category.name : Category → Text
  | eof => "eof".toList
  | syntactic => "syntax".toList
  | data => "data".toList

/-- A fault met while reading. -/
structure Fault where
  cause : Cause
  /-- The part of the text from which the place is counted. -/
  unread : Text
  /-- The bytes of that part that lie before the place. -/
  bytes : Nat
  deriving DecidableEq, Repr

/-- A fault whose place is known. -/
structure SyntaxError where
  cause : Cause
  position : Position
  deriving DecidableEq, Repr

/-- The place of a fault that was met while reading `source`. -/
def Fault.locate (source : Text) (fault : Fault) : SyntaxError where
  cause := fault.cause
  position :=
    ((source.take (source.length - fault.unread.length)).foldl Position.advance
      Position.start |>.advanceBytes fault.bytes fault.unread)

/-- What the user is told about a fault. -/
def SyntaxError.message (e : SyntaxError) : Text :=
  e.cause.describe ++ " at line ".toList ++ Text.ofNat e.position.line ++ " column ".toList ++
    Text.ofNat e.position.column

/-- What a reader returns: what it read and the rest of the text, or a fault. -/
abbrev Read (α : Type) := Except Fault (α × Text)

/-- A fault at the place where the unread text begins. -/
def Fault.here (cause : Cause) (unread : Text) : Fault := ⟨cause, unread, 0⟩

/-- A fault about the first byte of the unread text. At the end of the text there is none, and the
place is the end. -/
def Fault.byte (cause : Cause) (unread : Text) : Fault := ⟨cause, unread, 1⟩

/-- Whether a character may stand between tokens. -/
def isSpace (c : Char) : Bool := c = ' ' || c = '\t' || c = '\r' || c = '\n'

/-- The text from the next token on. -/
def skipSpace (s : Text) : Text := s.dropWhile isSpace

end Json

end ImportAlias
