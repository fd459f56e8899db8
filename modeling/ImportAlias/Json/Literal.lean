import ImportAlias.Json.Fault

/-!
# Strings, numbers and names

The scalar values of JSON. A string is read character by character, with a state that says what
the next character belongs to; a number by its parts. Names are `null`, `true` and `false`.

An escaped code is four bytes wide whatever they are, and only then judged. A code that is the
leading half of a surrogate pair has to be followed by the escaped code of a trailing half.
-/

namespace ImportAlias

namespace Json

/-- Read the remaining letters of a name. -/
def readLetters : List Char → Text → Except Fault Text
  | [], s => .ok s
  | _ :: _, [] => .error (.here .endInValue [])
  | letter :: letters, c :: rest =>
    if c = letter then readLetters letters rest else .error (.byte .expectedIdent (c :: rest))

/-- Whether a character is a decimal digit. -/
def isDigit (c : Char) : Bool := decide ('0' ≤ c) && decide (c ≤ '9')

/-- The value of a decimal digit. -/
def digitValue (c : Char) : Nat := c.toNat - '0'.toNat

/-- The character that a letter stands for after a backslash. -/
def simpleEscape (c : Char) : Option Char :=
  if c = '"' ∨ c = '\\' ∨ c = '/' then some c
  else if c = 'b' then some '\x08'
  else if c = 'f' then some '\x0c'
  else if c = 'n' then some '\n'
  else if c = 'r' then some '\r'
  else if c = 't' then some '\t'
  else none

/-! ### Strings -/

/-- What the next character of a string belongs to. -/
inductive StringState where
  /-- It stands for itself. -/
  | plain
  /-- It follows a backslash. -/
  | escape
  /-- It belongs to an escaped code, of which `left` bytes are due. The code so far is `none` when
  one of them was no digit. `lead` is a leading surrogate that this code has to complete. -/
  | code (left : Nat) (value : Option Nat) (lead : Option Nat)
  /-- It follows a leading surrogate, and has to be a backslash. -/
  | pairBackslash (lead : Nat)
  /-- It follows a leading surrogate and a backslash, and has to be `u`. -/
  | pairLetter (lead : Nat)
  deriving DecidableEq, Repr

/-- Whether a code is a leading surrogate. -/
def isLead (n : Nat) : Bool := decide (0xd800 ≤ n) && decide (n ≤ 0xdbff)

/-- Whether a code is a trailing surrogate. -/
def isTrail (n : Nat) : Bool := decide (0xdc00 ≤ n) && decide (n ≤ 0xdfff)

/-- The character of a surrogate pair. -/
def pairChar (lead trail : Nat) : Char :=
  Char.ofNat ((lead - 0xd800) * 0x400 + (trail - 0xdc00) + 0x10000)

/-- Read the rest of a string, up to its closing quotation mark. The characters read so far are
given last first. -/
def readStringFrom : StringState → Text → Text → Read Text
  | _, _, [] => .error (.here .endInString [])
  | .plain, read, c :: rest =>
    if c = '"' then .ok (read.reverse, rest)
    else if c = '\\' then readStringFrom .escape read rest
    else if c.toNat < 0x20 then .error (.byte .controlCharacter (c :: rest))
    else readStringFrom .plain (c :: read) rest
  | .escape, read, c :: rest =>
    if c = 'u' then readStringFrom (.code 4 (some 0) none) read rest
    else
      match simpleEscape c with
      | some d => readStringFrom .plain (d :: read) rest
      | none => .error (.byte .invalidEscape (c :: rest))
  | .code left value lead, read, c :: rest =>
    let value := value.bind fun n => (Text.hexValue? c).map (16 * n + ·)
    if c.utf8Size < left then readStringFrom (.code (left - c.utf8Size) value lead) read rest
    else
      match value, lead with
      | none, _ => .error ⟨.invalidEscape, c :: rest, left⟩
      | some n, none =>
        if isTrail n then .error (.here .loneSurrogate rest)
        else if isLead n then readStringFrom (.pairBackslash n) read rest
        else readStringFrom .plain (Char.ofNat n :: read) rest
      | some n, some lead =>
        if isTrail n then readStringFrom .plain (pairChar lead n :: read) rest
        else .error (.here .loneSurrogate rest)
  | .pairBackslash lead, read, c :: rest =>
    if c = '\\' then readStringFrom (.pairLetter lead) read rest
    else .error (.byte .unfinishedPair (c :: rest))
  | .pairLetter lead, read, c :: rest =>
    if c = 'u' then readStringFrom (.code 4 (some 0) (some lead)) read rest
    else .error (.byte .unfinishedPair (c :: rest))

/-- Read a string whose opening quotation mark was just read. -/
def readString (s : Text) : Read Text := readStringFrom .plain [] s

/-! ### Numbers

A number that is written without point and exponent and fits 64 bits is an integer. Any other
becomes a 64-bit binary number: as many of its leading digits as fit 64 bits make the significand,
and the others only count towards the exponent. Minus zero is no integer. -/

/-- The value of a number, with its sign apart. -/
inductive Magnitude where
  | integer (n : Nat)
  | float (x : Binary64)
  deriving DecidableEq, Repr

/-- The greatest significand. -/
def maxSignificand : Nat := Nat.pow 2 64 - 1

/-- The greatest exponent that is computed with. -/
def maxExponent : Nat := Nat.pow 2 31 - 1

/-- Take leading digits into a significand as long as it fits. The answer is the significand and
the digits that were not taken. -/
def takeSignificand (significand : Nat) : Text → Nat × Text
  | [] => (significand, [])
  | d :: digits =>
    let next := significand * 10 + digitValue d
    if maxSignificand < next then (significand, d :: digits) else takeSignificand next digits

/-- A scaled significand, or the report that it is too large. -/
def scaled (significand : Nat) (exponent : Int) (rest : Text) : Read Magnitude :=
  match Binary64.ofDecimal significand exponent with
  | some x => .ok (.float x, rest)
  | none => .error (.here .numberOutOfRange rest)

/-- Read the digits of an exponent into `value`. An exponent beyond the greatest is `none`, and
comes with the text after the digit that made it so. -/
def readExponentDigits (value : Nat) : Text → Option Nat × Text
  | [] => (some value, [])
  | c :: rest =>
    if isDigit c then
      let next := value * 10 + digitValue c
      if maxExponent < next then (none, rest) else readExponentDigits next rest
    else (some value, c :: rest)

/-- The sum of an exponent and what the digits contribute to it, kept within 32 bits. -/
def addExponent (exponent offset : Int) : Int :=
  max (-(maxExponent : Int) - 1) (min (maxExponent : Int) (exponent + offset))

/-- Read an exponent, after its letter, and scale the significand by it. -/
def readExponent (significand : Nat) (offset : Int) (s : Text) : Read Magnitude :=
  let negative := s.head? == some '-'
  let s := if negative || s.head? == some '+' then s.drop 1 else s
  match s with
  | [] => .error (.here .endInValue [])
  | c :: rest =>
    if isDigit c then
      match readExponentDigits (digitValue c) rest with
      | (some exponent, rest) =>
        let exponent : Int := if negative then -(exponent : Int) else exponent
        scaled significand (addExponent offset exponent) rest
      | (none, rest) =>
        if significand ≠ 0 ∧ !negative then .error (.here .numberOutOfRange rest)
        else .ok (.float .zero, rest.dropWhile isDigit)
    else .error (.byte .invalidNumber (c :: rest))

/-- Whether a text goes on with an exponent. -/
def startsExponent (s : Text) : Bool := s.head? == some 'e' || s.head? == some 'E'

/-- Read a fraction, after its point, and an exponent if one follows. -/
def readFraction (significand : Nat) (offset : Int) (s : Text) : Read Magnitude :=
  let digits := s.takeWhile isDigit
  let rest := s.dropWhile isDigit
  if digits = [] then
    match rest with
    | [] => .error (.here .endInValue [])
    | rest => .error (.byte .invalidNumber rest)
  else
    let (significand, ignored) := takeSignificand significand digits
    let offset := offset - (digits.length - ignored.length : Nat)
    if startsExponent rest then readExponent significand offset (rest.drop 1)
    else scaled significand offset rest

/-- Read what follows the integer part of a number. `offset` counts the digits of the integer part
that the significand left out. -/
def readAfterInteger (negative : Bool) (significand offset : Nat) (s : Text) : Read Magnitude :=
  if s.head? == some '.' then readFraction significand offset (s.drop 1)
  else if startsExponent s then readExponent significand offset (s.drop 1)
  else if 0 < offset then scaled significand offset s
  else if negative ∧ (significand = 0 ∨ Nat.pow 2 63 < significand) then scaled significand 0 s
  else .ok (.integer significand, s)

/-- Read a number, after its sign. -/
def readNumber (negative : Bool) (s : Text) : Read Magnitude :=
  match s with
  | [] => .error (.here .endInValue [])
  | c :: rest =>
    if c = '0' then
      if rest.head?.any isDigit then .error (.byte .invalidNumber rest)
      else readAfterInteger negative 0 0 rest
    else if isDigit c then
      let (significand, ignored) := takeSignificand 0 (s.takeWhile isDigit)
      readAfterInteger negative significand ignored.length (s.dropWhile isDigit)
    else .error (.byte .invalidNumber (c :: rest))

/-- How a number is reported where no number belongs. -/
def Magnitude.found (negative : Bool) : Magnitude → Found
  | .integer n => if negative then .negative n else .natural n
  | .float x => .float negative x

end Json

end ImportAlias
