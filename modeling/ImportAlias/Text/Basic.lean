/-!
# Texts

Specifiers, keys, paths and configuration sources are lists of characters. Every operation on
them is a recursion on that list, which is the form in which their laws are stated and proved;
`String` appears only where a text enters or leaves the program.

The vocabulary here is small: ASCII lower case, numerals, and trimming at either end.
Splitting and joining at a separator are `List.splitOn` and `List.intercalate`.
-/

namespace ImportAlias

/-- A text is a list of characters, that is of Unicode scalar values. -/
abbrev Text := List Char

namespace Text

/-- The text with `A` to `Z` in lower case and every other character kept. -/
def lowercase (t : Text) : Text := t.map Char.toLower

/-- The decimal numeral of a natural number, without leading zeros. -/
def ofNat (n : Nat) : Text := Nat.toDigits 10 n

/-- The hexadecimal numeral of a natural number, in lower case and without leading zeros. -/
def hex (n : Nat) : Text := Nat.toDigits 16 n

/-- The value of a hexadecimal digit in either case. -/
def hexValue? (c : Char) : Option Nat :=
  if '0' ≤ c ∧ c ≤ '9' then some (c.toNat - '0'.toNat)
  else if 'a' ≤ c ∧ c ≤ 'f' then some (c.toNat - 'a'.toNat + 10)
  else if 'A' ≤ c ∧ c ≤ 'F' then some (c.toNat - 'A'.toNat + 10)
  else none

/-- The text without the run of `c` at its end. -/
def trimEnd (c : Char) (t : Text) : Text := (t.reverse.dropWhile (· = c)).reverse

/-- The text without the run of `c` at its start. -/
def trimStart (c : Char) (t : Text) : Text := t.dropWhile (· = c)

/-- Whether the text begins with `start`. -/
def startsWith (start t : Text) : Bool := start.isPrefixOf t

/-- The number of bytes of the text in UTF-8. -/
def byteSize (t : Text) : Nat := t.foldl (fun n c => n + c.utf8Size) 0

end Text

end ImportAlias
