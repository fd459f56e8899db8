import ImportAlias.Text.Printable

/-!
# Texts made visible

A text that may hold anything is shown with its special characters escaped: NUL, tab, carriage
return and line feed by a letter, the backslash and quotation marks by a backslash, and every
other character that cannot be shown by its code point in braces.

Two styles are needed. In a log an identifier stands without quotation marks, and both kinds of
mark are escaped in it; only its first character can meet something that it would extend. In a
message a text stands between double quotation marks, so only those are escaped, and a character
that extends the grapheme before it never stands bare.
-/

namespace ImportAlias

namespace Text

/-- What is escaped besides the characters that are escaped everywhere. -/
structure EscapeStyle where
  /-- Escape the single quotation mark. -/
  singleQuote : Bool
  /-- Escape characters that extend the grapheme before them. -/
  extenders : Bool

/-- A character by its code point. -/
def codePoint (c : Char) : Text := "\\u\x7b".toList ++ hex c.toNat ++ ['\x7d']

/-- A character made visible. -/
def escapeChar (style : EscapeStyle) (c : Char) : Text :=
  if c = '\x00' then ['\\', '0']
  else if c = '\t' then ['\\', 't']
  else if c = '\r' then ['\\', 'r']
  else if c = '\n' then ['\\', 'n']
  else if c = '\\' ∨ c = '"' then ['\\', c]
  else if c = '\'' ∧ style.singleQuote then ['\\', c]
  else if style.extenders ∧ extendsGrapheme c then codePoint c
  else if isPrintable c then [c]
  else codePoint c

/-- A text made visible where no quotation marks surround it. -/
def escaped : Text → Text
  | [] => []
  | c :: rest =>
    escapeChar ⟨true, true⟩ c ++ rest.flatMap (escapeChar ⟨true, false⟩)

/-- A text made visible between double quotation marks. -/
def quoted (t : Text) : Text := '"' :: t.flatMap (escapeChar ⟨false, true⟩) ++ ['"']

end Text

end ImportAlias
