import ImportAlias.Text.Basic

/-!
# Decoding UTF-8

Bytes are decoded into characters and gaps. A gap stands for bytes that are no character: as many
as begin a character together, or one byte that begins none. After a gap decoding goes on with
the byte that spoiled it. Reading the gaps as U+FFFD gives the text of any bytes at all.

The decoder looks at one byte at a time. After the first byte of a character it remembers how many
more are due and in which range the next one has to lie; that range excludes overlong forms,
surrogates, and code points that are too large.
-/

namespace ImportAlias

/-- Decoded bytes: characters, and gaps where the bytes are no character. -/
abbrev Decoded := List (Option Char)

namespace Utf8

/-- A character of which some bytes are still due. -/
structure Pending where
  /-- The bits of its code point so far. -/
  bits : Nat
  /-- The number of bytes that are due, at least one. -/
  due : Nat
  /-- The least value of the next byte. -/
  low : Nat
  /-- The greatest value of the next byte. -/
  high : Nat
  deriving DecidableEq, Repr

/-- What a byte that begins a character gives. -/
inductive Lead where
  | char (c : Char)
  | more (p : Pending)
  | invalid
  deriving DecidableEq, Repr

/-- Read a byte where a character begins. -/
def lead (b : Nat) : Lead :=
  if b < 0x80 then .char (Char.ofNat b)
  else if b < 0xc2 then .invalid
  else if b < 0xe0 then .more ⟨b - 0xc0, 1, 0x80, 0xbf⟩
  else if b = 0xe0 then .more ⟨0, 2, 0xa0, 0xbf⟩
  else if b = 0xed then .more ⟨0xd, 2, 0x80, 0x9f⟩
  else if b < 0xf0 then .more ⟨b - 0xe0, 2, 0x80, 0xbf⟩
  else if b = 0xf0 then .more ⟨0, 3, 0x90, 0xbf⟩
  else if b < 0xf4 then .more ⟨b - 0xf0, 3, 0x80, 0xbf⟩
  else if b = 0xf4 then .more ⟨4, 3, 0x80, 0x8f⟩
  else .invalid

/-- Decode bytes, the first of which may continue a character. -/
def decodeFrom : Option Pending → List UInt8 → Decoded
  | none, [] => []
  | some _, [] => [none]
  | none, b :: bytes =>
    match lead b.toNat with
    | .char c => some c :: decodeFrom none bytes
    | .more p => decodeFrom (some p) bytes
    | .invalid => none :: decodeFrom none bytes
  | some p, b :: bytes =>
    if p.low ≤ b.toNat ∧ b.toNat ≤ p.high then
      let bits := p.bits * 64 + (b.toNat - 0x80)
      if p.due = 1 then some (Char.ofNat bits) :: decodeFrom none bytes
      else decodeFrom (some ⟨bits, p.due - 1, 0x80, 0xbf⟩) bytes
    else
      match lead b.toNat with
      | .char c => none :: some c :: decodeFrom none bytes
      | .more q => none :: decodeFrom (some q) bytes
      | .invalid => none :: none :: decodeFrom none bytes

/-- Decode bytes into characters and gaps. -/
def decode (bytes : List UInt8) : Decoded := decodeFrom none bytes

end Utf8

namespace Decoded

/-- The text without gaps, if there are none. -/
def text? : Decoded → Option Text
  | [] => some []
  | none :: _ => none
  | some c :: rest => (text? rest).map (c :: ·)

/-- The text with every gap shown as U+FFFD. -/
def lossy (d : Decoded) : Text := d.map (·.getD '\ufffd')

/-- A text seen as decoded bytes. -/
def ofText (t : Text) : Decoded := t.map some

@[simp] theorem text?_ofText (t : Text) : text? (ofText t) = some t := by
  induction t with
  | nil => rfl
  | cons c t ih =>
    show (text? (ofText t)).map (c :: ·) = some (c :: t)
    rw [ih]; rfl

@[simp] theorem lossy_ofText (t : Text) : lossy (ofText t) = t := by
  induction t with
  | nil => rfl
  | cons c t ih => exact congrArg (c :: ·) ih

end Decoded

end ImportAlias
