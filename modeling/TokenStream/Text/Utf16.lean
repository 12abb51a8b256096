/-!
# UTF-16 code units

A character takes one unit, or a pair of surrogates when it lies above U+FFFF.
Positions in a document are counted in these units, and the text escapes of
JSON write them.
-/

namespace TokenStream.Utf16

/-- The units of one character. -/
def encodeChar (c : Char) : List Nat :=
  if c.toNat < 0x10000 then [c.toNat]
  else [0xD800 + (c.toNat - 0x10000) / 0x400, 0xDC00 + (c.toNat - 0x10000) % 0x400]

/-- The units of a text. -/
def encode (s : List Char) : List Nat := s.flatMap encodeChar

/-- The number of units of a text. -/
def length (s : List Char) : Nat := (encode s).length

@[simp] theorem encode_append (s t : List Char) : encode (s ++ t) = encode s ++ encode t :=
  List.flatMap_append

@[simp] theorem length_append (s t : List Char) : length (s ++ t) = length s + length t := by
  simp [length]

theorem length_encodeChar_pos (c : Char) : 0 < (encodeChar c).length := by
  unfold encodeChar
  split <;> simp

end TokenStream.Utf16
