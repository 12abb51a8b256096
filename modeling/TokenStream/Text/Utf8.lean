/-!
# UTF-8 with the place and reason of the first fault

Decoding reads bytes one at a time. Between characters it expects a lead byte,
which says how many bytes follow and in which interval the next one must lie:
the intervals behind `E0`, `ED`, `F0` and `F4` keep out overlong forms,
surrogates and values above U+10FFFF. A fault is reported at the start of the
sequence that it spoils, with the number of bytes of that sequence that are
well formed so far.
-/

namespace TokenStream.Utf8

/-- What is wrong with a sequence. -/
inductive Reason where
  /-- No character starts with this byte. -/
  | invalidStart
  /-- The next byte cannot follow. -/
  | invalidContinuation
  /-- The bytes end within the sequence. -/
  | unexpectedEnd
deriving DecidableEq, Repr

def Reason.message : Reason → String
  | invalidStart => "invalid start byte"
  | invalidContinuation => "invalid continuation byte"
  | unexpectedEnd => "unexpected end of data"

/-- The first fault of a byte string: where its sequence starts, how many bytes
of it were read, and the first of them. -/
structure Fault where
  offset : Nat
  length : Nat
  lead : UInt8
  reason : Reason
deriving DecidableEq, Repr

/-- What a lead byte says: its own bits of the code point, the number of bytes
that follow, and the interval of the next one. -/
structure Lead where
  bits : Nat
  more : Nat
  low : Nat
  high : Nat
deriving DecidableEq, Repr

def lead? (b : UInt8) : Option Lead :=
  let n := b.toNat
  if n < 0x80 then some ⟨n, 0, 0, 0⟩
  else if n < 0xC2 then none
  else if n < 0xE0 then some ⟨n - 0xC0, 1, 0x80, 0xBF⟩
  else if n < 0xF0 then
    some ⟨n - 0xE0, 2, if n = 0xE0 then 0xA0 else 0x80, if n = 0xED then 0x9F else 0xBF⟩
  else if n < 0xF5 then
    some ⟨n - 0xF0, 3, if n = 0xF0 then 0x90 else 0x80, if n = 0xF4 then 0x8F else 0xBF⟩
  else none

/-- A sequence that has been read in part: its lead byte, the bits so far, how
many bytes were read and how many follow, and the interval of the next one. -/
structure Sequence where
  lead : UInt8
  bits : Nat
  read : Nat
  more : Nat
  low : Nat
  high : Nat

/-- Decodes the bytes from the given offset on, within the given sequence if
any, behind the characters already decoded (the last one first). -/
def decodeFrom (offset : Nat) (done : List Char) :
    Option Sequence → List UInt8 → Except Fault (List Char)
  | none, [] => .ok done.reverse
  | none, b :: bs =>
    match lead? b with
    | none => .error ⟨offset, 1, b, .invalidStart⟩
    | some ⟨bits, 0, _, _⟩ => decodeFrom (offset + 1) (Char.ofNat bits :: done) none bs
    | some ⟨bits, more + 1, low, high⟩ =>
      decodeFrom (offset + 1) done (some ⟨b, bits, 1, more + 1, low, high⟩) bs
  | some p, [] => .error ⟨offset - p.read, p.read, p.lead, .unexpectedEnd⟩
  | some p, b :: bs =>
    if p.low ≤ b.toNat ∧ b.toNat ≤ p.high then
      let bits := 64 * p.bits + (b.toNat - 0x80)
      if p.more ≤ 1 then decodeFrom (offset + 1) (Char.ofNat bits :: done) none bs
      else
        decodeFrom (offset + 1) done (some ⟨p.lead, bits, p.read + 1, p.more - 1, 0x80, 0xBF⟩) bs
    else .error ⟨offset - p.read, p.read, p.lead, .invalidContinuation⟩

/-- The text that a byte string encodes, or its first fault. -/
def decode (bytes : List UInt8) : Except Fault (List Char) := decodeFrom 0 [] none bytes

/-- The bytes of a text. -/
def encode (s : List Char) : List UInt8 := s.flatMap String.utf8EncodeChar

end TokenStream.Utf8
