import TokenStream.Text.CodePoint

/-!
# Positions in a document

A position is a line and a character within it, both counted from zero.
Only a line feed ends a line, and characters are counted in UTF-16 units.
An offset into the text counts code points. One below zero counts back from
the end of the text, and one beyond either end stands for that end. An offset
into a document has a position if the line in front of it can be encoded
(`Position.ofDocument`); an offset into a text always has one
(`Position.ofOffset`).
-/

namespace TokenStream

structure Position where
  line : Nat
  character : Nat
deriving DecidableEq, Repr

namespace Position

/-- The offset within a text of the given length that an integer stands for. -/
def clamp (length : Nat) (offset : Int) : Nat :=
  if offset < 0 then (length + offset).toNat else min offset.toNat length

/-- The last line of a text: what follows its last line feed. -/
def lastLine (s : List Char) : List Char :=
  (s.reverse.takeWhile (· != '\n')).reverse

/-- The position just behind a text that starts at the origin. -/
def afterText (s : List Char) : Position :=
  ⟨s.count '\n', Utf16.length (lastLine s)⟩

/-! ## Lookups between two offsets -/

section

variable {α : Type}

/-- The piece of a text from one offset to another. -/
def slice (text : List α) (start stop : Int) : List α :=
  (text.take (clamp text.length stop)).drop (clamp text.length start)

variable [BEq α]

/-- How often a character occurs between two offsets. -/
def count (text : List α) (c : α) (start stop : Int) : Nat := (slice text start stop).count c

/-- The offset of the last place between two offsets where a character stands,
or one below zero if there is none. -/
def rfind (text : List α) (c : α) (start stop : Int) : Int :=
  let piece := slice text start stop
  match piece.reverse.idxOf? c with
  | some behind => clamp text.length start + (piece.length - 1 - behind)
  | none => -1

end

/-! ## Positions of offsets -/

/-- The position of an offset into a text: the line feeds in front of it are
counted, and the units behind the last of them. -/
def ofOffset (text : List Char) (offset : Int) : Position :=
  let line := count text '\n' 0 offset
  let lineStart := rfind text '\n' 0 offset + 1
  ⟨line, Utf16.length (slice text lineStart offset)⟩

/-- The position of an offset into a document. The line in front of the offset is
encoded to count its units. -/
def ofDocument (d : Document) (offset : Int) : Except Unencodable Position := do
  let line := count d (.char '\n') 0 offset
  let lineStart := rfind d (.char '\n') 0 offset + 1
  let units ← Document.encode (slice d lineStart offset)
  return ⟨line, units.length⟩

/-- An offset within the text stands for itself. -/
theorem clamp_natCast {length n : Nat} (h : n ≤ length) : clamp length n = n := by
  unfold clamp
  split <;> omega

end Position

end TokenStream
