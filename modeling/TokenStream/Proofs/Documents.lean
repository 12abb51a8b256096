import Mathlib.Data.List.Basic
import TokenStream.Lexer.Passage
import TokenStream.Proofs.Alphabet
import TokenStream.Proofs.Position

/-!
# Documents with surrogates in them

What is read in place of a surrogate is in none of the classes and in none of the tables, just as
the surrogate itself, and it ends no line. So the lookups find the same in a document as in what
is read in its place. Main statements: an offset into a text has the position that is counted
without regard to encoding (`Position.ofDocument_ofChars`), and so has an offset into any document
up to its first surrogate (`Position.ofDocument_front`); behind that surrogate, there is no
position (`Position.ofDocument_surrogate`).
-/

namespace TokenStream

namespace CodePoint

theorem ofChar_scrub (c : CodePoint) : CharClass.ofChar c.scrub = c.classes := by
  cases c with
  | char c => rfl
  | surrogate s =>
    show CharClass.ofChar replacement = .none
    decide +kernel

/-- What is read in place of a surrogate stands in no table. -/
theorem replacement_notMem :
    (∀ kinds, (replacement, kinds) ∉ Kind.operators) ∧
      ∀ kind, (replacement, kind) ∉ Kind.symbols := by
  have hops : ∀ e ∈ Kind.operators, e.1 ≠ replacement := by decide
  have hsyms : ∀ e ∈ Kind.symbols, e.1 ≠ replacement := by decide
  exact ⟨fun _ h => hops _ h rfl, fun _ h => hsyms _ h rfl⟩

theorem scrub_beq_newline (c : CodePoint) : (c.scrub == '\n') = (c == .char '\n') := by
  cases c with
  | char c =>
    rw [Bool.eq_iff_iff, beq_iff_eq, beq_iff_eq, CodePoint.char.injEq]
    rfl
  | surrogate s => rfl

end CodePoint

namespace Position

/-! ## Lookups in documents -/

section

variable {α β : Type}

theorem slice_map (f : α → β) (text : List α) (start stop : Int) :
    slice (text.map f) start stop = (slice text start stop).map f := by
  rw [slice, slice, List.length_map, List.map_drop, List.map_take]

theorem mem_take_of_mem_slice {text : List α} {start stop : Int} {a : α}
    (h : a ∈ slice text start stop) : a ∈ text.take (clamp text.length stop) :=
  List.mem_of_mem_drop h

variable [BEq α] [BEq β] {f : α → β} {c : α}

/-- What a function tells apart from the rest is counted as often in its values. -/
theorem count_map (h : ∀ x, (f x == f c) = (x == c)) (text : List α) (start stop : Int) :
    count (text.map f) (f c) start stop = count text c start stop := by
  rw [count, count, slice_map, List.count, List.countP_map, List.count]
  exact List.countP_congr fun x _ => by rw [Function.comp_apply, h]

theorem rfind_map (h : ∀ x, (f x == f c) = (x == c)) (text : List α) (start stop : Int) :
    rfind (text.map f) (f c) start stop = rfind text c start stop := by
  have hindex : ∀ piece : List α, (piece.map f).idxOf? (f c) = piece.idxOf? c := fun piece => by
    rw [List.idxOf?, List.findIdx?_map, List.idxOf?]
    exact congrArg (List.findIdx? · piece) (funext h)
  simp only [rfind, slice_map, ← List.map_reverse, hindex, List.length_map]

end

/-! ## Positions in documents -/

section

variable {d : Document} {offset : Int}

/-- The line of a document in front of an offset. -/
def lineBefore (d : Document) (offset : Int) : Document :=
  slice d (rfind d.scrubbed '\n' 0 offset + 1) offset

theorem scrubbed_lineBefore (d : Document) (offset : Int) :
    (lineBefore d offset).scrubbed = lastLine (d.scrubbed.take (clamp d.length offset)) := by
  have h := slice_rfind d.scrubbed offset
  rw [Document.length_scrubbed] at h
  rw [← h]
  exact (slice_map CodePoint.scrub d _ _).symm

/-- The line feeds are counted, and the line in front of the offset is encoded. -/
theorem ofDocument_eq (d : Document) (offset : Int) :
    ofDocument d offset = (lineBefore d offset).encode.map fun units =>
      ⟨count d.scrubbed '\n' 0 offset, units.length⟩ := by
  have hcount : count d.scrubbed '\n' 0 offset = count d (.char '\n') 0 offset :=
    count_map (f := CodePoint.scrub) (c := .char '\n') CodePoint.scrub_beq_newline d 0 offset
  have hfind : rfind d.scrubbed '\n' 0 offset = rfind d (.char '\n') 0 offset :=
    rfind_map (f := CodePoint.scrub) (c := .char '\n') CodePoint.scrub_beq_newline d 0 offset
  rw [ofDocument, lineBefore, hcount, hfind]
  cases Document.encode (slice d (rfind d (.char '\n') 0 offset + 1) offset) <;> rfl

/-- Without a surrogate in front of it, an offset has the position that is counted in the
characters. -/
theorem ofDocument_of_isText (h : Document.IsText (d.take (clamp d.length offset))) :
    ofDocument d offset = .ok (ofOffset d.scrubbed offset) := by
  have htext : (lineBefore d offset).IsText := fun s hs => h s (mem_take_of_mem_slice hs)
  obtain ⟨cs, hcs⟩ := htext.exists_chars
  have hslice : slice d.scrubbed (rfind d.scrubbed '\n' 0 offset + 1) offset = cs := by
    have hmap := congrArg Document.scrubbed hcs
    rw [Document.scrubbed_ofChars] at hmap
    rw [← hmap]
    exact slice_map CodePoint.scrub d _ _
  rw [ofDocument_eq, hcs, Document.encode_ofChars, ofOffset, hslice]
  rfl

theorem ofDocument_ofChars (text : List Char) (offset : Int) :
    ofDocument (.ofChars text) offset = .ok (ofOffset text offset) := by
  rw [ofDocument_of_isText, Document.scrubbed_ofChars]
  exact fun s hs => Document.isText_ofChars text s (List.mem_of_mem_take hs)

end

section

variable {d : Document} {cs : List Char} {s : Surrogate} {rest : Document}

/-- The offsets up to the end of a text at the start of a document have positions. -/
theorem ofDocument_front (hd : d = Document.ofChars cs ++ rest) {n : Nat} (h : n ≤ cs.length) :
    ofDocument d n = .ok (ofOffset d.scrubbed n) := by
  have hlen := Document.length_ofChars cs
  refine ofDocument_of_isText fun s hs => Document.isText_ofChars cs s ?_
  rw [hd, clamp_natCast (by rw [List.length_append]; omega),
    List.take_append_of_le_length (by omega)] at hs
  exact List.mem_of_mem_take hs

/-- The line in front of the offset behind the first surrogate ends with it. -/
theorem lineBefore_surrogate (hd : d = Document.ofChars cs ++ .surrogate s :: rest) :
    lineBefore d (cs.length + 1 : Nat) = Document.ofChars (lastLine cs) ++ [.surrogate s] := by
  have hclamp : clamp d.length (cs.length + 1 : Nat) = cs.length + 1 := by
    apply clamp_natCast
    rw [hd, List.length_append, Document.length_ofChars, List.length_cons]
    omega
  have htake : d.take (cs.length + 1) = Document.ofChars cs ++ [.surrogate s] := by
    rw [hd, ← Document.length_ofChars cs, List.take_length_add_append]
    rfl
  have hread : d.scrubbed.take (cs.length + 1) = cs ++ [CodePoint.replacement] := by
    rw [Document.scrubbed, ← List.map_take, htake]
    exact (Document.scrubbed_append _ _).trans (by rw [Document.scrubbed_ofChars]; rfl)
  have hscrubbed := scrubbed_lineBefore d (cs.length + 1 : Nat)
  rw [hclamp, hread, lastLine_append (by decide)] at hscrubbed
  -- the line is a tail of the text up to the surrogate: what is read in place of it tells which
  obtain ⟨k, hk⟩ : ∃ k, lineBefore d (cs.length + 1 : Nat) =
      (Document.ofChars cs ++ [CodePoint.surrogate s]).drop k := by
    rw [lineBefore, slice, hclamp, htake]
    exact ⟨_, rfl⟩
  rw [hk] at hscrubbed ⊢
  have hle : k ≤ (Document.ofChars cs).length := by
    have hlen := congrArg List.length hscrubbed
    rw [Document.length_scrubbed, List.length_drop, List.length_append, List.length_append] at hlen
    simp only [List.length_singleton] at hlen
    omega
  have hfront : (Document.ofChars cs).drop k = Document.ofChars (cs.drop k) := List.map_drop.symm
  rw [List.drop_append_of_le_length hle, hfront] at hscrubbed ⊢
  rw [Document.scrubbed_append, Document.scrubbed_ofChars] at hscrubbed
  rw [List.append_cancel_right hscrubbed]

/-- The offset behind the first surrogate has no position. -/
theorem ofDocument_surrogate (hd : d = Document.ofChars cs ++ .surrogate s :: rest) :
    ofDocument d (cs.length + 1 : Nat) = .error ⟨s, (lastLine cs).length⟩ := by
  rw [ofDocument_eq, lineBefore_surrogate hd, Document.encode_surrogate]
  rfl

end

end Position

end TokenStream
