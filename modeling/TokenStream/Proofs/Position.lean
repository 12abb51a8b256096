import Mathlib.Data.List.Basic
import TokenStream.Text.Position

/-!
# Positions follow the order of the text

A position is before another one when its line is, or its character in the same line.
Main statements: the lookups find the place behind the text in front of an offset
(`Position.ofOffset_eq`), positions move on with the text (`Position.ofOffset_lt`,
`Position.ofOffset_le`), and the line of a position is the text's line there, which
starts with as many UTF-16 units as the position counts (`Position.getElem?_lines`,
`Position.slice_line`).
-/

namespace TokenStream

namespace Utf16

theorem length_pos {s : List Char} (h : s ≠ []) : 0 < length s := by
  obtain ⟨c, cs, rfl⟩ := List.exists_cons_of_ne_nil h
  have := length_encodeChar_pos c
  simp only [length, encode, List.flatMap_cons, List.length_append]
  omega

end Utf16

namespace Position

/-- The order of the lines, and of the characters in a line. -/
instance : LT Position :=
  ⟨fun p q => p.line < q.line ∨ p.line = q.line ∧ p.character < q.character⟩

instance : LE Position := ⟨fun p q => p < q ∨ p = q⟩

theorem lt_iff {p q : Position} :
    p < q ↔ p.line < q.line ∨ p.line = q.line ∧ p.character < q.character := Iff.rfl

theorem lt_irrefl (p : Position) : ¬p < p := by
  rw [lt_iff]
  omega

/-! ## The last line of a text -/

theorem lastLine_append {s t : List Char} (h : '\n' ∉ t) : lastLine (s ++ t) = lastLine s ++ t := by
  have ht : ∀ c ∈ t.reverse, (c != '\n') = true := by
    intro c hc
    rw [bne_iff_ne]
    rintro rfl
    exact h (List.mem_reverse.1 hc)
  rw [lastLine, lastLine, List.reverse_append, List.takeWhile_append_of_pos ht, List.reverse_append,
    List.reverse_reverse]

theorem lastLine_of_notMem {s : List Char} (h : '\n' ∉ s) : lastLine s = s :=
  lastLine_append (s := []) h

/-- What is in front of a line feed is not in the last line. -/
theorem lastLine_append_newline (s t : List Char) : lastLine (s ++ '\n' :: t) = lastLine t := by
  have hreverse : (s ++ '\n' :: t).reverse = t.reverse ++ '\n' :: s.reverse := by simp
  rw [lastLine, lastLine, hreverse, List.takeWhile_append]
  split
  · rename_i h
    rw [(List.takeWhile_prefix _).eq_of_length h]
    simp
  · rfl

/-- A text has no line feed, or its last line stands behind one. -/
theorem notMem_or_exists_last (s : List Char) :
    '\n' ∉ s ∨ ∃ a b, s = a ++ '\n' :: b ∧ '\n' ∉ b := by
  by_cases h : '\n' ∈ s
  · obtain ⟨b, a, hs, hb⟩ := List.eq_append_cons_of_mem (List.mem_reverse.2 h)
    refine .inr ⟨a.reverse, b.reverse, ?_, by simpa using hb⟩
    simpa using congrArg List.reverse hs
  · exact .inl h

/-! ## The last line is what the lookups find -/

theorem slice_zero (text : List Char) (stop : Int) :
    slice text 0 stop = text.take (clamp text.length stop) := by
  rw [slice, show (0 : Int) = (0 : Nat) from rfl, clamp_natCast (Nat.zero_le _), List.drop_zero]

theorem rfind_of_notMem {text : List Char} {c : Char} {start stop : Int}
    (h : c ∉ slice text start stop) : rfind text c start stop = -1 := by
  have hnone : (slice text start stop).reverse.idxOf? c = none := by
    rw [List.idxOf?_eq_none_iff]
    simpa using h
  rw [rfind, hnone]

theorem rfind_of_last {text a b : List Char} {c : Char} {start stop : Int}
    (h : slice text start stop = a ++ c :: b) (hb : c ∉ b) :
    rfind text c start stop = clamp text.length start + a.length := by
  have hreverse : (slice text start stop).reverse = b.reverse ++ c :: a.reverse := by simp [h]
  have hsome : (slice text start stop).reverse.idxOf? c = some b.length := by
    rw [hreverse, List.idxOf?_eq_some_iff]
    refine ⟨by simp, by simp, fun n hn heq => hb (List.mem_reverse.1 ?_)⟩
    rw [List.getElem_append_left (by simpa using hn)] at heq
    exact heq ▸ List.getElem_mem _
  have hlen := congrArg List.length h
  rw [List.length_append, List.length_cons] at hlen
  simp only [rfind, hsome]
  omega

/-- Behind the last line feed in front of an offset stands the last line of the text in front. -/
theorem slice_rfind (text : List Char) (offset : Int) :
    slice text (rfind text '\n' 0 offset + 1) offset =
      lastLine (text.take (clamp text.length offset)) := by
  have hfront := slice_zero text offset
  have hzero : clamp text.length 0 = 0 := clamp_natCast (Nat.zero_le _)
  rcases notMem_or_exists_last (text.take (clamp text.length offset)) with hnone | ⟨a, b, hs, hb⟩
  -- without a line feed, the offset behind that at one below zero is the start of the text
  · rw [rfind_of_notMem (hfront ▸ hnone), lastLine_of_notMem hnone]
    exact hfront
  · have hle : a.length + 1 ≤ text.length := by
      have := congrArg List.length hs
      simp only [List.length_take, List.length_append, List.length_cons] at this
      omega
    have hstart : rfind text '\n' 0 offset + 1 = (a.length + 1 : Nat) := by
      rw [rfind_of_last (hfront.trans hs) hb, hzero]
      omega
    rw [hstart, slice, clamp_natCast hle, hs, lastLine_append_newline, lastLine_of_notMem hb]
    simp

/-- The lookups, each of which clamps its offsets, find the position behind the text in front of
the offset. -/
theorem ofOffset_eq (text : List Char) (offset : Int) :
    ofOffset text offset = afterText (text.take (clamp text.length offset)) := by
  rw [ofOffset, count, slice_zero, slice_rfind, afterText]

/-! ## Lines -/

/-- The lines of a text. -/
def lines (s : List Char) : List (List Char) := s.splitOn '\n'

theorem getElem?_lines_zero (t : List Char) : (lines t)[0]? = some (t.takeWhile (· != '\n')) := by
  cases t with
  | nil => rfl
  | cons c t =>
    rw [lines, List.splitOn_cons_eq_if_modifyHead, List.takeWhile_cons]
    by_cases hc : c = '\n'
    · simp [hc]
    · have ih := getElem?_lines_zero t
      rw [lines] at ih
      simp [hc, List.getElem?_modifyHead, ih]

/-- The line in which a text goes on: by induction on the text before. -/
theorem getElem?_lines (s t : List Char) :
    (lines (s ++ t))[s.count '\n']? = some (lastLine s ++ t.takeWhile (· != '\n')) := by
  induction s with
  | nil => exact getElem?_lines_zero t
  | cons c s ih =>
    rw [lines] at ih
    rw [lines, List.cons_append, List.splitOn_cons_eq_if_modifyHead]
    by_cases hc : c = '\n'
    · obtain rfl := hc
      rw [if_pos (beq_self_eq_true _), List.count_cons_self, List.getElem?_cons_succ, ih,
        show lastLine ('\n' :: s) = lastLine s from lastLine_append_newline [] s]
    · rw [if_neg (by simpa using hc), List.count_cons_of_ne hc, List.getElem?_modifyHead, ih]
      by_cases hs : '\n' ∈ s
      · obtain ⟨a, b, rfl⟩ := List.append_of_mem hs
        have hcount : (a ++ '\n' :: b).count '\n' ≠ 0 := by simp
        rw [if_neg hcount, ← List.cons_append, lastLine_append_newline, lastLine_append_newline]
      · have hcons : '\n' ∉ c :: s := by simp [hs, Ne.symm hc]
        rw [if_pos (List.count_eq_zero.2 hs), lastLine_of_notMem hs, lastLine_of_notMem hcons]
        rfl

/-- A piece of a line stands in it between the positions of its first character and of the
one behind it. -/
theorem slice_line (s t : List Char) {piece : List Char} (h : '\n' ∉ piece) :
    (afterText s).line = (afterText (s ++ piece)).line ∧
      ∃ line, (lines (s ++ piece ++ t))[(afterText s).line]? = some line ∧
        ((Utf16.encode line).take (afterText (s ++ piece)).character).drop
          (afterText s).character = Utf16.encode piece := by
  have hpiece : ∀ c ∈ piece, (c != '\n') = true := by
    intro c hc
    rw [bne_iff_ne]
    rintro rfl
    exact h hc
  refine ⟨?_, lastLine s ++ piece ++ t.takeWhile (· != '\n'), ?_, ?_⟩
  · show s.count '\n' = (s ++ piece).count '\n'
    rw [List.count_append, List.count_eq_zero.2 h, Nat.add_zero]
  · rw [List.append_assoc, List.append_assoc, ← List.takeWhile_append_of_pos hpiece]
    exact getElem?_lines s (piece ++ t)
  · show ((Utf16.encode _).take (Utf16.encode (lastLine (s ++ piece))).length).drop
      (Utf16.encode (lastLine s)).length = _
    rw [lastLine_append h, Utf16.encode_append (lastLine s ++ piece), List.take_left,
      Utf16.encode_append, List.drop_left]

/-! ## The order -/

/-- Every text behind another one moves its position on. -/
theorem afterText_lt_append (s : List Char) {t : List Char} (h : t ≠ []) :
    afterText s < afterText (s ++ t) := by
  rw [lt_iff]
  show s.count '\n' < (s ++ t).count '\n' ∨ s.count '\n' = (s ++ t).count '\n' ∧
    Utf16.length (lastLine s) < Utf16.length (lastLine (s ++ t))
  rw [List.count_append]
  by_cases ht : '\n' ∈ t
  · have := List.count_pos_iff.2 ht
    exact .inl (by omega)
  · have := Utf16.length_pos h
    rw [List.count_eq_zero.2 ht, lastLine_append ht, Utf16.length_append]
    exact .inr ⟨rfl, by omega⟩

theorem ofOffset_natCast {text : List Char} {n : Nat} (h : n ≤ text.length) :
    ofOffset text n = afterText (text.take n) := by
  rw [ofOffset_eq, clamp_natCast h]

/-- Positions of offsets into a text are in the order of the offsets. -/
theorem ofOffset_lt {text : List Char} {m n : Nat} (hmn : m < n) (hn : n ≤ text.length) :
    ofOffset text m < ofOffset text n := by
  have htake : text.take n = text.take m ++ (text.drop m).take (n - m) := by
    rw [← List.take_add, Nat.add_sub_cancel' (Nat.le_of_lt hmn)]
  have hne : (text.drop m).take (n - m) ≠ [] := by
    rw [← List.length_pos_iff, List.length_take, List.length_drop]
    omega
  rw [ofOffset_natCast (by omega), ofOffset_natCast hn, htake]
  exact afterText_lt_append _ hne

theorem ofOffset_le {text : List Char} {m n : Nat} (hmn : m ≤ n) (hn : n ≤ text.length) :
    ofOffset text m ≤ ofOffset text n := by
  rcases Nat.lt_or_eq_of_le hmn with hlt | rfl
  · exact .inl (ofOffset_lt hlt hn)
  · exact .inr rfl

end Position

end TokenStream
