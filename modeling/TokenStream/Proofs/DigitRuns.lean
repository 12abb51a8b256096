import Mathlib.Data.List.DropRight
import TokenStream.Proofs.Decomposition

/-!
# The runs of digits of a text

`IsRun` says that a piece of a text is a maximal run of characters with a
property. The maximal runs of digits of a text are the digit lexemes of its
munched decomposition: `Decomposition.IsMunched.exists_part_of_isRun` and
`Decomposition.IsMunched.isRun_of_part`. `NumeralsFit` says that none of them is too
long to be converted.
-/

namespace TokenStream

/-- A maximal run of characters with a property, and the text around it. -/
structure IsRun (q : Char → Bool) (text before run behind : List Char) : Prop where
  split : text = before ++ (run ++ behind)
  ne_nil : run ≠ []
  all : ∀ c ∈ run, q c = true
  before_stop : ∀ c ∈ before.getLast?, q c = false
  behind_stop : ∀ c ∈ behind.head?, q c = false

/-- No maximal run of digits is too long to be converted. -/
def NumeralsFit (text : List Char) : Prop :=
  ∀ before run behind, IsRun Char.isDigit text before run behind → run.length ≤ Numeral.maxDigits

/-- Every piece of a text whose characters have a property lies in a maximal run. -/
theorem exists_isRun_of_piece {q : Char → Bool} {text piece : List Char} (hi : piece <:+: text)
    (hne : piece ≠ []) (hq : ∀ c ∈ piece, q c = true) :
    ∃ before run behind, IsRun q text before run behind ∧ piece.length ≤ run.length := by
  obtain ⟨a, b, rfl⟩ := hi
  refine ⟨a.rdropWhile q, a.rtakeWhile q ++ piece ++ b.takeWhile q, b.dropWhile q,
    ⟨?_, by simp [hne], ?_, ?_, fun _ => not_of_mem_head?_dropWhile⟩, ?_⟩
  · have ha : a.rdropWhile q ++ a.rtakeWhile q = a := List.rdropWhile_append_rtakeWhile
    have hb : b.takeWhile q ++ b.dropWhile q = b := List.takeWhile_append_dropWhile
    rw [List.append_assoc _ _ (b.dropWhile q), hb, ← List.append_assoc, ← List.append_assoc, ha]
  · intro c hc
    simp only [List.mem_append] at hc
    rcases hc with (hc | hc) | hc
    · exact List.mem_rtakeWhile_imp hc
    · exact hq c hc
    · exact of_mem_takeWhile hc
  · intro c hc
    obtain ⟨ys, hys⟩ := List.getLast?_eq_some_iff.1 hc
    have hne : a.rdropWhile q ≠ [] := by simp [hys]
    have := List.rdropWhile_last_not q a hne
    simpa [hys] using this
  · simp only [List.length_append]
    omega

theorem NumeralsFit.length_le {text : List Char} (h : NumeralsFit text) {piece : List Char}
    (hi : piece <:+: text) (hd : ∀ c ∈ piece, c.isDigit = true) :
    piece.length ≤ Numeral.maxDigits := by
  by_cases hne : piece = []
  · simp [hne]
  · obtain ⟨before, run, behind, hr, hle⟩ := exists_isRun_of_piece hi hne hd
    exact Nat.le_trans hle (h before run behind hr)

/-- The numerals of a text fit when the text itself is not too long. -/
theorem NumeralsFit.of_length_le {text : List Char} (h : text.length ≤ Numeral.maxDigits) :
    NumeralsFit text := by
  intro before run behind hr
  have hlen := congrArg List.length hr.split
  rw [List.length_append, List.length_append] at hlen
  omega

/-- Two ways to cut a list in two: the second cut is behind the first one, or
strictly before it. -/
theorem append_eq_append_cases {α : Type} {xs ys zs ws : List α} (h : xs ++ ys = zs ++ ws) :
    (∃ as, zs = xs ++ as ∧ ys = as ++ ws) ∨ ∃ b bs, xs = zs ++ b :: bs ∧ ws = b :: bs ++ ys := by
  rcases List.append_eq_append_iff.1 h with ⟨as, h1, h2⟩ | ⟨bs, h1, h2⟩
  · exact .inl ⟨as, h1, h2⟩
  · cases bs with
    | nil => exact .inl ⟨[], by simpa using h1.symm, by simpa using h2.symm⟩
    | cons b bs => exact .inr ⟨b, bs, h1, h2⟩

theorem IsRun.exists_head {q : Char → Bool} {text before run behind : List Char}
    (h : IsRun q text before run behind) : ∃ c cs, run = c :: cs ∧ q c = true := by
  obtain ⟨c, cs, hr⟩ := List.exists_cons_of_ne_nil h.ne_nil
  exact ⟨c, cs, hr, h.all c (hr ▸ .head _)⟩

namespace Decomposition.IsMunched

/-- Behind a run of digits that is the first lexeme stands no digit. -/
theorem not_isDigit_behind {lead : List Char} {p : Part} {ps : List Part}
    (h : IsMunched ⟨lead, p :: ps⟩) (hd : ∀ c ∈ p.raw, c.isDigit = true) :
    ∀ c ∈ (text ⟨p.gap, ps⟩).head?, c.isDigit = false := fun c hc => by
  simpa [continues_digits h.head_lexeme.shape.ne_nil hd] using h.not_continues c hc

/-- Every maximal run of digits is the lexeme of a part: by induction on the
parts, where a run that does not start with the first lexeme starts behind it. -/
theorem exists_part_of_isRun {l : Decomposition} (h : l.IsMunched) {before run behind : List Char}
    (hr : IsRun Char.isDigit l.text before run behind) :
    ∃ ps p qs, l.parts = ps ++ p :: qs ∧ p.raw = run ∧ before = l.lead ++ ps.flatMap Part.text := by
  obtain ⟨lead, ps⟩ := l
  obtain ⟨c, cs, hrun, hc⟩ := hr.exists_head
  induction ps generalizing lead before with
  | nil =>
    have hb : c ∈ lead := by
      have := hr.split
      simp only [text, List.flatMap_nil, List.append_nil] at this
      simp [this, hrun]
    simp [not_isDigit_of_isBlank (h.lead c hb)] at hc
  | cons p ps ih =>
    have hs := h.head_lexeme.shape
    have hsplit := hr.split
    rw [text_cons] at hsplit
    rcases append_eq_append_cases hsplit with ⟨as, rfl, hrest⟩ | ⟨b, bs, hlead, hrest⟩
    · rcases append_eq_append_cases hrest with ⟨as', rfl, htail⟩ | ⟨b, bs, hraw, hrest⟩
      · -- The run lies behind the first lexeme.
        have hr' : IsRun Char.isDigit (text ⟨p.gap, ps⟩) as' run behind :=
          ⟨htail, hr.ne_nil, hr.all, fun d hd => hr.before_stop d (by
            rw [Option.mem_def] at hd
            simp [List.getLast?_append, hd]), hr.behind_stop⟩
        obtain ⟨qs, q, qs', hps, hq, rfl⟩ := ih p.gap h.tail hr'
        exact ⟨p :: qs, q, qs', by simp [show ps = qs ++ q :: qs' from hps], hq, by
          simp [Part.text]⟩
      · obtain rfl : b = c := by simpa [hrun] using congrArg List.head? hrest.symm
        have hall := hs.digits_of_mem (show b ∈ p.raw by simp [hraw]) hc
        cases as using List.reverseRecOn with
        | nil =>
          -- The run is the first lexeme.
          refine ⟨[], p, ps, rfl, ?_, by simp⟩
          have hp := takeWhile_append_stop hall (h.not_isDigit_behind hall)
          rw [← hp, ← takeWhile_append_stop hr.all hr.behind_stop, hrest, List.nil_append]
        | append_singleton as a =>
          -- The first lexeme would be a run that starts before the maximal one.
          have hd := hall a (by simp [hraw])
          have := hr.before_stop a (by simp)
          simp [hd] at this
    · obtain rfl : b = c := by simpa [hrun] using congrArg List.head? hrest.symm
      simp [not_isDigit_of_isBlank (h.lead b (by simp [hlead]))] at hc

/-- A lexeme of digits is a maximal run of them: by induction on the parts
before it, of which only the last one can stand side by side with it. -/
theorem isRun_of_part {lead : List Char} {ps : List Part} {p : Part} {qs : List Part}
    (h : IsMunched ⟨lead, ps ++ p :: qs⟩) (hd : ∀ c ∈ p.raw, c.isDigit = true) :
    IsRun Char.isDigit (text ⟨lead, ps ++ p :: qs⟩) (lead ++ ps.flatMap Part.text) p.raw
      (text ⟨p.gap, qs⟩) := by
  induction ps generalizing lead with
  | nil =>
    rw [List.nil_append] at h
    refine ⟨by simp [text_cons], h.head_lexeme.shape.ne_nil, hd, fun c hc => ?_,
      h.not_isDigit_behind hd⟩
    exact not_isDigit_of_isBlank (h.lead c (List.mem_of_getLast? (by simpa using hc)))
  | cons q ps ih =>
    rw [List.cons_append] at h ⊢
    have hr := ih h.tail
    refine ⟨?_, hr.ne_nil, hd, fun c hc => ?_, hr.behind_stop⟩
    · rw [text_cons, hr.split]
      simp [Part.text]
    · have hsplit : lead ++ (q :: ps).flatMap Part.text =
          lead ++ (q.raw ++ (q.gap ++ ps.flatMap Part.text)) := by simp [Part.text]
      rw [hsplit, Option.mem_def, List.getLast?_append, List.getLast?_append] at hc
      cases hm : (q.gap ++ ps.flatMap Part.text).getLast? with
      | some d =>
        obtain rfl : d = c := by simpa [hm] using hc
        exact hr.before_stop d hm
      | none =>
        obtain ⟨hg, hps⟩ := List.append_eq_nil_iff.1 (List.getLast?_eq_none_iff.1 hm)
        have hc : c ∈ q.raw := by
          rw [hm, Option.none_or, List.getLast?_eq_some_getLast h.head_lexeme.shape.ne_nil,
            Option.some_or, Option.some.injEq] at hc
          exact hc ▸ List.getLast_mem _
        have hnext : (ps ++ p :: qs).head? = some p := by
          cases ps with
          | nil => rfl
          | cons q' ps =>
            have := h.tail.head_lexeme.shape.ne_nil
            simp [Part.text, this] at hps
        have hglue := (List.isChain_cons.1 h.apart).1 p hnext hg
        refine Bool.eq_false_iff.2 fun hcd => hglue (.inr (.inl ⟨?_, hd⟩))
        exact h.head_lexeme.shape.digits_of_mem hc hcd

end Decomposition.IsMunched

end TokenStream
