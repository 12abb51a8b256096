import Mathlib.Data.List.Chain
import TokenStream.Proofs.Lexeme

/-!
# Decompositions: texts cut into blanks and lexemes

A decomposition is a text cut into lexemes with blanks between them. It is munched
when its lexemes are those of its tokens and none of them is read on into the
next: nowhere do two runs of letters, two runs of digits, or an operator and an
equals sign stand side by side. Main statements: every text has a munched decomposition
(`Decomposition.exists_isMunched`), and only one (`Decomposition.IsMunched.eq_of_text_eq`).
-/

namespace TokenStream

/-- A token with the blanks behind it. -/
structure Part where
  token : Token
  gap : List Char

/-- The lexeme of a part. -/
def Part.raw (p : Part) : List Char := p.token.raw.toList

def Part.text (p : Part) : List Char := p.raw ++ p.gap

theorem Shape.raw_part {raw : List Char} (h : Shape raw) (gap : List Char) :
    (⟨.ofLexeme raw, gap⟩ : Part).raw = raw :=
  h.lexeme.toList_raw

/-- The blanks at the start of a text, and the parts behind them. -/
structure Decomposition where
  lead : List Char
  parts : List Part

def Decomposition.text (l : Decomposition) : List Char := l.lead ++ l.parts.flatMap Part.text

/-- Are two lexemes read as one, or as others, when nothing stands between them? -/
def Glues (r s : List Char) : Prop :=
  ((∀ c ∈ r, isLetter c = true) ∧ ∀ c ∈ s, isLetter c = true) ∨
    ((∀ c ∈ r, c.isDigit = true) ∧ ∀ c ∈ s, c.isDigit = true) ∨
    ((r = ['='] ∨ r = ['!']) ∧ s.head? = some '=')

structure Decomposition.IsMunched (l : Decomposition) : Prop where
  lead : ∀ c ∈ l.lead, isBlank c = true
  gaps : ∀ p ∈ l.parts, ∀ c ∈ p.gap, isBlank c = true
  lexemes : ∀ p ∈ l.parts, Lexeme p.raw p.token
  apart : l.parts.IsChain fun p q => p.gap = [] → ¬ Glues p.raw q.raw

/-- Whether a lexeme glues to the next one shows at the first character of that. -/
theorem glues_iff_continues {r s : List Char} (hs : Shape s) {c : Char} (hc : s.head? = some c) :
    Glues r s ↔ Continues r c := by
  obtain ⟨cs, rfl⟩ := List.head?_eq_some_iff.1 hc
  constructor
  · rintro (⟨hr, hs⟩ | ⟨hr, hs⟩ | ⟨hr, hs⟩)
    · exact .inl ⟨hr, hs c (.head _)⟩
    · exact .inr (.inl ⟨hr, hs c (.head _)⟩)
    · exact .inr (.inr ⟨hr, by simpa using hs⟩)
  · rintro (⟨hr, hl⟩ | ⟨hr, hd⟩ | ⟨hr, rfl⟩)
    · exact .inl ⟨hr, hs.letters_of_mem (.head _) hl⟩
    · exact .inr (.inl ⟨hr, hs.digits_of_mem (.head _) hd⟩)
    · exact .inr (.inr ⟨hr, rfl⟩)

/-- A blank goes on with no lexeme. -/
theorem not_continues_blank {r : List Char} {c : Char} (hb : isBlank c = true) :
    ¬ Continues r c := by
  rintro (⟨-, hl⟩ | ⟨-, hd⟩ | ⟨-, rfl⟩)
  · simp [not_isLetter_of_isBlank hb] at hl
  · simp [not_isDigit_of_isBlank hb] at hd
  · exact absurd hb (by decide)

namespace Decomposition

theorem text_cons (lead : List Char) (p : Part) (ps : List Part) :
    text ⟨lead, p :: ps⟩ = lead ++ (p.raw ++ text ⟨p.gap, ps⟩) := by
  simp [text, Part.text]

section Drop

variable {whole lead : List Char} {start : Nat} {p : Part} {ps : List Part}

/-- Behind the blanks at its start, a text goes on with the first lexeme. -/
theorem drop_lead (h : whole.drop start = text ⟨lead, p :: ps⟩) :
    whole.drop (start + lead.length) = p.raw ++ text ⟨p.gap, ps⟩ := by
  rw [← List.drop_drop, h, text_cons, List.drop_left]

theorem drop_raw (h : whole.drop start = text ⟨lead, p :: ps⟩) :
    whole.drop (start + lead.length + p.raw.length) = text ⟨p.gap, ps⟩ := by
  rw [← List.drop_drop, drop_lead h, List.drop_left]

end Drop

namespace IsMunched

variable {lead : List Char} {p : Part} {ps : List Part}

/-- What stands behind the first lexeme is munched as well. -/
theorem tail (h : IsMunched ⟨lead, p :: ps⟩) : IsMunched ⟨p.gap, ps⟩ where
  lead := h.gaps p (.head _)
  gaps q hq := h.gaps q (.tail _ hq)
  lexemes q hq := h.lexemes q (.tail _ hq)
  apart := (List.isChain_cons.1 h.apart).2

/-- So is what stands in front of a lexeme. -/
theorem front {qs : List Part} (h : IsMunched ⟨lead, ps ++ qs⟩) : IsMunched ⟨lead, ps⟩ where
  lead := h.lead
  gaps q hq := h.gaps q (List.mem_append_left _ hq)
  lexemes q hq := h.lexemes q (List.mem_append_left _ hq)
  apart := h.apart.left_of_append

theorem head_lexeme (h : IsMunched ⟨lead, p :: ps⟩) : Lexeme p.raw p.token :=
  h.lexemes p (.head _)

/-- Behind the blanks at its start, a text has none. -/
theorem not_isBlank_of_head (h : IsMunched ⟨lead, ps⟩) :
    ∀ c ∈ (ps.flatMap Part.text).head?, isBlank c = false := by
  intro c hc
  cases ps with
  | nil => simp at hc
  | cons p ps =>
    have hs := h.head_lexeme.shape
    obtain ⟨d, ds, hr⟩ := List.exists_cons_of_ne_nil hs.ne_nil
    obtain rfl : d = c := by simpa [Part.text, hr] using hc
    exact hs.not_isBlank d (hr ▸ .head _)

theorem takeWhile_text (h : IsMunched ⟨lead, ps⟩) :
    (text ⟨lead, ps⟩).takeWhile isBlank = lead :=
  takeWhile_append_stop h.lead h.not_isBlank_of_head

theorem dropWhile_text (h : IsMunched ⟨lead, ps⟩) :
    (text ⟨lead, ps⟩).dropWhile isBlank = ps.flatMap Part.text :=
  dropWhile_append_stop h.lead h.not_isBlank_of_head

theorem exists_head?_raw (h : IsMunched ⟨lead, p :: ps⟩) : ∃ c, p.raw.head? = some c := by
  obtain ⟨c, cs, hr⟩ := List.exists_cons_of_ne_nil h.head_lexeme.shape.ne_nil
  exact ⟨c, by rw [hr, List.head?_cons]⟩

/-- Without blanks at its start, a text starts as its first lexeme does. -/
theorem head?_text (h : IsMunched ⟨[], p :: ps⟩) :
    (text ⟨[], p :: ps⟩).head? = p.raw.head? := by
  obtain ⟨c, hc⟩ := h.exists_head?_raw
  rw [text_cons, List.nil_append, List.head?_append, hc, Option.some_or]

/-- Nothing behind the first lexeme goes on with it. -/
theorem not_continues (h : IsMunched ⟨lead, p :: ps⟩) :
    ∀ c ∈ (text ⟨p.gap, ps⟩).head?, ¬ Continues p.raw c := by
  intro c hc
  have ht := h.tail
  cases hg : p.gap with
  | cons b bs =>
    obtain rfl : b = c := by simpa [text, hg] using hc
    exact not_continues_blank (h.gaps p (.head _) b (hg ▸ .head _))
  | nil =>
    rw [hg] at ht hc
    cases ps with
    | nil => simp [text] at hc
    | cons q qs =>
      rw [ht.head?_text] at hc
      rw [← glues_iff_continues ht.head_lexeme.shape hc]
      exact (List.isChain_cons.1 h.apart).1 q rfl hg

/-- A lexeme that nothing behind it goes on with can be put in front. -/
theorem cons {raw gap : List Char} (hm : IsMunched ⟨gap, ps⟩) (hl : ∀ c ∈ lead, isBlank c = true)
    (hs : Shape raw) (hc : ∀ c ∈ (text ⟨gap, ps⟩).head?, ¬ Continues raw c) :
    IsMunched ⟨lead, ⟨.ofLexeme raw, gap⟩ :: ps⟩ := by
  refine ⟨hl, List.forall_mem_cons.2 ⟨hm.lead, hm.gaps⟩, List.forall_mem_cons.2 ⟨?_, hm.lexemes⟩,
    List.isChain_cons.2 ⟨fun q hq hg => ?_, hm.apart⟩⟩
  · rw [hs.raw_part]
    exact hs.lexeme
  · obtain ⟨qs, rfl⟩ := List.head?_eq_some_iff.1 hq
    obtain rfl : gap = [] := hg
    obtain ⟨c, hhead⟩ := hm.exists_head?_raw
    rw [hs.raw_part, glues_iff_continues hm.head_lexeme.shape hhead]
    exact hc c (by rw [hm.head?_text, hhead]; rfl)

/-- The first lexeme is the longest one at its place. -/
theorem munch_text (h : IsMunched ⟨lead, p :: ps⟩) :
    munch ((p :: ps).flatMap Part.text) = p.raw := by
  have := munch_append h.head_lexeme.shape h.not_continues
  simpa [text, Part.text] using this

theorem lead_eq {lead' : List Char} {qs : List Part} (hl : IsMunched ⟨lead, ps⟩)
    (hm : IsMunched ⟨lead', qs⟩) (h : text ⟨lead, ps⟩ = text ⟨lead', qs⟩) :
    lead = lead' ∧ ps.flatMap Part.text = qs.flatMap Part.text := by
  rw [← hl.takeWhile_text, ← hl.dropWhile_text, h, hm.takeWhile_text, hm.dropWhile_text]
  exact ⟨rfl, rfl⟩

theorem text_parts_ne_nil (h : IsMunched ⟨lead, p :: ps⟩) : (p :: ps).flatMap Part.text ≠ [] := by
  simp [Part.text, h.head_lexeme.shape.ne_nil]

/-- A text has one munched decomposition only: by induction on the parts, where the
text behind the first lexeme is a decomposition of its own. -/
theorem eq_of_text_eq {l m : Decomposition} (hl : l.IsMunched) (hm : m.IsMunched)
    (h : l.text = m.text) : l = m := by
  obtain ⟨lead, ps⟩ := l
  induction ps generalizing lead m with
  | nil =>
    obtain ⟨lead', qs⟩ := m
    obtain ⟨rfl, hb⟩ := lead_eq hl hm h
    cases qs with
    | nil => rfl
    | cons q qs => exact absurd hb.symm hm.text_parts_ne_nil
  | cons p ps ih =>
    obtain ⟨lead', qs⟩ := m
    obtain ⟨rfl, hb⟩ := lead_eq hl hm h
    cases qs with
    | nil => exact absurd hb hl.text_parts_ne_nil
    | cons q qs =>
      have hr : p.raw = q.raw := by rw [← hl.munch_text, hb, hm.munch_text]
      have ht : p.token = q.token := by
        rw [hl.head_lexeme.eq_ofLexeme, hr, ← hm.head_lexeme.eq_ofLexeme]
      rw [text_cons, text_cons, hr, List.append_cancel_left_eq, List.append_cancel_left_eq] at h
      obtain ⟨hg, rfl⟩ := Decomposition.mk.inj (ih hm.tail p.gap hl.tail h)
      obtain rfl : p = q := by
        cases p
        cases q
        simp_all
      rfl

end IsMunched

/-- Every text has a munched decomposition: the blanks at its start, the longest lexeme
behind them, and a decomposition of what is left. -/
theorem exists_isMunched (text : List Char) : ∃ l : Decomposition, l.IsMunched ∧ l.text = text := by
  have hsplit := List.takeWhile_append_dropWhile (p := isBlank) (l := text)
  have hlead : ∀ c ∈ text.takeWhile isBlank, isBlank c = true := fun _ => of_mem_takeWhile
  by_cases hne : text.dropWhile isBlank = []
  · refine ⟨⟨text.takeWhile isBlank, []⟩, ⟨hlead, by simp, by simp, .nil⟩, ?_⟩
    simpa [Decomposition.text, hne] using hsplit
  · have hs := shape_munch hne fun _ => not_of_mem_head?_dropWhile
    obtain ⟨tail, htail⟩ := munch_isPrefix (text.dropWhile isBlank)
    have hlt : tail.length < text.length := by
      have := congrArg List.length hsplit
      have := congrArg List.length htail
      have := List.length_pos_iff.2 hs.ne_nil
      simp only [List.length_append] at *
      omega
    obtain ⟨⟨gap, ps⟩, hm, rfl⟩ := exists_isMunched tail
    have hd := hm.cons hlead hs fun c hc => not_continues_munch htail.symm hc
    refine ⟨_, hd, ?_⟩
    rw [text_cons, hs.raw_part, htail, hsplit]
termination_by text.length

end Decomposition

end TokenStream
