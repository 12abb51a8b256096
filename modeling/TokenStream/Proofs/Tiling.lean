import TokenStream.Proofs.MaximalMunch

/-!
# Extents tile the text

The extents of a text lie one behind the other, each on the lexeme of its token,
and between them are exactly the blanks of the text. Main statement:
`extents_tile`.
-/

namespace TokenStream

/-- The piece of a text that an extent marks. -/
def Extent.slice (e : Extent) (text : List Char) : List Char :=
  (text.take e.stop.toNat).drop e.start.toNat

/-- Is the offset within the extent? -/
def Extent.Covers (e : Extent) (i : Nat) : Prop := e.start ≤ i ∧ i < e.stop

/-- An extent on the piece of a text that is the raw text of its token. -/
structure Extent.IsPlace (e : Extent) (text : List Char) : Prop where
  start_nonneg : 0 ≤ e.start
  start_le_stop : e.start ≤ e.stop
  stop_le : e.stop ≤ text.length
  slice_eq : e.slice text = e.token.raw.toList

/-- The place of a token that is not the one at the end, and is not empty. -/
structure Extent.Marks (e : Extent) (text : List Char) : Prop extends e.IsPlace text where
  start_lt_stop : e.start < e.stop
  kind_ne_eof : e.token.kind ≠ .eof

/-- Extents that lie one behind the other, with exactly the blanks of a text
outside them. -/
structure Tiles (text : List Char) (es : List Extent) : Prop where
  marks : ∀ e ∈ es, e.Marks text
  ordered : es.Pairwise fun e f => e.stop ≤ f.start
  blanks : ∀ i c, text[i]? = some c → (isBlank c = true ↔ ∀ e ∈ es, ¬ e.Covers i)

/-- A token that stands at an offset of the text has its place there. -/
theorem isPlace_of_drop {text tail : List Char} {start : Nat} {t : Token}
    (hs : start ≤ text.length) (h : text.drop start = t.raw.toList ++ tail) :
    (⟨start, start + t.raw.toList.length, t⟩ : Extent).IsPlace text where
  start_nonneg := Int.natCast_nonneg start
  start_le_stop := by
    show (start : Int) ≤ start + t.raw.toList.length
    omega
  stop_le := by
    have hlen := congrArg List.length h
    rw [List.length_drop, List.length_append] at hlen
    show (start + t.raw.toList.length : Int) ≤ text.length
    omega
  slice_eq := by
    show (text.take (start + t.raw.toList.length)).drop start = t.raw.toList
    rw [List.drop_take, h, Nat.add_sub_cancel_left, List.take_left]

/-- The characters at the offsets of a piece of the text are those of the piece. -/
theorem mem_of_drop {text piece tail : List Char} {start i : Nat} {c : Char}
    (h : text.drop start = piece ++ tail) (hi : start ≤ i) (hlt : i < start + piece.length)
    (hc : text[i]? = some c) : c ∈ piece := by
  have hd : (text.drop start)[i - start]? = some c := by
    rw [List.getElem?_drop, Nat.add_sub_cancel' hi, hc]
  rw [h, List.getElem?_append_left (by omega)] at hd
  exact List.mem_of_getElem? hd

namespace Decomposition

variable {text lead : List Char} {start : Nat} {p : Part} {ps : List Part}

/-- No extent starts before the blanks at the start of the text end. -/
theorem le_start_of_mem_extents {e : Extent} (he : e ∈ extents start ⟨lead, ps⟩) :
    (start + lead.length : Nat) ≤ e.start := by
  induction ps generalizing start lead with
  | nil => simp [extents, partExtents] at he
  | cons p ps ih =>
    rw [extents_cons] at he
    rcases List.mem_cons.1 he with rfl | he
    · simp
    · have := ih he
      omega

/-- The extent of the first part is the place of its lexeme. -/
theorem marks_head (hd : IsMunched ⟨lead, p :: ps⟩)
    (ht : text.drop start = Decomposition.text ⟨lead, p :: ps⟩) :
    (⟨start + lead.length, start + lead.length + p.raw.length, p.token⟩ : Extent).Marks text := by
  have hdrop := drop_lead ht
  have hpos := List.length_pos_iff.2 hd.head_lexeme.shape.ne_nil
  have hlen := congrArg List.length hdrop
  rw [List.length_drop, List.length_append] at hlen
  refine ⟨isPlace_of_drop (by omega) hdrop, ?_, hd.head_lexeme.kind_ne_eof⟩
  show (start + lead.length : Int) < start + lead.length + p.raw.length
  omega

theorem marks_of_mem_extents (hd : IsMunched ⟨lead, ps⟩)
    (ht : text.drop start = Decomposition.text ⟨lead, ps⟩) {e : Extent}
    (he : e ∈ extents start ⟨lead, ps⟩) : e.Marks text := by
  induction ps generalizing start lead with
  | nil => simp [extents, partExtents] at he
  | cons p ps ih =>
    rw [extents_cons] at he
    rcases List.mem_cons.1 he with rfl | he
    · exact marks_head hd ht
    · exact ih hd.tail (drop_raw ht) he

theorem pairwise_extents (start : Nat) (d : Decomposition) :
    (d.extents start).Pairwise fun e f => e.stop ≤ f.start := by
  obtain ⟨lead, ps⟩ := d
  induction ps generalizing start lead with
  | nil => exact .nil
  | cons p ps ih =>
    rw [extents_cons]
    refine List.pairwise_cons.2 ⟨fun f hf => ?_, ih _ _⟩
    have := le_start_of_mem_extents hf
    show (start + lead.length + p.raw.length : Int) ≤ f.start
    omega

/-- From its start on, the blanks of a text are the characters outside the
extents: by induction on the parts, where an offset lies in the blanks at the
start, on the first lexeme, or behind it. -/
theorem isBlank_iff_not_covers (hd : IsMunched ⟨lead, ps⟩)
    (ht : text.drop start = Decomposition.text ⟨lead, ps⟩) {i : Nat} {c : Char} (hi : start ≤ i)
    (hc : text[i]? = some c) :
    isBlank c = true ↔ ∀ e ∈ extents start ⟨lead, ps⟩, ¬ e.Covers i := by
  induction ps generalizing start lead with
  | nil =>
    have hlt : i < text.length := (List.getElem?_eq_some_iff.1 hc).1
    have hlen : text.length - start = lead.length := by
      simpa [Decomposition.text] using congrArg List.length ht
    have hmem : c ∈ lead := mem_of_drop ht hi (by omega) hc
    simp [hd.lead c hmem, extents, partExtents]
  | cons p ps ih =>
    rw [extents_cons, List.forall_mem_cons]
    rcases Nat.lt_or_ge i (start + lead.length) with hlead | hlead
    · have hb := hd.lead c (mem_of_drop ht hi hlead hc)
      refine ⟨fun _ => ⟨fun hcov => ?_, fun e he hcov => ?_⟩, fun _ => hb⟩
      · have : (start + lead.length : Int) ≤ i := hcov.1
        omega
      · have := le_start_of_mem_extents he
        have := hcov.1
        omega
    · rcases Nat.lt_or_ge i (start + lead.length + p.raw.length) with hraw | hraw
      · have hb := hd.head_lexeme.shape.not_isBlank c (mem_of_drop (drop_lead ht) hlead hraw hc)
        refine ⟨fun h => by simp [hb] at h, fun h => absurd ?_ h.1⟩
        show (start + lead.length : Int) ≤ i ∧ (i : Int) < start + lead.length + p.raw.length
        omega
      · rw [ih hd.tail (drop_raw ht) hraw]
        refine ⟨fun h => ⟨fun hcov => ?_, h⟩, fun h => h.2⟩
        have : (i : Int) < start + lead.length + p.raw.length := hcov.2
        omega

/-- The lexemes are the text without its blanks. -/
theorem flatMap_raw (hd : IsMunched ⟨lead, ps⟩) :
    ps.flatMap Part.raw = (Decomposition.text ⟨lead, ps⟩).filter fun c => !isBlank c := by
  have hlead : lead.filter (fun c => !isBlank c) = [] :=
    List.filter_eq_nil_iff.2 fun c hc => by simp [hd.lead c hc]
  induction ps generalizing lead with
  | nil => simp [Decomposition.text, hlead]
  | cons p ps ih =>
    have hraw : p.raw.filter (fun c => !isBlank c) = p.raw :=
      List.filter_eq_self.2 fun c hc => by simp [hd.head_lexeme.shape.not_isBlank c hc]
    have hgap : p.gap.filter (fun c => !isBlank c) = [] :=
      List.filter_eq_nil_iff.2 fun c hc => by simp [hd.tail.lead c hc]
    rw [List.flatMap_cons, text_cons, List.filter_append, List.filter_append, hlead, hraw,
      List.nil_append, ih hd.tail hgap]

theorem length_parts_le (hd : IsMunched ⟨lead, ps⟩) :
    ps.length ≤ (Decomposition.text ⟨lead, ps⟩).length := by
  induction ps generalizing lead with
  | nil => exact Nat.zero_le _
  | cons p ps ih =>
    have hpos := List.length_pos_iff.2 hd.head_lexeme.shape.ne_nil
    have := ih hd.tail
    rw [text_cons, List.length_cons, List.length_append, List.length_append]
    omega

theorem tiles_extents {d : Decomposition} (hd : d.IsMunched) : Tiles d.text (d.extents 0) where
  marks _ he := marks_of_mem_extents hd List.drop_zero he
  ordered := pairwise_extents 0 d
  blanks _ _ hc := isBlank_iff_not_covers hd List.drop_zero (Nat.zero_le _) hc

end Decomposition

/-- The extents of a text without runs of digits that are too long tile it, and
behind them stands the one of the end. So the raw texts are the text without its
blanks, and there is no more than one extent for each character and for the end. -/
theorem extents_tile (text : String) (h : NumeralsFit text.toList) :
    ∃ es, extents text = .ok (es ++ [⟨text.length, text.length, .eof⟩]) ∧
      Tiles text.toList es ∧
      es.flatMap (fun e => e.token.raw.toList) = text.toList.filter (fun c => !isBlank c) ∧
      es.length ≤ text.length := by
  obtain ⟨d, hd, ht⟩ := Decomposition.exists_isMunched text.toList
  have htokens := d.map_token_extents 0
  refine ⟨d.extents 0, ?_, ht ▸ Decomposition.tiles_extents hd, ?_, ?_⟩
  · rw [extents_of_isMunched hd ht, Decomposition.overlong?_eq_none (ht ▸ h)]
  · have hraws := congrArg (List.flatMap fun t : Token => t.raw.toList) htokens
    rw [List.flatMap_map, List.flatMap_map] at hraws
    rw [hraws, ← ht, ← Decomposition.flatMap_raw hd]
    rfl
  · have hlen := congrArg List.length htokens
    rw [List.length_map, List.length_map] at hlen
    rw [hlen, ← String.length_toList, ← ht]
    exact Decomposition.length_parts_le hd

/-- The two characters of an operator lie in one extent. -/
theorem extents_tile_not_equal :
    NumeralsFit " !=7".toList ∧
      ∃ es, es ++ [⟨4, 4, .eof⟩] =
          [⟨1, 3, ⟨.notEq, .absent, "!="⟩⟩, ⟨3, 4, ⟨.int, .number 7, "7"⟩⟩, ⟨4, 4, .eof⟩] ∧
        Tiles " !=7".toList es := by
  have hfit : NumeralsFit " !=7".toList := .of_length_le (by decide)
  obtain ⟨es, hes, htiles, -, -⟩ := extents_tile " !=7" hfit
  have hread : extents " !=7" =
      .ok [⟨1, 3, ⟨.notEq, .absent, "!="⟩⟩, ⟨3, 4, ⟨.int, .number 7, "7"⟩⟩, ⟨4, 4, .eof⟩] := by
    decide +kernel
  exact ⟨hfit, es, Except.ok.inj (hes.symm.trans hread), htiles⟩

end TokenStream
