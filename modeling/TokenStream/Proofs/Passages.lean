import TokenStream.Proofs.Diagnostics
import TokenStream.Proofs.NumeralData

/-!
# The tokens of a document and its diagnostics

A surrogate in a document is an illegal token by itself. It is listed with its offset and its
raw text as any other one, but there is no position behind it, so it has no diagnostic, and no
other token of the document has one then. Main statements: `Document.exists_extent_surrogate`
for the tokens, which are those of the extents if the document is a text (`passages_ofString`),
`diagnose_surrogate` for the failure, and `exists_diagnose_iff`: the documents with diagnostics
are the texts whose numerals fit.
-/

namespace TokenStream

section

variable {text : String} {es : List Extent} {e : Extent}

theorem marks_of_isIllegal (h : extents text = .ok es) (he : e ∈ es) (hk : e.isIllegal = true) :
    e.Marks text.toList ∧ Lexeme e.token.raw.toList e.token := by
  obtain ⟨d, hd, ht, -, rfl⟩ := exists_isMunched_of_extents h
  rcases List.mem_append.1 he with he | he
  · exact ⟨ht ▸ (Decomposition.tiles_extents hd).marks e he,
      Decomposition.lexeme_of_mem_extents hd he⟩
  · obtain rfl := List.mem_singleton.1 he
    contradiction

/-- A lexeme with the replacement in it is this character, and illegal. -/
theorem Lexeme.eq_of_replacement_mem {raw : List Char} {t : Token} (h : Lexeme raw t)
    (hmem : CodePoint.replacement ∈ raw) :
    raw = [CodePoint.replacement] ∧ t.kind = .illegal := by
  have hclasses : CharClass.ofChar CodePoint.replacement = .none := by decide +kernel
  obtain ⟨hletter, hdigit, hblank⟩ := CharClass.mk.inj hclasses
  have hstray : Lexeme [CodePoint.replacement] _ :=
    .stray hblank hletter hdigit CodePoint.replacement_notMem.1 CodePoint.replacement_notMem.2
  have hraw : raw = [CodePoint.replacement] := by
    cases h.shape with
    | letters _ hl => simp [hl _ hmem] at hletter
    | digits _ hd => simp [hd _ hmem] at hdigit
    | withEquals hc =>
      rcases hc with rfl | rfl
      · exact absurd hmem (by decide)
      · exact absurd hmem (by decide)
    | single => rw [List.mem_singleton.1 hmem]
  obtain rfl := hraw
  rw [h.eq_ofLexeme, ← hstray.eq_ofLexeme]
  exact ⟨rfl, rfl⟩

/-- A replacement that is read is a token by itself. -/
theorem Decomposition.exists_extent_replacement {c : Decomposition} (hc : c.IsMunched) {n : Nat}
    (hread : c.text[n]? = some CodePoint.replacement) :
    ∃ e ∈ c.extents 0, e.isIllegal = true ∧ e.start = n ∧ e.stop = (n + 1 : Nat) := by
  have htiles := tiles_extents hc
  have hcovered : ∃ e ∈ c.extents 0, e.Covers n := by
    by_contra hnone
    have hblank := (htiles.blanks _ _ hread).2 fun e he hcov => hnone ⟨e, he, hcov⟩
    exact absurd hblank (by decide)
  obtain ⟨e, he, hcov⟩ := hcovered
  have hmarks := htiles.marks e he
  obtain ⟨hraw, hkind⟩ := (lexeme_of_mem_extents hc he).eq_of_replacement_mem
    (hmarks.mem_raw hread hcov)
  have hlen := hmarks.length_raw
  rw [hraw, List.length_singleton] at hlen
  have hle : e.start ≤ n := hcov.1
  have hlt : (n : Int) < e.stop := hcov.2
  exact ⟨e, he, decide_eq_true hkind, by omega, by omega⟩

end

namespace Document

variable {d : Document} {es : List Extent} {cs : List Char} {s : Surrogate} {rest : Document}

/-- A document in which no replacement is read is a text. -/
theorem eq_ofChars_of_notMem (h : CodePoint.replacement ∉ d.scrubbed) :
    d = ofChars d.scrubbed := by
  rcases eq_ofChars_or_surrogate d with ⟨cs, rfl⟩ | ⟨cs, s, rest, rfl⟩
  · rw [scrubbed_ofChars]
  · refine absurd ?_ h
    rw [scrubbed_append]
    exact List.mem_append_right _ (.head _)

theorem extents_scrubbed (d : Document) :
    TokenStream.extents (.ofList d.scrubbed) = d.cursor.extents := by
  rw [TokenStream.extents, String.toList_ofList]
  rfl

theorem exists_extents (h : NumeralsFit d.scrubbed) : ∃ es, d.cursor.extents = .ok es := by
  rw [← extents_scrubbed]
  exact exists_extents_iff.2 h

theorem passages_of_extents (h : d.cursor.extents = .ok es) :
    d.passages = .ok (es.map (.ofExtent d)) := by
  rw [passages, mapM_eq_ok_iff, List.forall₂_map_right_iff]
  refine (mapM_eq_ok_iff.1 h).imp fun p e he => ?_
  rw [Pull.passage, he]
  rfl

theorem marks_of_mem_extents (h : d.cursor.extents = .ok es) {e : Extent} (he : e ∈ es)
    (hk : e.isIllegal = true) : e.Marks d.scrubbed ∧ Lexeme e.token.raw.toList e.token := by
  rw [← extents_scrubbed] at h
  have := marks_of_isIllegal h he hk
  rwa [String.toList_ofList] at this

/-- The first surrogate is an illegal token, and the tokens listed in front of it end in front
of it. -/
theorem exists_extent_surrogate (h : d.cursor.extents = .ok es)
    (hd : d = ofChars cs ++ .surrogate s :: rest) :
    ∃ (front : List Extent) (e : Extent) (back : List Extent), es = front ++ e :: back ∧
      e.isIllegal = true ∧ e.start = cs.length ∧ e.stop = (cs.length + 1 : Nat) ∧
      ∀ f ∈ front, f.stop ≤ cs.length := by
  rw [← extents_scrubbed] at h
  obtain ⟨c, hc, ht, -, rfl⟩ := exists_isMunched_of_extents h
  rw [String.toList_ofList] at ht
  have hread : c.text[cs.length]? = some CodePoint.replacement := by
    rw [ht, hd, scrubbed_append, scrubbed_ofChars, List.getElem?_append_right (Nat.le_refl _),
      Nat.sub_self]
    rfl
  obtain ⟨e, he, hk, hstart, hstop⟩ := Decomposition.exists_extent_replacement hc hread
  obtain ⟨front, back, hsplit⟩ := List.append_of_mem he
  refine ⟨front, e, back ++ [⟨_, _, .eof⟩], by rw [hsplit, List.append_assoc]; rfl,
    hk, hstart, hstop, fun f hf => ?_⟩
  have hordered := (Decomposition.tiles_extents hc).ordered
  rw [hsplit] at hordered
  rw [← hstart]
  exact (List.pairwise_append.1 hordered).2.2 f hf e (.head _)

end Document

/-! ## Raw texts -/

namespace Passage

variable {d : Document} {e : Extent}

theorem raw_ofExtent_ofChars {text : List Char} (he : e.Marks text) :
    (ofExtent (.ofChars text) e).raw = .ofChars e.token.raw.toList := by
  rw [← he.slice_position]
  exact Position.slice_map CodePoint.char text e.start e.stop

/-- What is read in place of the raw text of a token is the raw text that is read. -/
theorem scrubbed_raw (he : e.Marks d.scrubbed) :
    (ofExtent d e).raw.scrubbed = e.token.raw.toList := by
  rw [← he.slice_position]
  exact (Position.slice_map CodePoint.scrub d e.start e.stop).symm

theorem startsWithDigit_ofExtent (he : e.Marks d.scrubbed) :
    (ofExtent d e).startsWithDigit = e.token.raw.toList.head?.any Char.isDigit := by
  rw [startsWithDigit, ← scrubbed_raw he, Document.scrubbed, List.head?_map, Option.any_map]
  exact congrArg (Option.any · _) (funext fun c => by
    rw [← CodePoint.ofChar_scrub]
    rfl)

/-- A number holds no surrogates. -/
theorem raw_of_digits (he : e.Marks d.scrubbed) (hlex : Lexeme e.token.raw.toList e.token)
    (hd : e.token.raw.toList.head?.any Char.isDigit = true) :
    (ofExtent d e).raw = .ofString e.token.raw := by
  have hraw := scrubbed_raw he
  obtain ⟨c, cs, hcons⟩ := List.exists_cons_of_ne_nil hlex.shape.ne_nil
  rw [hcons] at hd
  have hdigits := hlex.shape.digits_of_mem (hcons ▸ .head _) hd
  have hnone : CodePoint.replacement ∉ (ofExtent d e).raw.scrubbed := fun hmem =>
    absurd (hdigits _ (hraw ▸ hmem)) (by decide)
  rw [Document.eq_ofChars_of_notMem hnone, hraw, Document.ofString]

end Passage

/-! ## Texts -/

section

variable {text : String} {es : List Extent}

/-- The tokens of a text that is taken for a document are those that its extents mark. -/
theorem passages_ofString (h : extents text = .ok es) :
    (Document.ofString text).passages =
      .ok (es.map fun e => ⟨e.start, e.stop, e.token.kind, .ofString e.token.raw⟩) := by
  have hcursor : (Document.ofString text).cursor.extents = .ok es := by
    rw [Document.cursor_ofString]
    exact h
  rw [Document.passages_of_extents hcursor]
  refine congrArg Except.ok (List.map_congr_left fun e he => ?_)
  have hraw : (Passage.ofExtent (.ofString text) e).raw = .ofString e.token.raw := by
    obtain ⟨d, hd, ht, -, rfl⟩ := exists_isMunched_of_extents h
    rcases List.mem_append.1 he with he | he
    · exact Passage.raw_ofExtent_ofChars (ht ▸ (Decomposition.tiles_extents hd).marks e he)
    · obtain rfl := List.mem_singleton.1 he
      show Position.slice (Document.ofString text) text.length text.length = []
      have hlen : text.length = (Document.ofString text).length :=
        (Document.length_ofChars text.toList).symm
      rw [hlen, Position.slice, Position.clamp_natCast (Nat.le_refl _), List.take_length,
        List.drop_length]
  rw [← hraw]
  rfl

/-- The report of the illegal tokens is the same for both. -/
theorem reportIllegal_passages (h : extents text = .ok es) :
    ∃ ps, (Document.ofString text).passages = .ok ps ∧
      Passage.reportIllegal ps = reportIllegal es := by
  refine ⟨_, passages_ofString h, ?_⟩
  rw [Passage.reportIllegal, reportWith, List.filter_map, List.flatMap_map, List.length_map,
    reportIllegal, reportWith]
  have hline : ∀ e : Extent,
      Passage.illegalLine ⟨e.start, e.stop, e.token.kind, .ofString e.token.raw⟩ =
        e.illegalLine := fun e => by
    rw [Passage.illegalLine, Document.ofString, Document.quoted_ofChars]
    rfl
  simp only [hline]
  rfl

end

/-! ## The diagnostics of a document -/

section

variable {d : Document} {cs : List Char} {s : Surrogate} {rest : Document}

/-- Nothing in front of the first surrogate is without a position. -/
theorem exists_ofPassage_front (hd : d = Document.ofChars cs ++ rest) {e : Extent}
    (he : e.Marks d.scrubbed) (hle : e.stop ≤ cs.length) :
    ∃ x, Diagnostic.ofPassage d (.ofExtent d e) = .ok x := by
  obtain ⟨m, n, hm, hn, hmn, -⟩ := he.exists_nat
  have hstart := Position.ofDocument_front hd (n := m) (by omega)
  have hstop := Position.ofDocument_front hd (n := n) (by omega)
  rw [Diagnostic.ofPassage, Passage.ofExtent, hm, hn, hstart, hstop]
  exact ⟨_, rfl⟩

/-- A document with a surrogate has no diagnostics: the reading of the first one fails, since
there is no position behind it, and none in front of it does. -/
theorem diagnose_surrogate (hfit : NumeralsFit d.scrubbed)
    (hd : d = Document.ofChars cs ++ .surrogate s :: rest) :
    diagnose d = .error (.unencodable ⟨s, (Position.lastLine cs).length⟩) := by
  obtain ⟨es, hes⟩ := Document.exists_extents hfit
  obtain ⟨front, e, back, rfl, hk, hstart, hstop, hfront⟩ := Document.exists_extent_surrogate hes hd
  have hpulls := mapM_eq_ok_iff.1 hes
  have hbefore := List.forall₂_take_append _ _ _ hpulls
  obtain ⟨p, ps, hp, -, hbehind⟩ :=
    List.forall₂_cons_right_iff.1 (List.forall₂_drop_append _ _ _ hpulls)
  have hreadings : d.cursor.pulls.mapM (Pull.diagnostics d) =
      .error (.unencodable ⟨s, (Position.lastLine cs).length⟩) := by
    -- `front` lists the tokens in front of the surrogate, so as many readings come before its own
    refine mapM_eq_error_iff.2 ⟨d.cursor.pulls.take front.length, p, ps, ?_, ?_, ?_⟩
    · rw [← hbehind, List.take_append_drop]
    · refine forall_mem_of_forall₂ hbefore fun x f hf hx => ?_
      rw [diagnostics_of_extent hx]
      split
      · have hmarks := (Document.marks_of_mem_extents hes (List.mem_append_left _ hf) ‹_›).1
        obtain ⟨y, hy⟩ := exists_ofPassage_front hd hmarks (hfront f hf)
        rw [hy]
        exact ⟨_, rfl⟩
      · exact ⟨_, rfl⟩
    · have hfirst := Position.ofDocument_front hd (Nat.le_refl cs.length)
      rw [diagnostics_of_extent hp, if_pos hk, Diagnostic.ofPassage, Passage.ofExtent, hstart,
        hstop, hfirst, Position.ofDocument_surrogate hd]
      rfl
  rw [diagnose, hreadings]
  rfl

/-- A text whose numerals are refused is refused for the first of them. -/
theorem diagnose_of_refused {text : String} {error : Numeral.Error}
    (h : extents text = .error error) :
    diagnose (.ofString text) = .error (.numeral error) := by
  obtain ⟨front, p, back, hpulls, hfront, hp⟩ := mapM_eq_error_iff.1 h
  have hreadings : (Document.ofString text).cursor.pulls.mapM
      (Pull.diagnostics (.ofString text)) = .error (.numeral error) := by
    rw [Document.cursor_ofString]
    refine mapM_eq_error_iff.2 ⟨front, p, back, hpulls, fun x hx => ?_, diagnostics_of_error hp⟩
    obtain ⟨e, he⟩ := hfront x hx
    rw [diagnostics_of_extent he, Document.ofString, Diagnostic.ofPassage_ofExtent]
    split <;> exact ⟨_, rfl⟩
  rw [diagnose, hreadings]
  rfl

/-- The documents that have diagnostics are the texts whose numerals fit. -/
theorem exists_diagnose_iff :
    (∃ ds, diagnose d = .ok ds) ↔ NumeralsFit d.scrubbed ∧ d.IsText := by
  constructor
  · rintro ⟨ds, hds⟩
    have hreadings : ∃ bs, d.cursor.pulls.mapM (Pull.diagnostics d) = .ok bs := by
      rw [diagnose] at hds
      cases hm : d.cursor.pulls.mapM (Pull.diagnostics d) with
      | ok bs => exact ⟨bs, rfl⟩
      | error error =>
        rw [hm] at hds
        contradiction
    have hfit : NumeralsFit d.scrubbed := by
      rw [← exists_extents_iff, Document.extents_scrubbed]
      refine exists_mapM_eq_ok_iff.2 fun p hp => ?_
      obtain ⟨b, hb⟩ := exists_mapM_eq_ok_iff.1 hreadings p hp
      cases he : p.extent with
      | ok e => exact ⟨e, rfl⟩
      | error error => exact absurd ((diagnostics_of_error he).symm.trans hb) (by simp)
    refine ⟨hfit, fun s hs => ?_⟩
    rcases Document.eq_ofChars_or_surrogate d with ⟨cs, rfl⟩ | ⟨cs, s, rest, hd⟩
    · exact Document.isText_ofChars cs s hs
    · rw [diagnose_surrogate hfit hd] at hds
      contradiction
  · rintro ⟨hfit, htext⟩
    obtain ⟨cs, rfl⟩ := htext.exists_chars
    obtain ⟨es, hes⟩ := Document.exists_extents hfit
    exact ⟨_, diagnose_ofChars hes⟩

/-- Every diagnostic is an error, and is published under one name. -/
theorem severity_of_diagnose {ds : List Diagnostic} (h : diagnose d = .ok ds) :
    ∀ x ∈ ds, x.severity = 1 ∧ x.origin = "monkeylex" := by
  obtain ⟨hfit, htext⟩ := exists_diagnose_iff.1 ⟨ds, h⟩
  obtain ⟨cs, rfl⟩ := htext.exists_chars
  obtain ⟨es, hes⟩ := Document.exists_extents hfit
  rw [diagnose_ofChars hes] at h
  obtain rfl := Except.ok.inj h
  exact List.forall_mem_map.2 fun _ _ => ⟨rfl, rfl⟩

end

end TokenStream
