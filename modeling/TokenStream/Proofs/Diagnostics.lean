import TokenStream.Diagnostic.Workspace
import TokenStream.Proofs.Documents
import TokenStream.Proofs.Except
import TokenStream.Proofs.Tiling
import TokenStream.Report

/-!
# Diagnostics point at the illegal tokens

Whatever makes a document have a text, one list of diagnostics is published for it, with
one diagnostic for each illegal token, in their order. The UTF-16 units between the two
positions of a diagnostic are those of the token's raw text. Main statements:
`diagnose_of_positions` for any document, `Diagnostic.pointsAt_ofExtent` for one diagnostic of
a text, and `publications_point_at_illegal` for a text.
-/

namespace TokenStream

/-! ## The diagnostics of a document -/

section

variable {d : Document} {es : List Extent} {e : Extent} {p : Pull} {g : Extent → Diagnostic}

theorem flatten_map_ite {α β : Type} (q : α → Bool) (g : α → β) (as : List α) :
    (as.map fun a => if q a then [g a] else []).flatten = (as.filter q).map g := by
  induction as with
  | nil => rfl
  | cons a as ih =>
    rw [List.map_cons, List.flatten_cons, ih, List.filter_cons]
    split <;> rfl

/-- A reading of a token looks for positions only if the token is illegal. -/
theorem diagnostics_of_extent (h : p.extent = .ok e) :
    p.diagnostics d =
      if e.isIllegal then
        ((Diagnostic.ofPassage d (.ofExtent d e)).mapError .unencodable).map fun x => [x]
      else .ok [] := by
  have hpassage : p.passage d = .ok (.ofExtent d e) := by rw [Pull.passage, h]; rfl
  rw [Pull.diagnostics, hpassage]
  show (if e.isIllegal then _ else _) = _
  split
  · cases Diagnostic.ofPassage d (.ofExtent d e) <;> rfl
  · rfl

theorem diagnostics_of_error {error : Numeral.Error} (h : p.extent = .error error) :
    p.diagnostics d = .error (.numeral error) := by
  rw [Pull.diagnostics, Pull.passage, h]
  rfl

/-- A document has one diagnostic for each illegal token, if all of these have positions. -/
theorem diagnose_of_positions (h : d.cursor.extents = .ok es)
    (hg : ∀ e ∈ es, e.isIllegal = true → Diagnostic.ofPassage d (.ofExtent d e) = .ok (g e)) :
    diagnose d = .ok ((es.filter Extent.isIllegal).map g) := by
  have hreadings : d.cursor.pulls.mapM (Pull.diagnostics d) =
      .ok (es.map fun e => if e.isIllegal then [g e] else []) := by
    have hextents := (List.forall₂_and_left _ _).2 ⟨hg, (mapM_eq_ok_iff.1 h).flip⟩
    rw [mapM_eq_ok_iff, List.forall₂_map_right_iff]
    refine (hextents.imp fun e p he => ?_).flip
    show p.diagnostics d = _
    rw [diagnostics_of_extent he.2]
    split
    · rw [he.1 ‹_›]
      rfl
    · rfl
  rw [diagnose, hreadings, Except.map, flatten_map_ite]

end

/-- The diagnostic of an illegal token of a text. -/
def Diagnostic.ofExtent (text : List Char) (e : Extent) : Diagnostic :=
  { start := .ofOffset text e.start
    stop := .ofOffset text e.stop
    message := (Passage.ofExtent (.ofChars text) e).complaint }

theorem Diagnostic.ofPassage_ofExtent (text : List Char) (e : Extent) :
    ofPassage (.ofChars text) (.ofExtent (.ofChars text) e) = .ok (ofExtent text e) := by
  rw [ofPassage, Passage.ofExtent, Position.ofDocument_ofChars, Position.ofDocument_ofChars]
  rfl

theorem diagnose_ofChars {text : List Char} {es : List Extent}
    (h : (Document.ofChars text).cursor.extents = .ok es) :
    diagnose (.ofChars text) =
      .ok ((es.filter Extent.isIllegal).map (Diagnostic.ofExtent text)) :=
  diagnose_of_positions h fun e _ _ => Diagnostic.ofPassage_ofExtent text e

theorem diagnose_of_extents {text : String} {es : List Extent} (h : extents text = .ok es) :
    diagnose (.ofString text) =
      .ok ((es.filter Extent.isIllegal).map (Diagnostic.ofExtent text.toList)) := by
  have hcursor : (Document.ofString text).cursor.extents = .ok es := by
    rw [Document.cursor_ofString]
    exact h
  exact diagnose_ofChars hcursor

/-! ## Where a diagnostic points -/

/-- A diagnostic between two positions of one line, where the text has the given raw text. -/
structure Diagnostic.PointsAt (d : Diagnostic) (text raw : List Char) : Prop where
  line_eq : d.start.line = d.stop.line
  character_lt : d.start.character < d.stop.character
  slice_eq : ∃ line, (Position.lines text)[d.start.line]? = some line ∧
    ((Utf16.encode line).take d.stop.character).drop d.start.character = Utf16.encode raw

namespace Extent.Marks

variable {e : Extent} {text : List Char}

theorem exists_nat (h : e.Marks text) :
    ∃ m n : Nat, e.start = m ∧ e.stop = n ∧ m < n ∧ n ≤ text.length := by
  have hnonneg := h.start_nonneg
  have hlt := h.start_lt_stop
  have hle := h.stop_le
  exact ⟨e.start.toNat, e.stop.toNat, by omega, by omega, by omega, by omega⟩

/-- Between the offsets of a token stands its raw text. -/
theorem exists_slice (h : e.Marks text) :
    ∃ m n : Nat, e.start = m ∧ e.stop = n ∧ m < n ∧ n ≤ text.length ∧
      (text.take n).drop m = e.token.raw.toList := by
  obtain ⟨m, n, hm, hn, hmn, hle⟩ := h.exists_nat
  have hslice := h.slice_eq
  rw [Extent.slice, hm, hn, Int.toNat_natCast, Int.toNat_natCast] at hslice
  exact ⟨m, n, hm, hn, hmn, hle, hslice⟩

theorem slice_position (h : e.Marks text) :
    Position.slice text e.start e.stop = e.token.raw.toList := by
  obtain ⟨m, n, hm, hn, hmn, hle, hslice⟩ := h.exists_slice
  rw [Position.slice, hm, hn, Position.clamp_natCast hle, Position.clamp_natCast (by omega), hslice]

theorem length_raw (h : e.Marks text) : e.stop = e.start + e.token.raw.toList.length := by
  obtain ⟨m, n, hm, hn, hmn, hle, hslice⟩ := h.exists_slice
  rw [hm, hn, ← hslice, List.length_drop, List.length_take]
  omega

/-- A character of the text between the offsets of a token is in its raw text. -/
theorem mem_raw (h : e.Marks text) {i : Nat} {c : Char} (hc : text[i]? = some c)
    (hcov : e.Covers i) : c ∈ e.token.raw.toList := by
  obtain ⟨m, n, hm, hn, -, -, hslice⟩ := h.exists_slice
  have hi : m ≤ i ∧ i < n := by
    have := hcov
    rw [Extent.Covers, hm, hn] at this
    omega
  rw [← hslice]
  refine List.mem_of_getElem? (i := i - m) ?_
  rw [List.getElem?_drop, Nat.add_sub_cancel' hi.1, List.getElem?_take_of_lt hi.2, hc]

end Extent.Marks

/-- No line ends within a lexeme. -/
theorem Shape.newline_notMem {raw : List Char} (h : Shape raw) : '\n' ∉ raw := fun hc =>
  absurd (h.not_isBlank '\n' hc) (by decide)

namespace Diagnostic

variable {text : List Char} {e f : Extent}

theorem start_lt_stop_ofExtent (he : e.Marks text) :
    (ofExtent text e).start < (ofExtent text e).stop := by
  obtain ⟨m, n, hm, hn, hmn, hle⟩ := he.exists_nat
  show Position.ofOffset text e.start < Position.ofOffset text e.stop
  rw [hm, hn]
  exact Position.ofOffset_lt hmn hle

theorem stop_le_start_ofExtent (he : e.Marks text) (hf : f.Marks text) (hef : e.stop ≤ f.start) :
    (ofExtent text e).stop ≤ (ofExtent text f).start := by
  obtain ⟨-, n, -, hn, -, -⟩ := he.exists_nat
  obtain ⟨m, n', hm, -, hmn, hle⟩ := hf.exists_nat
  show Position.ofOffset text e.stop ≤ Position.ofOffset text f.start
  rw [hn, hm] at hef ⊢
  exact Position.ofOffset_le (Int.ofNat_le.1 hef) (by omega)

/-- A diagnostic points at the raw text of the token that it is made for. -/
theorem pointsAt_ofExtent (he : e.Marks text) (hraw : '\n' ∉ e.token.raw.toList) :
    (ofExtent text e).PointsAt text e.token.raw.toList := by
  have hlt := Position.lt_iff.1 (start_lt_stop_ofExtent he)
  obtain ⟨m, n, hm, hn, hmn, hle, hslice⟩ := he.exists_slice
  have htake : text.take n = text.take m ++ e.token.raw.toList := by
    have hsplit := List.take_append_drop m (text.take n)
    rw [List.take_take, Nat.min_eq_left (Nat.le_of_lt hmn), hslice] at hsplit
    exact hsplit.symm
  have htext : text.take m ++ e.token.raw.toList ++ text.drop n = text := by
    rw [← htake, List.take_append_drop]
  have hstart : (ofExtent text e).start = .afterText (text.take m) := by
    rw [ofExtent, hm, Position.ofOffset_natCast (by omega)]
  have hstop : (ofExtent text e).stop = .afterText (text.take m ++ e.token.raw.toList) := by
    rw [ofExtent, hn, Position.ofOffset_natCast hle, htake]
  obtain ⟨hline, hunits⟩ := Position.slice_line (text.take m) (text.drop n) hraw
  rw [htext] at hunits
  rw [← hstart, ← hstop] at hline hunits
  refine ⟨hline, ?_, hunits⟩
  rcases hlt with h | h
  · omega
  · exact h.2

end Diagnostic

/-! ## The illegal tokens of a text -/

namespace Decomposition

/-- The extents of the illegal tokens of a text. -/
def illegals (d : Decomposition) : List Extent :=
  (d.extents 0).filter Extent.isIllegal

variable {d : Decomposition} {text : String}

/-- The token at the end of a text is not illegal. -/
theorem filter_extents_eof (d : Decomposition) (n : Nat) :
    (d.extents 0 ++ [(⟨n, n, .eof⟩ : Extent)]).filter Extent.isIllegal = d.illegals := by
  rw [List.filter_append, illegals]
  simp [Token.eof, Extent.isIllegal]

theorem diagnose_of_numeralsFit (h : NumeralsFit text.toList) (hd : d.IsMunched)
    (ht : d.text = text.toList) :
    diagnose (.ofString text) = .ok (d.illegals.map (Diagnostic.ofExtent text.toList)) := by
  rw [diagnose_of_extents (extents_of_numeralsFit h hd ht), filter_extents_eof]

theorem filter_tokens (h : NumeralsFit text.toList) (hd : d.IsMunched)
    (ht : d.text = text.toList) :
    ∃ ts, tokenize text = .ok ts ∧
      ts.filter (fun t => t.kind = .illegal) = d.illegals.map Extent.token := by
  refine ⟨(d.extents 0 ++ [(⟨text.length, text.length, .eof⟩ : Extent)]).map Extent.token, ?_, ?_⟩
  · rw [tokenize_eq_map_extents, extents_of_numeralsFit h hd ht]
    rfl
  · rw [List.filter_map, ← filter_extents_eof d text.length]
    rfl

end Decomposition

/-- Whatever event leaves a document with a text whose numerals fit, one list of diagnostics
is published for it: one for each illegal token of the text, which points at its
raw text, one behind the other. -/
theorem publications_point_at_illegal (w : Workspace) (event : Event) (text : String)
    (hopen : (w.after event).documents.lookup event.uri = some (.ofString text))
    (h : NumeralsFit text.toList) :
    ∃ ts ds, tokenize text = .ok ts ∧ w.publications [event] = [.ok ⟨event.uri, ds⟩] ∧
      List.Forall₂ (fun (t : Token) (d : Diagnostic) => d.PointsAt text.toList t.raw.toList)
        (ts.filter fun t => t.kind = .illegal) ds ∧
      (∀ d ∈ ds, d.start < d.stop) ∧ ds.Pairwise fun d e => d.stop ≤ e.start := by
  obtain ⟨d, hd, ht⟩ := Decomposition.exists_isMunched text.toList
  obtain ⟨ts, hts, hillegal⟩ := Decomposition.filter_tokens h hd ht
  have hread : (w.after event).text event.uri = .ofString text := by
    rw [Workspace.text, hopen, Option.getD_some]
  have hmem : ∀ e ∈ d.illegals, e ∈ d.extents 0 := fun e he => List.mem_of_mem_filter he
  have hmarks : ∀ e ∈ d.illegals, e.Marks text.toList := fun e he =>
    ht ▸ (Decomposition.tiles_extents hd).marks e (hmem e he)
  refine ⟨ts, d.illegals.map (Diagnostic.ofExtent text.toList), hts, ?_, ?_, ?_, ?_⟩
  · show [w.publish event] = _
    rw [Workspace.publish, hread, Decomposition.diagnose_of_numeralsFit h hd ht]
    rfl
  · rw [hillegal, List.forall₂_map_left_iff, List.forall₂_map_right_iff, List.forall₂_same]
    intro e he
    have hlex := Decomposition.lexeme_of_mem_extents hd (hmem e he)
    exact Diagnostic.pointsAt_ofExtent (hmarks e he) hlex.shape.newline_notMem
  · exact List.forall_mem_map.2 fun e he => Diagnostic.start_lt_stop_ofExtent (hmarks e he)
  · have hordered : d.illegals.Pairwise fun e f => e.stop ≤ f.start :=
      (Decomposition.pairwise_extents 0 d).sublist List.filter_sublist
    refine List.pairwise_map.2 (hordered.imp_of_mem fun he hf hef => ?_)
    exact Diagnostic.stop_le_start_ofExtent (hmarks _ he) (hmarks _ hf) hef

/-- Behind a letter of two units, a stray character stands at the fourth unit of its line. -/
theorem publications_point_at_illegal_behind_pair :
    let w := Workspace.empty
    let event := Event.opened "a" (.ofString "𝑥 @\n#")
    (w.after event).documents.lookup event.uri = some (.ofString "𝑥 @\n#") ∧
      NumeralsFit "𝑥 @\n#".toList ∧
      ∃ ds, w.publications [event] =
          [.ok ⟨"a", ⟨⟨0, 3⟩, ⟨0, 4⟩, "illegal character \x27@\x27", 1, "monkeylex"⟩ :: ds⟩] ∧
        (⟨⟨0, 3⟩, ⟨0, 4⟩, "illegal character \x27@\x27", 1, "monkeylex"⟩ : Diagnostic).PointsAt
          "𝑥 @\n#".toList "@".toList := by
  intro w event
  have hopen : (w.after event).documents.lookup event.uri = some (.ofString "𝑥 @\n#") := by
    decide +kernel
  have hfit : NumeralsFit "𝑥 @\n#".toList := .of_length_le (by decide)
  obtain ⟨ts, ds, hts, hds, hpoint, -, -⟩ := publications_point_at_illegal w event _ hopen hfit
  have hread : tokenize "𝑥 @\n#" =
      .ok [⟨.ident, .name "𝑥", "𝑥"⟩, ⟨.illegal, .absent, "@"⟩,
        ⟨.illegal, .absent, "#"⟩, .eof] := by decide +kernel
  have hpublish : w.publications [event] =
      [.ok ⟨"a", [⟨⟨0, 3⟩, ⟨0, 4⟩, "illegal character \x27@\x27", 1, "monkeylex"⟩,
        ⟨⟨1, 0⟩, ⟨1, 1⟩, "illegal character \x27#\x27", 1, "monkeylex"⟩]⟩] := by decide +kernel
  obtain rfl := Except.ok.inj (hts.symm.trans hread)
  obtain rfl : ds = _ :=
    (Publication.mk.inj (Except.ok.inj (List.head_eq_of_cons_eq (hds.symm.trans hpublish)))).2
  refine ⟨hopen, hfit, _, hpublish, ?_⟩
  exact (List.forall₂_cons.1 hpoint).1

end TokenStream
