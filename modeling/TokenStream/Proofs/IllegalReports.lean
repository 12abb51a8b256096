import TokenStream.Proofs.Concatenation
import TokenStream.Proofs.Passages
import TokenStream.Proofs.TextDump

/-!
# The reports of illegal tokens agree

An illegal token is a number that is too large, which starts with a digit, or a single stray
code point. Each is reported in several places: the numbers in the log, both kinds in the
diagnostics and in the report of the illegal tokens. The log and the report give the offset and
the raw text of the same tokens in the same order, whatever the document. The diagnostics do so
as well if the document is a text, and if it is none there are no diagnostics. Main statements:
`Cursor.overflows_atOffset` for the log, `Diagnostic.place?_ofExtent` for a diagnostic,
`readReport?_reportText` for a line of the report, and `illegal_reports_agree_iff` for a document.
-/

namespace TokenStream

/-! ## Reading reports -/

/-- The text between a beginning and an end. -/
def between? (front back s : List Char) : Option (List Char) :=
  let middle := (s.drop front.length).take (s.length - front.length - back.length)
  if front ++ (middle ++ back) = s then some middle else none

theorem between?_eq_some_iff {front back s middle : List Char} :
    between? front back s = some middle ↔ s = front ++ (middle ++ back) := by
  rw [between?]
  constructor
  · intro h
    split at h
    · rename_i hs
      rw [← Option.some.inj h, hs]
    · contradiction
  · rintro rfl
    have hlen : (front ++ (middle ++ back)).length - front.length - back.length =
        middle.length := by
      rw [List.length_append, List.length_append]
      omega
    rw [hlen, List.drop_left, List.take_left, if_pos rfl]

namespace Position

/-- The offset into a document that has the position, if one has. -/
def offset? (d : Document) (p : Position) : Option Nat :=
  (List.range (d.length + 1)).find? fun n => ofDocument d n = .ok p

/-- An offset into a text is told by its position. -/
theorem offset?_ofOffset {text : List Char} {n : Nat} (h : n ≤ text.length) :
    offset? (.ofChars text) (ofOffset text n) = some n := by
  rw [offset?, List.find?_range_eq_some, Document.length_ofChars]
  refine ⟨decide_eq_true (ofDocument_ofChars text n), List.mem_range.2 (Nat.lt_succ_of_le h),
    fun m hm => ?_⟩
  rw [Bool.not_eq_true', decide_eq_false_iff_not, ofDocument_ofChars]
  intro heq
  have hlt := ofOffset_lt hm h
  rw [Except.ok.inj heq] at hlt
  exact lt_irrefl _ hlt

end Position

/-- What a reader of literals finds in a line of the report of the illegal tokens: where the token
starts, and its raw text. -/
def readReport? {α : Type} (literal? : List Char → Option (α × List Char)) (line : List Char) :
    Option (Int × α) := do
  let rest ← between? "error: illegal token ".toList [] line
  let (raw, rest) ← literal? rest
  let rest ← between? " at offset ".toList [] rest
  let (start, rest) ← Json.integer? rest
  if rest = [] then some (start, raw) else none

namespace Extent

def startsWithDigit (e : Extent) : Bool := e.token.raw.toList.head?.any Char.isDigit

/-- Is the token a number that is too large? -/
def isOverflow (e : Extent) : Bool := e.startsWithDigit && e.isIllegal

/-- Where the token starts, and its raw text. -/
def place (e : Extent) : Int × String := (e.start, e.token.raw)

/-- The place in a line of the report of the illegal tokens. -/
def readIllegal? (line : List Char) : Option (Int × String) :=
  (readReport? Quoted.literal? line).map fun place => (place.1, .ofList place.2)

end Extent

namespace Passage

/-- Is the token a number that is too large? -/
def isOverflow (p : Passage) : Bool := p.startsWithDigit && p.isIllegal

/-- Is the token a stray code point? -/
def isStray (p : Passage) : Bool := !p.startsWithDigit && p.isIllegal

/-- Where the token starts, and its raw text. -/
def place (p : Passage) : Int × Document := (p.start, p.raw)

/-- The place in a line of the report of the illegal tokens. -/
def readIllegal? (line : List Char) : Option (Int × Document) :=
  readReport? Document.literal? line

end Passage

namespace Diagnostic

/-- The number that a message calls too large. -/
def overflowRaw? (message : List Char) : Option (List Char) :=
  between? "integer literal ".toList " does not fit in 64 bits".toList message

/-- The character that a message calls illegal. -/
def strayRaw? (message : List Char) : Option (List Char) := do
  let literal ← between? "illegal character ".toList [] message
  Quoted.read? literal

/-- The place of what a reader finds in the message of a diagnostic. -/
def place? (raw? : List Char → Option (List Char)) (d : Document) (x : Diagnostic) :
    Option (Int × Document) := do
  let raw ← raw? x.message.toList
  let start ← Position.offset? d x.start
  return (start, .ofChars raw)

end Diagnostic

theorem filterMap_eq_map_filter {α β : Type} {f : α → Option β} {q : α → Bool} {g : α → β}
    {as : List α} (h : ∀ a ∈ as, f a = if q a then some (g a) else none) :
    as.filterMap f = (as.filter q).map g := by
  rw [← List.filterMap_eq_map, List.filterMap_filter]
  exact List.filterMap_congr h

/-! ## Illegal lexemes -/

section

variable {raw : List Char} {t : Token}

/-- The illegal tokens that start with a digit are the numbers that are too large. -/
theorem Lexeme.illegal_number_iff (h : Lexeme raw t) :
    (t.kind = .illegal ∧ raw.head?.any Char.isDigit = true) ↔
      raw.all Char.isDigit = true ∧ maxInt < Numeral.value raw := by
  obtain ⟨c, cs, rfl⟩ := List.exists_cons_of_ne_nil h.shape.ne_nil
  cases hc : c.isDigit with
  | false => simp [hc]
  | true =>
    have hall := h.shape.digits_of_mem (.head _) hc
    have ht : t = Token.ofDigits (c :: cs) := by
      rw [h.eq_ofLexeme, Token.ofLexeme_of_digits (List.cons_ne_nil c cs) hall]
    rw [List.all_eq_true.2 hall, ht, Token.ofDigits]
    split
    · rename_i hlarge
      simp [hc, hlarge]
    · rename_i hsmall
      simp [hsmall]

/-- Any other illegal token is a single character. -/
theorem Lexeme.exists_of_stray (h : Lexeme raw t) (hk : t.kind = .illegal)
    (hd : raw.head?.any Char.isDigit = false) : ∃ c, raw = [c] ∧ c.isDigit = false := by
  cases h with
  | keyword _ _ hc => exact absurd hk (Kind.keywords_kinds _ hc).2.1
  | name | number => contradiction
  | overflow hne hl =>
    obtain ⟨c, cs, rfl⟩ := List.exists_cons_of_ne_nil hne
    simp [hl c (.head _)] at hd
  | operator hc => exact absurd hk (Kind.operators_kinds _ hc).2.2.1
  | operatorEquals hc => exact absurd hk (Kind.operators_kinds_withEquals _ hc).2.2.1
  | symbol hc => exact absurd hk (Kind.symbols_kinds _ hc).2.2.1
  | stray _ _ hc => exact ⟨_, rfl, hc⟩

end

/-! ## The log -/

namespace Extent

/-- The overflow that is recorded for a token. -/
def overflow? (e : Extent) : Option Overflow :=
  if e.isOverflow then some ⟨e.token.raw, e.start.toNat⟩ else none

theorem isOverflow_iff {e : Extent} :
    e.isOverflow = true ↔
      e.token.kind = .illegal ∧ e.token.raw.toList.head?.any Char.isDigit = true := by
  rw [isOverflow, isIllegal, Bool.and_eq_true, decide_eq_true_eq, startsWithDigit, and_comm]

/-- The overflow of a lexeme is that of its extent. -/
theorem overflow?_eq {e : Extent} (h : Lexeme e.token.raw.toList e.token)
    (hshort : isOverlong e.token.raw.toList = false) {start : Nat} (hstart : e.start = start) :
    e.overflow? = overflowOf? start e.token.raw.toList := by
  simp only [overflow?, overflowOf?, isOverflow_iff, h.illegal_number_iff, hshort, hstart,
    Int.toNat_natCast, String.ofList_toList, true_and]

end Extent

namespace Cursor

theorem overflows_eq (c : Cursor) :
    c.overflows =
      c.pull.overflow?.toList ++ if c.pull.isLast then [] else c.pull.cursor.overflows := by
  rw [overflows, pulls_eq, List.filterMap_cons]
  split
  · rename_i h
    rw [h, Option.toList_none, List.nil_append]
    split <;> rfl
  · rename_i o h
    rw [h, Option.toList_some, List.singleton_append]
    split <;> rfl

variable {source : Array Char} {p : Nat}

/-- The overflows from an offset are those of the extents of the text behind it: by induction
on the parts, one of which is read at a time. -/
theorem overflows_atOffset {d : Decomposition} (hd : d.IsMunched)
    (ht : source.toList.drop p = d.text) (hnone : d.overlong? = none) :
    (atOffset source p).overflows = (d.extents p).filterMap Extent.overflow? := by
  obtain ⟨lead, qs⟩ := d
  induction qs generalizing p lead with
  | nil =>
    rw [overflows_eq, pull_of_no_parts hd ht]
    rfl
  | cons q qs ih =>
    have hlex := hd.head_lexeme
    have hshort : isOverlong q.raw = false := by
      simpa using List.find?_eq_none.1 hnone q (.head _)
    have hrest : Decomposition.overlong? ⟨q.gap, qs⟩ = none :=
      List.find?_eq_none.2 fun r hr => List.find?_eq_none.1 hnone r (.tail _ hr)
    have hlast : ∀ c o, (⟨.ok q.token, c, o⟩ : Pull).isLast = false := fun c o => by
      simp [Pull.isLast, hlex.kind_ne_eof]
    have hfirst := Extent.overflow?_eq
      (e := ⟨p + lead.length, p + lead.length + q.raw.length, q.token⟩) hlex hshort
      (Int.natCast_add p lead.length).symm
    rw [overflows_eq, pull_of_parts hd ht, outcomeOf, if_neg (by simp [hshort]),
      ← hlex.eq_ofLexeme, hlast, Decomposition.extents_cons, List.filterMap_cons, hfirst]
    dsimp only
    rw [if_neg Bool.false_ne_true, ih q.gap hd.tail (Decomposition.drop_raw ht) hrest, Part.raw]
    cases overflowOf? (p + lead.length) q.token.raw.toList <;> rfl

end Cursor

/-! ## The diagnostics -/

namespace Passage

/-- The two complaints are told apart, and what they are about is read from them. -/
theorem overflowRaw?_complaint (p : Passage) :
    Diagnostic.overflowRaw? p.complaint.toList =
      if p.startsWithDigit then some p.raw.scrubbed else none := by
  rw [complaint]
  split
  · have hraw : (String.ofList p.raw.scrubbed).toList = p.raw.scrubbed := String.toList_ofList
    rw [Diagnostic.overflowRaw?, between?_eq_some_iff, String.toList_append, String.toList_append,
      List.append_assoc, hraw]
  · rw [Diagnostic.overflowRaw?, Option.eq_none_iff_forall_ne_some]
    intro middle h
    rw [between?_eq_some_iff, String.toList_append] at h
    -- the complaints differ in their second character
    exact absurd (List.cons.inj (List.cons.inj h).2).1 (by decide)

theorem strayRaw?_complaint (p : Passage) :
    Diagnostic.strayRaw? p.complaint.toList =
      if p.startsWithDigit then none else Quoted.read? p.raw.quoted := by
  rw [complaint]
  split
  · rw [Diagnostic.strayRaw?, Option.eq_none_iff_forall_ne_some]
    intro character h
    obtain ⟨literal, h, -⟩ := Option.bind_eq_some_iff.1 h
    rw [between?_eq_some_iff, String.toList_append, String.toList_append, List.append_assoc] at h
    exact absurd (List.cons.inj (List.cons.inj h).2).1 (by decide)
  · have hquoted : (String.ofList p.raw.quoted).toList = p.raw.quoted := String.toList_ofList
    have hread : between? "illegal character ".toList []
        ("illegal character " ++ String.ofList p.raw.quoted).toList = some p.raw.quoted := by
      rw [between?_eq_some_iff, String.toList_append, hquoted, List.append_nil]
    rw [Diagnostic.strayRaw?, hread, Option.bind_eq_bind, Option.bind_some]

end Passage

namespace Diagnostic

variable {text : List Char} {e : Extent}

/-- The position of the diagnostic of a token tells where the token starts. -/
theorem place?_ofExtent (he : e.Marks text) (raw? : List Char → Option (List Char)) :
    place? raw? (.ofChars text) (ofExtent text e) =
      (raw? (Passage.ofExtent (.ofChars text) e).complaint.toList).map fun raw =>
        (e.start, .ofChars raw) := by
  obtain ⟨m, n, hm, -, hmn, hle⟩ := he.exists_nat
  have hoffset : Position.offset? (.ofChars text) (.ofOffset text m) = some m :=
    Position.offset?_ofOffset (by omega)
  rw [place?, ofExtent, hm, hoffset]
  cases raw? (Passage.ofExtent (.ofChars text) e).complaint.toList <;> rfl

/-- A diagnostic calls a number too large where one is. -/
theorem overflow_place?_ofExtent (he : e.Marks text) :
    place? overflowRaw? (.ofChars text) (ofExtent text e) =
      if (Passage.ofExtent (.ofChars text) e).startsWithDigit then
        some (Passage.ofExtent (.ofChars text) e).place
      else none := by
  rw [place?_ofExtent he, Passage.overflowRaw?_complaint]
  split
  · rw [Option.map_some, Passage.place, Passage.raw_ofExtent_ofChars he, Document.scrubbed_ofChars]
    rfl
  · rfl

/-- It calls a character illegal where one is. -/
theorem stray_place?_ofExtent (he : e.Marks text) :
    place? strayRaw? (.ofChars text) (ofExtent text e) =
      if !(Passage.ofExtent (.ofChars text) e).startsWithDigit then
        some (Passage.ofExtent (.ofChars text) e).place
      else none := by
  rw [place?_ofExtent he, Passage.strayRaw?_complaint]
  cases (Passage.ofExtent (.ofChars text) e).startsWithDigit with
  | true => rfl
  | false =>
    rw [if_neg Bool.false_ne_true, Passage.raw_ofExtent_ofChars he, Document.quoted_ofChars,
      Quoted.read?_encode, Passage.place, Passage.raw_ofExtent_ofChars he]
    rfl

end Diagnostic

/-! ## The report -/

theorem oneLine_of_all {s : List Char} (h : s.all (fun c => !isLineEnd c) = true) : OneLine s :=
  fun c hc => by simpa using List.all_eq_true.1 h c hc

/-- An integer is written with digits, behind a sign or none. -/
theorem mem_decimal {i : Int} {c : Char} (h : c ∈ Numeral.decimal i) :
    c = '-' ∨ c.isDigit = true := by
  cases i with
  | ofNat n => exact .inr (Json.isDigit_of_mem_toDigits c h)
  | negSucc n => exact (List.mem_cons.1 h).imp id (Json.isDigit_of_mem_toDigits c)

theorem oneLine_decimal (i : Int) : OneLine (Numeral.decimal i) := by
  have hends : lineEnds.all (fun c => !c.isDigit) = true := by decide
  intro c hc
  refine Bool.eq_false_iff.2 fun hend => ?_
  rcases mem_decimal hc with rfl | hdigit
  · exact absurd hend (by decide)
  · have := List.all_eq_true.1 hends c (List.contains_iff_mem.1 hend)
    simp [hdigit] at this

/-- A line of the report without its end. -/
def reportText (quotedRaw : List Char) (start : Int) : List Char :=
  "error: illegal token ".toList ++
    (quotedRaw ++ (" at offset ".toList ++ Numeral.decimal start))

theorem reportLine_eq (quotedRaw : List Char) (start : Int) :
    reportLine quotedRaw start = reportText quotedRaw start ++ ['\n'] := by
  unfold reportLine reportText
  simp only [List.append_assoc]

theorem oneLine_reportText {quotedRaw : List Char} (h : OneLine quotedRaw) (start : Int) :
    OneLine (reportText quotedRaw start) := by
  unfold reportText
  simp only [oneLine_append]
  exact ⟨oneLine_of_all (by decide), h, oneLine_of_all (by decide), oneLine_decimal _⟩

/-- A line is read back if the raw text is read back from its quoted form. -/
theorem readReport?_reportText {α : Type} {literal? : List Char → Option (α × List Char)}
    {quotedRaw : List Char} {raw : α} (h : ∀ rest, literal? (quotedRaw ++ rest) = some (raw, rest))
    (start : Int) : readReport? literal? (reportText quotedRaw start) = some (start, raw) := by
  have hback (front middle : List Char) : between? front [] (front ++ middle) = some middle := by
    rw [between?_eq_some_iff, List.append_nil]
  have hends : Json.Ends [] := by simp [Json.Ends]
  have hstart := Json.integer?_decimal start hends
  rw [List.append_nil] at hstart
  unfold reportText
  simp only [readReport?, hback, h, hstart, Option.bind_eq_bind, Option.bind_some, if_true]

/-- A report is the listing of its lines. -/
theorem toList_reportWith {α : Type} {isIllegal : α → Bool} {line body : α → List Char}
    (h : ∀ a, line a = body a ++ ['\n']) (tokens : List α) :
    (reportWith isIllegal line tokens).1.toList =
      joinLines ((tokens.filter isIllegal).map body) := by
  rw [reportWith, String.toList_ofList, joinLines, List.flatMap_map]
  exact congrArg (List.flatMap · _) (funext h)

namespace Extent

/-- The line that reports an illegal token, without its end. -/
def illegalReport (e : Extent) : List Char :=
  reportText (Quoted.encode e.token.raw.toList) e.start

theorem illegalLine_eq (e : Extent) : e.illegalLine = e.illegalReport ++ ['\n'] :=
  reportLine_eq _ e.start

theorem toList_reportIllegal (es : List Extent) :
    (reportIllegal es).1.toList = joinLines ((es.filter isIllegal).map illegalReport) := by
  rw [reportIllegal, toList_reportWith illegalLine_eq]

theorem readIllegal?_illegalReport (e : Extent) : readIllegal? e.illegalReport = some e.place := by
  rw [readIllegal?, illegalReport, readReport?_reportText (Quoted.literal?_encode _),
    Option.map_some, String.ofList_toList, place]

end Extent

namespace Passage

def illegalReport (p : Passage) : List Char := reportText p.raw.quoted p.start

theorem illegalLine_eq (p : Passage) : p.illegalLine = p.illegalReport ++ ['\n'] :=
  reportLine_eq _ p.start

theorem toList_reportIllegal (ps : List Passage) :
    (reportIllegal ps).1.toList = joinLines ((ps.filter isIllegal).map illegalReport) := by
  rw [reportIllegal, toList_reportWith illegalLine_eq]

theorem readIllegal?_illegalReport {p : Passage} (h : p.raw.IsText ∨ ∃ s, p.raw = [.surrogate s]) :
    readIllegal? p.illegalReport = some p.place :=
  readReport?_reportText (Document.literal?_quoted h) p.start

end Passage

/-! ## One list of illegal tokens -/

/-- Where the log puts a number that is too large, and its digits. -/
def Overflow.place (o : Overflow) : Int × Document := (o.offset, .ofString o.digits)

/-- The tokens of a document report the same illegal ones as its log and the lines of its report,
in the same order. -/
structure IllegalListsAgree (d : Document) (ps : List Passage) : Prop where
  log : d.cursor.overflows.map Overflow.place =
    (ps.filter Passage.isOverflow).map Passage.place
  messages : d.cursor.overflows.map Overflow.message =
    ((ps.filter Passage.isOverflow).map Passage.place).map fun place =>
      "integer literal " ++ String.ofList place.2.scrubbed ++ " at offset " ++ toString place.1 ++
        " overflows int64"
  stray_single : ∀ p ∈ ps, p.isStray = true → ∃ c, p.raw = [c] ∧ c.classes.digit = false
  report : (splitLines (Passage.reportIllegal ps).1.toList).mapM Passage.readIllegal? =
    some ((ps.filter Passage.isIllegal).map Passage.place)
  count_eq : (Passage.reportIllegal ps).2 = (ps.filter Passage.isIllegal).length
  raw_ne_nil : ∀ p ∈ ps, p.isIllegal = true → p.raw ≠ []

/-- The diagnostics that are published for a document, whatever event leaves it with its text,
report the illegal ones of its tokens, in the same order. -/
structure DiagnosticsAgree (d : Document) (ps : List Passage) (ds : List Diagnostic) : Prop where
  published : ∀ (w : Workspace) (event : Event), (w.after event).text event.uri = d →
    w.publish event = .ok ⟨event.uri, ds⟩
  overflows : ds.filterMap (Diagnostic.place? Diagnostic.overflowRaw? d) =
    (ps.filter Passage.isOverflow).map Passage.place
  strays : ds.filterMap (Diagnostic.place? Diagnostic.strayRaw? d) =
    (ps.filter Passage.isStray).map Passage.place
  length_eq : ds.length = (ps.filter Passage.isIllegal).length
  count_ne_zero_iff : (Passage.reportIllegal ps).2 ≠ 0 ↔ ds ≠ []

/-- Whatever reports the illegal tokens of a document gives the same ones. -/
def IllegalReportsAgree (d : Document) : Prop :=
  ∃ ps ds, d.passages = .ok ps ∧ IllegalListsAgree d ps ∧ DiagnosticsAgree d ps ds

theorem overflows_of_extents {text : String} {es : List Extent} (h : extents text = .ok es) :
    (Cursor.ofText text.toList).overflows =
      (es.filter Extent.isOverflow).map fun e => ⟨e.token.raw, e.start.toNat⟩ := by
  obtain ⟨d, hd, ht, hnone, rfl⟩ := exists_isMunched_of_extents h
  have hdrop : text.toList.toArray.toList.drop 0 = d.text := ht.symm
  have heof : [(⟨text.length, text.length, .eof⟩ : Extent)].filter Extent.isOverflow = [] := rfl
  rw [Cursor.ofText_eq, Cursor.overflows_atOffset hd hdrop hnone, List.filter_append, heof,
    List.append_nil]
  exact filterMap_eq_map_filter fun _ _ => rfl

section

variable {d : Document} {es : List Extent} {e : Extent}

/-- An illegal token that starts with no digit is a single code point. -/
theorem Passage.exists_raw_of_stray (he : e.Marks d.scrubbed)
    (hlex : Lexeme e.token.raw.toList e.token) (hk : e.token.kind = .illegal)
    (hd : e.token.raw.toList.head?.any Char.isDigit = false) :
    ∃ c, (ofExtent d e).raw = [c] ∧ c.classes.digit = false := by
  obtain ⟨c, hraw, hc⟩ := hlex.exists_of_stray hk hd
  have hscrubbed := scrubbed_raw he
  rw [hraw, Document.scrubbed, List.map_eq_singleton_iff] at hscrubbed
  obtain ⟨point, hpoint, rfl⟩ := hscrubbed
  exact ⟨point, hpoint, by rw [← CodePoint.ofChar_scrub]; exact hc⟩

/-- The illegal tokens of one sort are found among the illegal extents. -/
theorem Passage.filter_illegal (sort : Passage → Bool) (d : Document) (es : List Extent) :
    (es.map (ofExtent d)).filter (fun p => sort p && p.isIllegal) =
      ((es.filter Extent.isIllegal).filter fun e => sort (ofExtent d e)).map (ofExtent d) := by
  rw [List.filter_map, List.filter_filter]
  rfl

theorem Passage.isOverflow_ofExtent (h : d.cursor.extents = .ok es) (he : e ∈ es) :
    (ofExtent d e).isOverflow = e.isOverflow := by
  show ((ofExtent d e).startsWithDigit && e.isIllegal) = (e.startsWithDigit && e.isIllegal)
  cases hk : e.isIllegal with
  | false => rw [Bool.and_false, Bool.and_false]
  | true =>
    rw [startsWithDigit_ofExtent (Document.marks_of_mem_extents h he hk).1]
    rfl

/-- The numbers that are too large, as they are listed in the extents. -/
theorem filter_isOverflow (h : d.cursor.extents = .ok es) :
    (es.map (Passage.ofExtent d)).filter Passage.isOverflow =
      (es.filter Extent.isOverflow).map (Passage.ofExtent d) := by
  rw [List.filter_map]
  exact congrArg (List.map _) (List.filter_congr fun e he => Passage.isOverflow_ofExtent h he)

/-- The log gives the places of the numbers that are too large. -/
theorem map_place_overflows (h : d.cursor.extents = .ok es) :
    d.cursor.overflows.map Overflow.place =
      ((es.map (Passage.ofExtent d)).filter Passage.isOverflow).map Passage.place := by
  have htext := h
  rw [← Document.extents_scrubbed] at htext
  have hlog := overflows_of_extents htext
  rw [String.toList_ofList] at hlog
  rw [Document.cursor, hlog, filter_isOverflow h, List.map_map, List.map_map]
  refine List.map_congr_left fun e he => ?_
  obtain ⟨he, hoverflow⟩ := List.mem_filter.1 he
  obtain ⟨hk, hdigit⟩ := Extent.isOverflow_iff.1 hoverflow
  obtain ⟨hmarks, hlex⟩ := Document.marks_of_mem_extents h he (decide_eq_true hk)
  rw [Function.comp_apply, Function.comp_apply, Overflow.place, Passage.place,
    Passage.raw_of_digits hmarks hlex hdigit, Int.toNat_of_nonneg hmarks.start_nonneg]
  rfl

/-- The raw text of an illegal token is a text, or a single surrogate. -/
theorem isText_or_surrogate (h : d.cursor.extents = .ok es) (he : e ∈ es)
    (hk : e.isIllegal = true) :
    (Passage.ofExtent d e).raw.IsText ∨ ∃ s, (Passage.ofExtent d e).raw = [.surrogate s] := by
  obtain ⟨hmarks, hlex⟩ := Document.marks_of_mem_extents h he hk
  cases hd : e.token.raw.toList.head?.any Char.isDigit with
  | true =>
    rw [Passage.raw_of_digits hmarks hlex hd]
    exact .inl (Document.isText_ofChars _)
  | false =>
    obtain ⟨c, hc, -⟩ := Passage.exists_raw_of_stray hmarks hlex (of_decide_eq_true hk) hd
    cases c with
    | char c =>
      rw [hc]
      exact .inl (Document.isText_ofChars [c])
    | surrogate s => exact .inr ⟨s, hc⟩

theorem illegalListsAgree_of_extents (h : d.cursor.extents = .ok es) :
    IllegalListsAgree d (es.map (.ofExtent d)) := by
  have hlog := map_place_overflows h
  have hfilter : (es.map (Passage.ofExtent d)).filter Passage.isIllegal =
      (es.filter Extent.isIllegal).map (.ofExtent d) := List.filter_map
  refine ⟨hlog, ?_, ?_, ?_, rfl, ?_⟩
  · rw [← hlog, List.map_map]
    refine List.map_congr_left fun o _ => ?_
    rw [Function.comp_apply, Overflow.place, Document.ofString, Document.scrubbed_ofChars,
      String.ofList_toList]
    rfl
  · intro p hp hs
    obtain ⟨e, he, rfl⟩ := List.mem_map.1 hp
    rw [Passage.isStray, Bool.and_eq_true, Bool.not_eq_true'] at hs
    obtain ⟨hmarks, hlex⟩ := Document.marks_of_mem_extents h he hs.2
    rw [Passage.startsWithDigit_ofExtent hmarks] at hs
    exact Passage.exists_raw_of_stray hmarks hlex (of_decide_eq_true hs.2) hs.1
  · rw [Passage.toList_reportIllegal, splitLines_joinLines
      (List.forall_mem_map.2 fun p _ => oneLine_reportText (Document.oneLine_quoted p.raw) p.start)]
    refine mapM_read_map_write fun p hp => Passage.readIllegal?_illegalReport ?_
    rw [hfilter] at hp
    obtain ⟨e, he, rfl⟩ := List.mem_map.1 hp
    exact isText_or_surrogate h (List.mem_filter.1 he).1 (List.mem_filter.1 he).2
  · intro p hp hk hraw
    obtain ⟨e, he, rfl⟩ := List.mem_map.1 hp
    obtain ⟨hmarks, hlex⟩ := Document.marks_of_mem_extents h he hk
    have hscrubbed := Passage.scrubbed_raw hmarks
    rw [hraw] at hscrubbed
    exact hlex.shape.ne_nil hscrubbed.symm

theorem diagnosticsAgree_of_extents {text : List Char}
    (h : (Document.ofChars text).cursor.extents = .ok es) :
    DiagnosticsAgree (.ofChars text) (es.map (.ofExtent (.ofChars text)))
      ((es.filter Extent.isIllegal).map (Diagnostic.ofExtent text)) := by
  have hmarks : ∀ e ∈ es.filter Extent.isIllegal, e.Marks text := fun e he => by
    have := (Document.marks_of_mem_extents h (List.mem_filter.1 he).1 (List.mem_filter.1 he).2).1
    rwa [Document.scrubbed_ofChars] at this
  have hoverflow : (es.map (Passage.ofExtent (.ofChars text))).filter Passage.isOverflow =
      ((es.filter Extent.isIllegal).filter fun e =>
        (Passage.ofExtent (.ofChars text) e).startsWithDigit).map (.ofExtent (.ofChars text)) :=
    Passage.filter_illegal Passage.startsWithDigit (.ofChars text) es
  have hstray : (es.map (Passage.ofExtent (.ofChars text))).filter Passage.isStray =
      ((es.filter Extent.isIllegal).filter fun e =>
        !(Passage.ofExtent (.ofChars text) e).startsWithDigit).map (.ofExtent (.ofChars text)) :=
    Passage.filter_illegal (fun p => !p.startsWithDigit) (.ofChars text) es
  have hfilter : (es.map (Passage.ofExtent (.ofChars text))).filter Passage.isIllegal =
      (es.filter Extent.isIllegal).map (.ofExtent (.ofChars text)) := List.filter_map
  refine ⟨fun w event htext => ?_, ?_, ?_, ?_, ?_⟩
  · rw [Workspace.publish_eq_of_text htext, diagnose_ofChars h]
    rfl
  · rw [List.filterMap_map, hoverflow, List.map_map]
    exact filterMap_eq_map_filter fun e he => Diagnostic.overflow_place?_ofExtent (hmarks e he)
  · rw [List.filterMap_map, hstray, List.map_map]
    exact filterMap_eq_map_filter fun e he => Diagnostic.stray_place?_ofExtent (hmarks e he)
  · rw [hfilter, List.length_map, List.length_map]
  · rw [Passage.reportIllegal, reportWith, hfilter, Ne, List.length_eq_zero_iff,
      List.map_eq_nil_iff, Ne, List.map_eq_nil_iff]

end

/-- What is published for a document are its diagnostics. -/
theorem DiagnosticsAgree.diagnose_eq {d : Document} {ps : List Passage} {ds : List Diagnostic}
    (h : DiagnosticsAgree d ps ds) : diagnose d = .ok ds := by
  have htext : (Workspace.empty.after (.opened "" d)).text "" = d := rfl
  have hpublished := h.published .empty (.opened "" d) htext
  rw [Workspace.publish_eq_of_text htext] at hpublished
  cases hds : diagnose d with
  | ok ds' =>
    rw [hds] at hpublished
    rw [(Publication.mk.inj (Except.ok.inj hpublished)).2]
  | error error =>
    rw [hds] at hpublished
    contradiction

/-- For a document without runs of digits that are too long, the log, the tokens and the lines of
the report give the same illegal tokens. What is published for the document does so as well
exactly when the document is a text: behind a surrogate there is no position. -/
theorem illegal_reports_agree_iff (d : Document) (h : NumeralsFit d.scrubbed) :
    (∃ ps, d.passages = .ok ps ∧ IllegalListsAgree d ps) ∧ (IllegalReportsAgree d ↔ d.IsText) := by
  obtain ⟨es, hes⟩ := Document.exists_extents h
  have hpassages := Document.passages_of_extents hes
  have hlists := illegalListsAgree_of_extents hes
  refine ⟨⟨_, hpassages, hlists⟩, ?_, fun htext => ?_⟩
  · rintro ⟨ps, ds, -, -, hagree⟩
    exact (exists_diagnose_iff.1 ⟨ds, hagree.diagnose_eq⟩).2
  · obtain ⟨cs, rfl⟩ := htext.exists_chars
    exact ⟨_, _, hpassages, hlists, diagnosticsAgree_of_extents hes⟩

/-- Two numbers that are too large with stray characters around them. -/
theorem illegal_reports_agree_strays :
    let d := Document.ofString "@99999999999999999999x 7\n€9223372036854775808"
    NumeralsFit d.scrubbed ∧ d.IsText ∧
      ∃ ps ds, diagnose d = .ok ds ∧
        (ps.filter Passage.isIllegal).map Passage.place =
          [(0, .ofString "@"), (1, .ofString "99999999999999999999"), (25, .ofString "€"),
            (26, .ofString "9223372036854775808")] ∧
        (Passage.reportIllegal ps).2 = 4 ∧
        IllegalListsAgree d ps ∧ DiagnosticsAgree d ps ds := by
  intro d
  have hfit : NumeralsFit d.scrubbed := .of_length_le (by decide)
  have htext : d.IsText := Document.isText_ofChars _
  obtain ⟨ps, ds, hps, hlists, hagree⟩ := (illegal_reports_agree_iff d hfit).2.2 htext
  have hread : d.passages =
      .ok [⟨0, 1, .illegal, .ofString "@"⟩, ⟨1, 21, .illegal, .ofString "99999999999999999999"⟩,
        ⟨21, 22, .ident, .ofString "x"⟩, ⟨23, 24, .int, .ofString "7"⟩,
        ⟨25, 26, .illegal, .ofString "€"⟩, ⟨26, 45, .illegal, .ofString "9223372036854775808"⟩,
        ⟨45, 45, .eof, []⟩] := by decide +kernel
  obtain rfl := Except.ok.inj (hps.symm.trans hread)
  exact ⟨hfit, htext, _, ds, hagree.diagnose_eq, by decide, by decide, hlists, hagree⟩

/-- A single surrogate is reported, but nothing is published for it. -/
theorem not_illegal_reports_agree_surrogate :
    let s : Surrogate := ⟨0xD800, by decide⟩
    let d : Document := [.surrogate s]
    NumeralsFit d.scrubbed ∧
      d.passages = .ok [⟨0, 1, .illegal, d⟩, ⟨1, 1, .eof, []⟩] ∧
      Passage.reportIllegal [⟨0, 1, .illegal, d⟩, ⟨1, 1, .eof, []⟩] =
        ("error: illegal token \x27\\ud800\x27 at offset 0\n", 1) ∧
      Workspace.empty.publish (.opened "a" d) = .error (.unencodable ⟨s, 0⟩) ∧
      ¬IllegalReportsAgree d := by
  intro s d
  have hdiagnose : diagnose d = .error (.unencodable ⟨s, 0⟩) := by decide +kernel
  refine ⟨.of_length_le (by decide), by decide +kernel, by decide +kernel, ?_, ?_⟩
  · have htext : (Workspace.empty.after (.opened "a" d)).text "a" = d := rfl
    rw [Workspace.publish_eq_of_text htext, hdiagnose]
    rfl
  · rintro ⟨ps, ds, -, -, hagree⟩
    exact absurd (hdiagnose.symm.trans hagree.diagnose_eq) (by simp)

end TokenStream
