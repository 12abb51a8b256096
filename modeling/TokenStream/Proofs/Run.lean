import TokenStream.Proofs.JsonDump
import TokenStream.Proofs.NumeralData
import TokenStream.Proofs.Settings

/-!
# The stages of a run

What a run comes to, stage by stage: with or without settings, with or without a text in the
input, and with a text that is refused or not. The tokens of a text that is not refused can be
written in every format (`exists_dump`), so nothing stands between them and the output. Main
statements: `runWith_of_refused`, `runWith_of_unread` and `runWith_of_extents`.
-/

namespace TokenStream

/-! ## The text of the input -/

theorem maxInt_lt : maxInt < Nat.pow 10 Numeral.maxDigits := by decide +kernel

/-- The number of a lexeme is small enough to be written. -/
theorem Lexeme.isWritable_payload {raw : List Char} {t : Token} (h : Lexeme raw t) :
    t.payload.isWritable = true := by
  cases h with
  | number hd hl hv =>
    have hlt := maxInt_lt
    rw [Payload.isWritable, Numeral.isWritable, decide_eq_true_eq, Int.natAbs_natCast]
    omega
  | _ => rfl

theorem isWritable_of_extents {text : String} {es : List Extent} (h : extents text = .ok es) :
    ∀ t ∈ es.map Extent.token, t.payload.isWritable = true := by
  intro t ht
  obtain ⟨e, he, rfl⟩ := List.mem_map.1 ht
  rcases eof_or_lexeme h he with heof | hlexeme
  · rw [heof]
    rfl
  · exact hlexeme.isWritable_payload

namespace Program

/-- The tokens of a text can be written in every format. -/
theorem exists_dump {s : Settings} {text : String} {es : List Extent}
    (h : extents text = .ok es) : ∃ output, dump s (es.map Extent.token) = .ok output := by
  rw [dump]
  cases s.format?.getD .text with
  | text => exact ⟨_, rfl⟩
  | json => exact ⟨_, Dump.json_eq_ok_iff.2 ⟨isWritable_of_extents h, rfl⟩⟩

/-- Why the file at a path has no text. -/
inductive Unread (t : FileTree) (path : String) : Source.Error → Prop
  | unreadable {error : SystemError} (h : t.read path = .error (.system error)) :
      Unread t path (.unreadable error)
  | undecodable {bytes : List UInt8} {e : Source.Error} (h : t.read path = .ok bytes)
      (he : Source.decode (.bytes bytes) = .error e) : Unread t path e

/-- The file at a path has a text, or it is known why it has none, or the path is not tried. -/
theorem hasText_or_unread (t : FileTree) (path : String) :
    (∃ text, t.HasText path text) ∨ (∃ e, Unread t path e) ∨ FileTree.hasNull path = true := by
  cases h : t.read path with
  | error e =>
    cases e with
    | system error => exact .inr (.inl ⟨_, .unreadable h⟩)
    | nullInPath => exact .inr (.inr (FileTree.read_eq_nullInPath_iff.1 h))
  | ok bytes =>
    cases hdecode : Source.decode (.bytes bytes) with
    | error e => exact .inr (.inl ⟨e, .undecodable h hdecode⟩)
    | ok text =>
      obtain rfl := Source.decode_bytes_eq_ok_iff.1 hdecode
      exact .inl ⟨text, h⟩

/-! ## The stages of a run -/

/-- The overflows of a text on standard error. -/
def logOf (s : Settings) (text : List Char) : String :=
  if s.debug then String.join ((Cursor.ofText text).overflows.map overflowLine) else ""

/-- What goes to standard error before the output is written. -/
def traceOf (s : Settings) (text : List Char) (es : List Extent) : String :=
  if s.debug then logOf s text ++ trace es else logOf s text

/-- The report of the illegal tokens, in strict mode. -/
def reportOf (s : Settings) (es : List Extent) : String :=
  if s.strict then (reportIllegal es).1 else ""

/-- The status of a run that lists the tokens. -/
def statusOf (s : Settings) (es : List Extent) : Nat :=
  if s.strict = true ∧ ∃ e ∈ es, e.token.kind = .illegal then 1 else 0

/-- Carries out what is left of a run. -/
def carryOut (t : FileTree) : Plan → Outcome × FileTree
  | .done outcome => (outcome, t)
  | .save path text stderr outcome =>
    match t.write path (Utf8.encode text.toList) with
    | .ok t => (outcome, t)
    | .error e => (⟨"", stderr, .crash (.file e)⟩, t)

section

variable {t : FileTree} {a : CommandLine.Arguments} {s : Settings} {text : List Char}
  {es : List Extent}

theorem runWith_of_refused {e : SettingsError} (h : settingsIn t a = .error e)
    (hc : ∀ c, e ≠ .crash c) :
    runWith t a = (⟨"", "error: " ++ e.message ++ "\n", .status 2⟩, t) := by
  rw [settingsIn] at h
  cases e with
  | crash c => exact absurd rfl (hc c)
  | _ => rw [runWith, plan, h]

theorem runWith_of_crash {c : Crash} (h : settingsIn t a = .error (.crash c)) :
    runWith t a = (⟨"", "", .crash c⟩, t) := by
  rw [settingsIn] at h
  rw [runWith, plan, h]

/-- The settings keep what the command line says of files. -/
theorem paths_of_settings (h : settingsIn t a = .ok s) :
    s.input = .ofString a.input ∧ s.output? = pathOf? a.output? ∧ s.debug = a.debug := by
  simp only [settingsIn, settings, bind_eq_ok_iff] at h
  obtain ⟨bytes?, -, members, -, config, -, h⟩ := h
  obtain rfl := Except.ok.inj h
  exact ⟨rfl, rfl, rfl⟩

theorem runWith_of_settings (h : settingsIn t a = .ok s) :
    runWith t a = carryOut t (planInput s (t.read s.input.toString)) := by
  rw [(paths_of_settings h).1]
  rw [settingsIn] at h
  rw [runWith, plan, h]
  rfl

theorem planInput_of_unread {e : Source.Error} (h : Unread t s.input.toString e) :
    planInput s (t.read s.input.toString) =
      .done ⟨"", Source.report e.message s.input.toString ++ "\n", .status 1⟩ := by
  cases h with
  | unreadable hread => rw [hread, planInput]
  | undecodable hread hdecode =>
    rw [hread, planInput]
    dsimp only
    rw [hdecode]

theorem planInput_of_hasText (h : t.HasText s.input.toString text) :
    planInput s (t.read s.input.toString) = planText s text := by
  rw [show t.read s.input.toString = .ok (Utf8.encode text) from h, planInput]
  dsimp only
  rw [Source.decode_bytes_eq_ok_iff.2 rfl]

theorem extents_ofList (text : List Char) :
    extents (.ofList text) = (Cursor.ofText text).extents := by
  rw [extents, String.toList_ofList]

theorem planText_of_refused {e : Numeral.Error} (h : extents (.ofList text) = .error e) :
    planText s text = .done ⟨"", logOf s text, .crash (.numeral e)⟩ := by
  rw [extents_ofList] at h
  rw [planText, h]
  rfl

/-- The illegal tokens are counted in strict mode only. -/
theorem statusOf_eq (s : Settings) (es : List Extent) :
    statusOf s es = if (if s.strict then reportIllegal es else ("", 0)).2 = 0 then 0 else 1 := by
  have hcount : (reportIllegal es).2 = 0 ↔ ¬∃ e ∈ es, e.token.kind = .illegal := by
    simp [reportIllegal, reportWith, Extent.isIllegal]
  rw [statusOf]
  cases s.strict
  · rfl
  · by_cases h : ∃ e ∈ es, e.token.kind = .illegal <;> simp [hcount, h]

theorem planText_of_extents {output : String} (h : extents (.ofList text) = .ok es)
    (hdump : dump s (es.map Extent.token) = .ok output) :
    planText s text =
      match s.output? with
      | some path => .save path output (traceOf s text es)
          ⟨"", traceOf s text es ++ reportOf s es, .status (statusOf s es)⟩
      | none => .done ⟨output, traceOf s text es ++ reportOf s es, .status (statusOf s es)⟩ := by
  rw [extents_ofList] at h
  rw [planText, h]
  dsimp only
  rw [hdump, statusOf_eq, reportOf]
  cases s.strict <;> rfl

/-- The run of a text that is not refused. -/
theorem runWith_of_extents {output : String} (h : settingsIn t a = .ok s)
    (htext : t.HasText s.input.toString text) (hes : extents (.ofList text) = .ok es)
    (hdump : dump s (es.map Extent.token) = .ok output) :
    runWith t a =
      match s.output? with
      | none => (⟨output, traceOf s text es ++ reportOf s es, .status (statusOf s es)⟩, t)
      | some path =>
        match t.write path (Utf8.encode output.toList) with
        | .ok t' => (⟨"", traceOf s text es ++ reportOf s es, .status (statusOf s es)⟩, t')
        | .error e => (⟨"", traceOf s text es, .crash (.file e)⟩, t) := by
  rw [runWith_of_settings h, planInput_of_hasText htext, planText_of_extents hes hdump]
  cases s.output? <;> rfl

theorem runWith_of_unread {e : Source.Error} (h : settingsIn t a = .ok s)
    (he : Unread t s.input.toString e) :
    runWith t a = (⟨"", Source.report e.message s.input.toString ++ "\n", .status 1⟩, t) := by
  rw [runWith_of_settings h, planInput_of_unread he]
  rfl

/-- The run of an input whose path is not tried. -/
theorem runWith_of_hasNull (h : settingsIn t a = .ok s)
    (hnull : FileTree.hasNull s.input.toString = true) :
    runWith t a = (⟨"", "", .crash (.file .nullInPath)⟩, t) := by
  rw [runWith_of_settings h, FileTree.read_eq_nullInPath_iff.2 hnull]
  rfl

/-- The run of a text that is refused. -/
theorem runWith_of_overlong {e : Numeral.Error} (h : settingsIn t a = .ok s)
    (htext : t.HasText s.input.toString text) (hes : extents (.ofList text) = .error e) :
    runWith t a = (⟨"", logOf s text, .crash (.numeral e)⟩, t) := by
  rw [runWith_of_settings h, planInput_of_hasText htext, planText_of_refused hes]
  rfl

theorem Unread.not_hasText {path : String} {e : Source.Error} (h : Unread t path e)
    (htext : t.HasText path text) : False := by
  cases h with
  | unreadable hread => exact absurd (hread.symm.trans htext) (by simp)
  | undecodable hread hdecode =>
    obtain rfl := Except.ok.inj (hread.symm.trans htext)
    rw [Source.decode_bytes_eq_ok_iff.2 rfl] at hdecode
    contradiction

theorem Unread.hasNull {path : String} {e : Source.Error} (h : Unread t path e) :
    FileTree.hasNull path = false := by
  refine Bool.eq_false_iff.2 fun hnull => ?_
  have hnull : t.read path = .error .nullInPath := FileTree.read_eq_nullInPath_iff.2 hnull
  cases h with
  | unreadable hread => exact absurd (hread.symm.trans hnull) (by simp)
  | undecodable hread hdecode => exact absurd (hread.symm.trans hnull) (by simp)

theorem run_of_parse {argv : List String} (h : CommandLine.parse argv = .ok a) :
    run t argv = runWith t a := by
  rw [run, h]

end

end Program

end TokenStream
