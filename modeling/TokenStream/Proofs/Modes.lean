import TokenStream.Proofs.Run

/-!
# Debug mode and strict mode

Two modes say more on standard error than a run says without them. Debug mode puts what the
lexer has to say in front: the overflows that it found, and the trace of the tokens if it came to
the end of the text. Strict mode puts the report of the illegal tokens behind the output, and
tells by the status whether there are any; before the output is written it makes no difference.
Neither changes the output, and neither saves a run from breaking off or makes it break off.
Main statements: `runWith_debug`, `runWith_strict_of_lists` and `modes_keep_result`.
-/

namespace TokenStream

/-! ## What the modes add -/

/-- What the lexer has to say of a text in debug mode. -/
def lexerLog (text : List Char) : String :=
  String.join ((Cursor.ofText text).overflows.map Program.overflowLine) ++
    match extents (.ofList text) with
    | .ok es => trace es
    | .error _ => ""

namespace Program

/-- What the lexer has to say when reading the input gives the bytes or an error. -/
def inputLog (input : Except FileError (List UInt8)) : String :=
  match input with
  | .error _ => ""
  | .ok bytes =>
    match Source.decode (.bytes bytes) with
    | .error _ => ""
    | .ok text => lexerLog text

/-- What the lexer has to say in a run, if it comes to that. -/
def debugLog (t : FileTree) (a : CommandLine.Arguments) : String :=
  match settingsIn t a with
  | .error _ => ""
  | .ok s => inputLog (t.read s.input.toString)

/-- The run lists these extents: the lexer comes to the end of the text, and the output is
written. -/
inductive Lists (t : FileTree) (a : CommandLine.Arguments) (es : List Extent) : Prop
  | intro {s : Settings} {text : List Char} {output : String} (settings : settingsIn t a = .ok s)
      (input : t.HasText s.input.toString text) (lexed : extents (.ofList text) = .ok es)
      (dumped : dump s (es.map Extent.token) = .ok output)
      (written : ∀ path, s.output? = some path →
        ∃ t', t.write path (Utf8.encode output.toList) = .ok t')

/-- Puts a log in front of what goes to standard error. -/
def Outcome.logged (log : String) (o : Outcome) : Outcome := { o with stderr := log ++ o.stderr }

def Plan.logged (log : String) : Plan → Plan
  | .done outcome => .done (outcome.logged log)
  | .save path text stderr outcome => .save path text (log ++ stderr) (outcome.logged log)

/-- Puts the report of illegal tokens behind what goes to standard error, and tells by the status
whether there are any. -/
def Outcome.reported (es : List Extent) (o : Outcome) : Outcome :=
  { o with
    stderr := o.stderr ++ (reportIllegal es).1
    ending := .status (if (reportIllegal es).1 = "" then 0 else 1) }

/-! ## The settings -/

section

variable (t : FileTree) (a : CommandLine.Arguments)

/-- The settings are those of the config file and of the command line, which goes before it. -/
theorem settingsIn_eq_map :
    settingsIn t a = merge a <$> (loadConfig t (configPathOf a) >>= configOf) := by
  simp only [settingsIn, settings, loadConfig, bind_assoc, map_eq_pure_bind]

theorem settingsIn_debug (b : Bool) :
    settingsIn t { a with debug := b } = (settingsIn t a).map fun s => { s with debug := b } := by
  rw [settingsIn_eq_map, settingsIn_eq_map]
  show _ <$> (loadConfig t (configPathOf a) >>= configOf) = _
  cases loadConfig t (configPathOf a) >>= configOf <;> rfl

theorem settingsIn_strict (b : Bool) :
    settingsIn t { a with strict? := some b } =
      (settingsIn t a).map fun s => { s with strict := b } := by
  rw [settingsIn_eq_map, settingsIn_eq_map]
  show _ <$> (loadConfig t (configPathOf a) >>= configOf) = _
  cases loadConfig t (configPathOf a) >>= configOf <;> rfl

end

section

variable {t : FileTree} {a b : CommandLine.Arguments} {s : Settings}

/-- Without settings, the rest of the command line does not count. -/
theorem runWith_congr_of_error {e : SettingsError} (ha : settingsIn t a = .error e)
    (hb : settingsIn t b = .error e) : runWith t a = runWith t b := by
  rw [settingsIn] at ha hb
  rw [runWith, runWith, plan, plan, ha, hb]
  cases e <;> rfl

/-! ## Debug mode -/

theorem planText_debug (s : Settings) (text : List Char) :
    planText { s with debug := true } text =
      (planText { s with debug := false } text).logged (lexerLog text) := by
  cases hes : extents (.ofList text) with
  | error e =>
    rw [planText_of_refused hes, planText_of_refused hes, lexerLog, hes]
    simp [Plan.logged, Outcome.logged, logOf]
  | ok es =>
    obtain ⟨output, hdump⟩ := exists_dump (s := s) hes
    have hlog : traceOf { s with debug := true } text es =
        lexerLog text ++ traceOf { s with debug := false } text es := by
      simp [traceOf, logOf, lexerLog, hes]
    -- the dump does not depend on the mode, so one serves for both plans
    have hplan (b : Bool) := planText_of_extents (s := { s with debug := b }) hes hdump
    rw [hplan, hplan, hlog, String.append_assoc]
    cases s.output? <;> rfl

theorem planInput_debug (s : Settings) (input : Except FileError (List UInt8)) :
    planInput { s with debug := true } input =
      (planInput { s with debug := false } input).logged (inputLog input) := by
  cases input with
  | error e => cases e <;> simp [planInput, inputLog, Plan.logged, Outcome.logged]
  | ok bytes =>
    rw [planInput, planInput, inputLog]
    dsimp only
    cases Source.decode (.bytes bytes) with
    | error e => simp [Plan.logged, Outcome.logged]
    | ok text => exact planText_debug s text

theorem debugLog_of_hasText {text : List Char} (h : settingsIn t a = .ok s)
    (htext : t.HasText s.input.toString text) : debugLog t a = lexerLog text := by
  rw [debugLog, h]
  dsimp only
  rw [show t.read s.input.toString = .ok (Utf8.encode text) from htext, inputLog,
    Source.decode_bytes_eq_ok_iff.2 rfl]

theorem carryOut_logged (t : FileTree) (log : String) (p : Plan) :
    carryOut t (p.logged log) = ((carryOut t p).1.logged log, (carryOut t p).2) := by
  cases p with
  | done outcome => rfl
  | save path text stderr outcome =>
    rw [Plan.logged, carryOut, carryOut]
    cases t.write path (Utf8.encode text.toList) <;> rfl

/-- Debug mode puts the log of the lexer in front, and changes nothing else. -/
theorem runWith_debug (t : FileTree) (a : CommandLine.Arguments) :
    runWith t { a with debug := true } =
      ((runWith t { a with debug := false }).1.logged (debugLog t a),
        (runWith t { a with debug := false }).2) := by
  have hset := settingsIn_debug t a
  cases h : settingsIn t a with
  | error e =>
    simp only [h] at hset
    rw [runWith_congr_of_error (hset true) (hset false), debugLog, h]
    simp [Outcome.logged]
  | ok s =>
    simp only [h] at hset
    rw [runWith_of_settings (hset true), runWith_of_settings (hset false), debugLog, h,
      ← carryOut_logged, ← planInput_debug]

/-! ## Strict mode -/

theorem report_eq_empty_iff (es : List Extent) :
    (reportIllegal es).1 = "" ↔ (reportIllegal es).2 = 0 := by
  have hline (e : Extent) : e.illegalLine ≠ [] := by
    unfold Extent.illegalLine reportLine
    simp
  rw [reportIllegal, reportWith, List.length_eq_zero_iff, ← String.toList_inj, String.toList_ofList]
  simp [hline]

/-- When the extents are listed, strict mode puts the report behind, and tells by the status
whether there is one. -/
theorem runWith_strict_of_lists {es : List Extent} (h : Lists t a es) :
    (runWith t { a with strict? := some false }).1.ending = .status 0 ∧
      runWith t { a with strict? := some true } =
        ((runWith t { a with strict? := some false }).1.reported es,
          (runWith t { a with strict? := some false }).2) := by
  obtain ⟨hset, htext, hes, hdump, hwritten⟩ := h
  rename_i s text output
  have hrun (b : Bool) : runWith t { a with strict? := some b } = _ :=
    runWith_of_extents (s := { s with strict := b }) (by rw [settingsIn_strict, hset]; rfl) htext
      hes hdump
  have hlax : statusOf { s with strict := false } es = 0 := rfl
  have hstrict : statusOf { s with strict := true } es =
      if (reportIllegal es).1 = "" then 0 else 1 := by
    rw [statusOf_eq]
    simp only [report_eq_empty_iff, if_true]
  rw [hrun, hrun, hlax, hstrict]
  dsimp only
  cases hout : s.output? with
  | none =>
    refine ⟨rfl, ?_⟩
    simp [Outcome.reported, reportOf, traceOf, logOf]
  | some path =>
    obtain ⟨t', hwrite⟩ := hwritten path hout
    simp [hwrite, Outcome.reported, reportOf, traceOf, logOf]

/-- Otherwise strict mode makes no difference. -/
theorem runWith_strict_of_not_lists (h : ¬∃ es, Lists t a es) :
    runWith t { a with strict? := some true } = runWith t { a with strict? := some false } := by
  have hset := settingsIn_strict t a
  cases hs : settingsIn t a with
  | error e =>
    simp only [hs] at hset
    exact runWith_congr_of_error (hset true) (hset false)
  | ok s =>
    simp only [hs] at hset
    rcases hasText_or_unread t s.input.toString with ⟨text, htext⟩ | ⟨e, he⟩ | hnull
    · cases hes : extents (.ofList text) with
      | error e =>
        rw [runWith_of_overlong (hset true) htext hes, runWith_of_overlong (hset false) htext hes]
        rfl
      | ok es =>
        obtain ⟨output, hdump⟩ := exists_dump (s := s) hes
        have hrun (b : Bool) := runWith_of_extents (hset b) htext hes hdump
        rw [hrun, hrun]
        cases hout : s.output? with
        -- only an output file that cannot be written is left without a listing
        | none => exact absurd ⟨es, .intro hs htext hes hdump (by simp [hout])⟩ h
        | some path =>
          cases hwrite : t.write path (Utf8.encode output.toList) with
          | ok t' =>
            refine absurd ⟨es, .intro hs htext hes hdump fun other hother => ?_⟩ h
            obtain rfl := Option.some.inj (hout.symm.trans hother)
            exact ⟨t', hwrite⟩
          | error e => simp only [hout, hwrite]; rfl
    · rw [runWith_of_unread (hset true) he, runWith_of_unread (hset false) he]
    · rw [runWith_of_hasNull (hset true) hnull, runWith_of_hasNull (hset false) hnull]

end

/-! ## What the modes keep -/

/-- Two runs that write the same output and files, and which the same failure breaks off. -/
structure SameResult (on off : Outcome × FileTree) : Prop where
  stdout : on.1.stdout = off.1.stdout
  files : on.2 = off.2
  crash : ∀ c, on.1.ending = .crash c ↔ off.1.ending = .crash c

/-- What debug mode makes of a run. -/
structure DebugResult (log : String) (on off : Outcome × FileTree) : Prop
    extends SameResult on off where
  ending : on.1.ending = off.1.ending
  stderr : on.1.stderr = log ++ off.1.stderr

/-- What strict mode makes of a run, if it lists extents and if it lists none. -/
structure StrictResult (t : FileTree) (a : CommandLine.Arguments) (on off : Outcome × FileTree) :
    Prop extends SameResult on off where
  listed : ∀ es, Lists t a es →
    off.1.ending = .status 0 ∧
      on.1.ending = .status (if (reportIllegal es).1 = "" then 0 else 1) ∧
      on.1.stderr = off.1.stderr ++ (reportIllegal es).1
  unlisted : (¬∃ es, Lists t a es) → on.1.ending = off.1.ending ∧ on.1.stderr = off.1.stderr

theorem strictResult_runWith (t : FileTree) (a : CommandLine.Arguments) :
    StrictResult t a (runWith t { a with strict? := some true })
      (runWith t { a with strict? := some false }) := by
  by_cases h : ∃ es, Lists t a es
  · obtain ⟨es, hes⟩ := h
    obtain ⟨hoff, hon⟩ := runWith_strict_of_lists hes
    refine ⟨?_, fun es' hes' => ?_, fun hnone => absurd ⟨es, hes⟩ hnone⟩
    · rw [hon]
      generalize runWith t { a with strict? := some false } = off at hoff
      exact ⟨rfl, rfl, fun c => by simp [Outcome.reported, hoff]⟩
    · rw [(runWith_strict_of_lists hes').2]
      generalize runWith t { a with strict? := some false } = off at hoff
      exact ⟨hoff, rfl, rfl⟩
  · rw [runWith_strict_of_not_lists h]
    exact ⟨⟨rfl, rfl, fun _ => .rfl⟩, fun es hes => absurd ⟨es, hes⟩ h, fun _ => ⟨rfl, rfl⟩⟩

/-- A run is carried out twice, with a mode on and with it off. Debug mode puts the log of the
lexer in front of standard error and changes nothing else. Strict mode puts the report of the
illegal tokens behind it if the tokens are listed, with the status 1 in place of 0 if there are
any; otherwise it makes no difference. Whatever becomes of the run, the output and the files are
the same, and so is the failure that breaks it off. -/
theorem modes_keep_result (t : FileTree) (a : CommandLine.Arguments) :
    DebugResult (debugLog t a) (runWith t { a with debug := true })
        (runWith t { a with debug := false }) ∧
      StrictResult t a (runWith t { a with strict? := some true })
        (runWith t { a with strict? := some false }) := by
  refine ⟨?_, strictResult_runWith t a⟩
  rw [runWith_debug]
  generalize runWith t { a with debug := false } = off
  exact ⟨⟨rfl, rfl, fun _ => .rfl⟩, rfl, rfl⟩

/-- With a stray character and a number that is too large, debug mode adds four lines, and strict
mode two and the status 1. -/
theorem modes_keep_result_illegal :
    let t := FileTree.ofNodes ["w"]
      [(["w", "p.mk"], .file (Utf8.encode "@9223372036854775808".toList))]
    let a : CommandLine.Arguments := ⟨"p.mk", none, .none, none, none, false⟩
    (runWith t { a with debug := true }).1.stderr =
        "monkeylex.lexer: integer literal 9223372036854775808 at offset 1 overflows int64\n" ++
          ("     0      1  ILLEGAL    \x27@\x27\n" ++
            "     1     20  ILLEGAL    \x279223372036854775808\x27\n" ++
            "    20     20  EOF        \x27\x27\n") ∧
      (runWith t { a with strict? := some true }).1.ending = .status 1 ∧
      (runWith t { a with strict? := some true }).1.stderr =
        "error: illegal token \x27@\x27 at offset 0\n" ++
          "error: illegal token \x279223372036854775808\x27 at offset 1\n" := by
  intro t a
  have hset : settingsIn t a = .ok ⟨.ofString "p.mk", none, some .text, false, false⟩ := by
    decide +kernel
  have hinput : t.HasText (Path.ofString "p.mk").toString "@9223372036854775808".toList :=
    show t.read _ = _ by decide +kernel
  have hes : extents (.ofList "@9223372036854775808".toList) =
      .ok [⟨0, 1, ⟨.illegal, .absent, "@"⟩⟩,
        ⟨1, 20, ⟨.illegal, .absent, "9223372036854775808"⟩⟩, ⟨20, 20, .eof⟩] := by
    decide +kernel
  have hoverflows : (Cursor.ofText "@9223372036854775808".toList).overflows =
      [⟨"9223372036854775808", 1⟩] := by decide +kernel
  have hlog : String.join ([⟨"9223372036854775808", 1⟩].map overflowLine) =
      "monkeylex.lexer: integer literal 9223372036854775808 at offset 1 overflows int64\n" := by
    decide +kernel
  have htrace : trace [⟨0, 1, ⟨.illegal, .absent, "@"⟩⟩,
      ⟨1, 20, ⟨.illegal, .absent, "9223372036854775808"⟩⟩, ⟨20, 20, .eof⟩] =
      "     0      1  ILLEGAL    \x27@\x27\n" ++
        "     1     20  ILLEGAL    \x279223372036854775808\x27\n" ++
        "    20     20  EOF        \x27\x27\n" := by decide +kernel
  have hreport : (reportIllegal [⟨0, 1, ⟨.illegal, .absent, "@"⟩⟩,
      ⟨1, 20, ⟨.illegal, .absent, "9223372036854775808"⟩⟩, ⟨20, 20, .eof⟩]).1 =
      "error: illegal token \x27@\x27 at offset 0\n" ++
        "error: illegal token \x279223372036854775808\x27 at offset 1\n" := by decide +kernel
  have hquiet : (runWith t { a with debug := false }).1.stderr = "" := by decide +kernel
  have hlax : (runWith t { a with strict? := some false }).1.stderr = "" := by decide +kernel
  obtain ⟨⟨-, -, hdebug⟩, -, hlists, -⟩ := modes_keep_result t a
  obtain ⟨output, hdump⟩ := exists_dump hes
  obtain ⟨-, hstatus, hstrict⟩ := hlists _ (.intro hset hinput hes hdump (by simp))
  rw [debugLog_of_hasText hset hinput, lexerLog, hoverflows, hlog, hes, hquiet,
    String.append_empty] at hdebug
  dsimp only at hdebug
  rw [htrace] at hdebug
  rw [hreport, if_neg (by decide +kernel)] at hstatus
  rw [hlax, String.empty_append, hreport] at hstrict
  exact ⟨hdebug, hstatus, hstrict⟩

end Program

end TokenStream
