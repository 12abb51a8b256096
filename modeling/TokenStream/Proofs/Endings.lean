import TokenStream.Proofs.Run

/-!
# Which runs end with a status

A run that is carried out ends with a status or breaks off. What breaks it off is a config file
whose path is too long, that is no text, or with an integer that is too long to be read or shown;
an input with a null character in its path, or with too long a numeral; or an output that cannot
be written. Main statement: `run_status_iff`.
-/

namespace TokenStream.Program

variable {t : FileTree} {a : CommandLine.Arguments} {s : Settings}

theorem statusOf_le (s : Settings) (es : List Extent) : statusOf s es ≤ 1 := by
  rw [statusOf]
  split <;> omega

/-- Nothing about the input or the output ends the program. -/
structure InputHandled (t : FileTree) (s : Settings) : Prop where
  path : FileTree.hasNull s.input.toString = false
  numerals : ∀ text, t.HasText s.input.toString text → NumeralsFit text
  output : ∀ text, t.HasText s.input.toString text →
    ∀ path, s.output? = some path → t.Writable path

/-- A run whose input has a text ends with the status 0 or 1 if no numeral of the text is too
long and the output can be written, and breaks off otherwise. -/
theorem inputHandled_or_crash_of_hasText (h : settingsIn t a = .ok s) {text : List Char}
    (htext : t.HasText s.input.toString text) :
    (InputHandled t s ∧ ∃ n ≤ 1, (runWith t a).1.ending = .status n) ∨
      ¬InputHandled t s ∧ ∃ c, (runWith t a).1.ending = .crash c := by
  cases hes : extents (.ofList text) with
  | error e =>
    rw [runWith_of_overlong h htext hes]
    refine .inr ⟨fun hhandled => ?_, _, rfl⟩
    obtain ⟨es, hok⟩ := exists_extents_iff.2 (hhandled.numerals text htext)
    exact absurd (hes.symm.trans hok) (by simp)
  | ok es =>
    have hnumerals : ∀ other, t.HasText s.input.toString other → NumeralsFit other :=
      fun other hother => htext.eq hother ▸ exists_extents_iff.1 ⟨es, hes⟩
    have hhandled (hwritable : ∀ path, s.output? = some path → t.Writable path) :
        InputHandled t s :=
      ⟨(FileTree.read_eq_ok_iff.1 htext).1, hnumerals, fun _ _ => hwritable⟩
    obtain ⟨output, hdump⟩ := exists_dump (s := s) hes
    rw [runWith_of_extents h htext hes hdump]
    cases houtput : s.output? with
    | none => exact .inl ⟨hhandled (by simp [houtput]), _, statusOf_le s es, rfl⟩
    | some path =>
      dsimp only
      cases hwrite : t.write path (Utf8.encode output.toList) with
      | ok t' =>
        have hwritable : ∀ other, s.output? = some other → t.Writable other := by
          intro other hother
          obtain rfl := Option.some.inj (houtput.symm.trans hother)
          exact FileTree.writable_of_write hwrite
        exact .inl ⟨hhandled hwritable, _, statusOf_le s es, rfl⟩
      | error e =>
        refine .inr ⟨fun hhandled => ?_, _, rfl⟩
        obtain ⟨t', hok⟩ := hhandled.output text htext path houtput (Utf8.encode output.toList)
        exact absurd (hwrite.symm.trans hok) (by simp)

/-- With settings, the run ends with the status 0 or 1, or the input or the output ends it. -/
theorem inputHandled_or_crash (h : settingsIn t a = .ok s) :
    (InputHandled t s ∧ ∃ n ≤ 1, (runWith t a).1.ending = .status n) ∨
      ¬InputHandled t s ∧ ∃ c, (runWith t a).1.ending = .crash c := by
  rcases hasText_or_unread t s.input.toString with ⟨text, htext⟩ | ⟨e, he⟩ | hnull
  · exact inputHandled_or_crash_of_hasText h htext
  · rw [runWith_of_unread h he]
    exact .inl ⟨⟨he.hasNull, fun text htext => (he.not_hasText htext).elim,
      fun text htext => (he.not_hasText htext).elim⟩, 1, Nat.le_refl 1, rfl⟩
  · rw [runWith_of_hasNull h hnull]
    exact .inr ⟨fun hhandled => absurd hhandled.path (by simp [hnull]), _, rfl⟩

/-- Which runs end with a status, and which of them with the status 2: a command line that is
carried out ends with one unless its config file, its input or its output ends the program, and
it ends with the status 2 exactly when the config file is refused. -/
theorem run_status_iff (t : FileTree) (argv : List String) :
    ((∃ n ≤ 2, (run t argv).1.ending = .status n) ↔
      ∃ a, CommandLine.parse argv = .ok a ∧ ConfigHandled t (configPathOf a) ∧
        ∀ s, settingsIn t a = .ok s → InputHandled t s) ∧
    ((run t argv).1.ending = .status 2 ↔
      ∃ a, CommandLine.parse argv = .ok a ∧ ConfigRefused t (configPathOf a)) := by
  rw [run]
  cases hparse : CommandLine.parse argv with
  | error h => cases h <;> simp [haltOutcome]
  | ok a =>
    simp only [Except.ok.injEq, exists_eq_left', configHandled_iff, configRefused_iff,
      ← settingsIn_eq_error_iff]
    cases hset : settingsIn t a with
    | error e =>
      by_cases hc : ∃ c, e = .crash c
      · obtain ⟨c, rfl⟩ := hc
        rw [runWith_of_crash hset]
        simp
      · rw [not_exists] at hc
        rw [runWith_of_refused hset hc]
        simpa [eq_comm] using hc
    | ok s =>
      rcases inputHandled_or_crash hset with ⟨hhandled, n, hn, hstatus⟩ | ⟨hnot, c, hcrash⟩
      · have hle : n ≤ 2 := by omega
        have hne : n ≠ 2 := by omega
        simp [hstatus, hhandled, hle, hne]
      · simpa [hcrash] using hnot

/-- A config file of one byte that is no text breaks the run off. -/
theorem not_status_of_undecodable_config :
    let t := FileTree.ofNodes ["w"] [(["w", "p.mk"], .file (Utf8.encode "x".toList)),
      (["w", "monkeylex.toml"], .file [0xFF])]
    ∃ a, CommandLine.parse ["p.mk"] = .ok a ∧ t.read (configPathOf a).toString = .ok [0xFF] ∧
      ∀ n, (run t ["p.mk"]).1.ending ≠ .status n := by
  intro t
  have hrun : (run t ["p.mk"]).1.ending = .crash (.notUtf8 ⟨0, 1, 0xFF, .invalidStart⟩) := by
    decide +kernel
  exact ⟨⟨"p.mk", none, .none, none, none, false⟩, by decide +kernel, by decide +kernel,
    fun n => by simp [hrun]⟩

end TokenStream.Program
