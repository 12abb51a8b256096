import TokenStream.Proofs.CommandLine
import TokenStream.Proofs.Run

/-!
# What a run answers

The answer of a run in an ordinary setting is a report of why there are no settings, a report
of why the input has no text, or the dump of its tokens, and only the dump is ever written to a
file. Main statement: `run_answers_iff`, that there is such an answer unless the config file
cannot be looked up.
-/

namespace TokenStream.Program

variable {t : FileTree} {a : CommandLine.Arguments} {s : Settings} {text : List Char}
  {es : List Extent}

/-- A command line without debug mode, in a tree where its files are as they may be expected to
be: the config file, if there is one, is a document all of whose integers can be written, or a
malformed one; the input has no run of digits that is too long; and the output can be written. -/
structure Ordinary (t : FileTree) (a : CommandLine.Arguments) : Prop where
  debug : a.debug = false
  config : ∀ bytes, t.read (configPathOf a).toString = .ok bytes →
    ∃ text, bytes = Utf8.encode text ∧
      ((∃ members, Toml.read text = .ok members ∧
          Toml.Value.areWritableMembers members = true) ∨
        ∃ cause place, Toml.read text = .error (.malformed cause place))
  input : ∀ text, t.HasText (Path.ofString a.input).toString text → NumeralsFit text
  output : ∀ path, pathOf? a.output? = some path → t.Writable path

/-- Where an output goes: all of it to standard output, or all of it to a file, and then only the
place that the path of the file leads to has changed. -/
inductive Delivered (t : FileTree) (output : String) : Option Path → String → FileTree → Prop
  | printed : Delivered t output none output t
  | saved {path : Path} {after : FileTree} {place : List String}
      (hsaved : after.read path.toString = .ok (Utf8.encode output.toList))
      (hplace : after.resolve path.toString = .ok place)
      (hothers : ∀ other, other ≠ place → after.node? other = t.node? other) :
      Delivered t output (some path) "" after

/-- What a run gives and leaves behind: its settings are refused, or its input has no text, and
then there is a report and no file has changed; or the dump of its tokens is delivered, and only
the report of the illegal ones goes to standard error. -/
inductive Answers (t : FileTree) (a : CommandLine.Arguments) : Outcome → FileTree → Prop
  | refused {e : SettingsError} (h : settingsIn t a = .error e) (hc : ∀ c, e ≠ .crash c) :
      Answers t a ⟨"", "error: " ++ e.message ++ "\n", .status 2⟩ t
  | unread {s : Settings} {e : Source.Error} (h : settingsIn t a = .ok s)
      (he : Unread t s.input.toString e) :
      Answers t a ⟨"", Source.report e.message s.input.toString ++ "\n", .status 1⟩ t
  | listed {s : Settings} {text : List Char} {es : List Extent} {output stdout : String}
      {after : FileTree} (h : settingsIn t a = .ok s) (htext : t.HasText s.input.toString text)
      (hes : extents (.ofList text) = .ok es)
      (htokens : Source.tokensOfBytes (Utf8.encode text) = .ok (es.map Extent.token))
      (hdump : dump s (es.map Extent.token) = .ok output)
      (hdelivered : Delivered t output s.output? stdout after) :
      Answers t a ⟨stdout, reportOf s es, .status (statusOf s es)⟩ after

theorem isWritable_of_lookup {members : Toml.Members} {key : String} {v : Toml.Value}
    (h : Toml.Value.areWritableMembers members = true) (hv : members.lookup key = some v) :
    v.isWritable = true := by
  induction members with
  | nil => contradiction
  | cons m members ih =>
    obtain ⟨k, w⟩ := m
    rw [Toml.Value.areWritableMembers, Bool.and_eq_true] at h
    rw [List.lookup_cons] at hv
    split at hv
    · obtain rfl := Option.some.inj hv
      exact h.1
    · exact ih h.2 hv

theorem areWritableMembers_outputTable {members : Toml.Members}
    (h : Toml.Value.areWritableMembers members = true) :
    Toml.Value.areWritableMembers (outputTable members) = true := by
  rw [outputTable]
  split
  · rename_i output houtput
    have htable := isWritable_of_lookup h houtput
    rwa [Toml.Value.isWritable] at htable
  · rfl

theorem Ordinary.configHandled (h : Ordinary t a)
    (hlong : ¬t.TooLong (configPathOf a).toString) : ConfigHandled t (configPathOf a) where
  lookup := hlong
  utf8 bytes hread := by
    obtain ⟨text, htext, -⟩ := h.config bytes hread
    exact ⟨text, htext⟩
  numerals text htext error hread := by
    obtain ⟨other, hother, hdocument⟩ := h.config _ htext
    obtain rfl := Utf8.encode_inj hother
    rcases hdocument with ⟨members, hmembers, -⟩ | ⟨cause, place, hmalformed⟩
    · exact absurd (hread.symm.trans hmembers) (by simp)
    · exact absurd (hread.symm.trans hmalformed) (by simp)
  format v hformat := by
    obtain ⟨text, members, htext, hread, hv⟩ := hformat
    obtain ⟨other, hother, hdocument⟩ := h.config _ htext
    obtain rfl := Utf8.encode_inj hother
    rcases hdocument with ⟨others, hothers, hwritable⟩ | ⟨cause, place, hmalformed⟩
    · obtain rfl := Except.ok.inj (hread.symm.trans hothers)
      exact .inr (isWritable_of_lookup (areWritableMembers_outputTable hwritable) hv)
    · exact absurd (hread.symm.trans hmalformed) (by simp)

theorem tokensOfBytes_encode (h : extents (.ofList text) = .ok es) :
    Source.tokensOfBytes (Utf8.encode text) = .ok (es.map Extent.token) := by
  rw [Source.tokensOfBytes, Source.decode_bytes_eq_ok_iff.2 rfl]
  show (Cursor.ofText text).tokens.mapError _ = _
  rw [Cursor.tokens_eq_map_extents, ← extents_ofList, h]
  rfl

theorem traceOf_of_not_debug (h : s.debug = false) : traceOf s text es = "" := by
  simp [traceOf, logOf, h]

theorem isNormal_of_pathOf? {name? : Option String} {path : Path} (h : pathOf? name? = some path) :
    path.IsNormal := by
  obtain ⟨name, -, rfl⟩ := Option.map_eq_some_iff.1 h
  exact Path.isNormal_ofString name

theorem Answers.ne_crash {outcome : Outcome} {after : FileTree} (h : Answers t a outcome after)
    (c : Crash) : settingsIn t a ≠ .error (.crash c) := by
  intro hcrash
  cases h with
  | refused hset hc => exact hc c (Except.error.inj (hset.symm.trans hcrash))
  | unread hset => exact absurd (hset.symm.trans hcrash) (by simp)
  | listed hset => exact absurd (hset.symm.trans hcrash) (by simp)

/-- The answer of a run whose input has a text. -/
theorem Ordinary.answers_of_hasText (h : Ordinary t a) (hset : settingsIn t a = .ok s)
    (htext : t.HasText s.input.toString text) :
    Answers t a (runWith t a).1 (runWith t a).2 := by
  obtain ⟨hinput, houtput, hdebug⟩ := paths_of_settings hset
  obtain ⟨es, hes⟩ := exists_extents_iff.2 (h.input text (hinput ▸ htext))
  obtain ⟨output, hdump⟩ := exists_dump (s := s) hes
  have hlisted {stdout : String} {after : FileTree} :
      Delivered t output s.output? stdout after →
        Answers t a ⟨stdout, reportOf s es, .status (statusOf s es)⟩ after :=
    .listed hset htext hes (tokensOfBytes_encode hes) hdump
  rw [runWith_of_extents hset htext hes hdump, traceOf_of_not_debug (hdebug.trans h.debug),
    String.empty_append]
  cases hpath : s.output? with
  | none =>
    rw [hpath] at hlisted
    exact hlisted .printed
  | some path =>
    rw [hpath] at hlisted houtput
    obtain ⟨after, hwrite⟩ := h.output path houtput.symm (Utf8.encode output.toList)
    obtain ⟨hsaved, place, hplace, hothers⟩ :=
      FileTree.read_write (isNormal_of_pathOf? houtput.symm) hwrite
    dsimp only
    rw [hwrite]
    exact hlisted (.saved hsaved hplace hothers)

/-- An ordinary run answers, unless its config file cannot be looked up. -/
theorem run_answers_iff {argv : List String} (hnull : ∀ w ∈ argv, FileTree.hasNull w = false)
    (hparse : CommandLine.parse argv = .ok a) (h : Ordinary t a) :
    Answers t a (run t argv).1 (run t argv).2 ↔ ¬t.TooLong (configPathOf a).toString := by
  rw [run_of_parse hparse]
  constructor
  · exact fun hanswers hlong => hanswers.ne_crash _ (settingsIn_eq_error_iff.2 (.tooLong hlong))
  · intro hlong
    have hhandled := configHandled_iff.1 (h.configHandled hlong)
    cases hset : settingsIn t a with
    | error e =>
      have hc : ∀ c, e ≠ .crash c := by
        rintro c rfl
        exact hhandled c (settingsIn_eq_error_iff.1 hset)
      rw [runWith_of_refused hset hc]
      exact .refused hset hc
    | ok s =>
      rcases hasText_or_unread t s.input.toString with ⟨text, htext⟩ | ⟨e, he⟩ | hinput
      · exact h.answers_of_hasText hset htext
      · rw [runWith_of_unread hset he]
        exact .unread hset he
      · rw [(paths_of_settings hset).1, FileTree.hasNull_toString_ofString
          (hnull _ (CommandLine.input_mem_of_parse hparse))] at hinput
        contradiction

/-- In strict mode, with a format from the config file and an output file. -/
theorem run_answers_strict :
    let t := FileTree.ofNodes ["w"] [(["w", "p.mk"], .file (Utf8.encode "x @".toList)),
      (["w", "monkeylex.toml"], .file (Utf8.encode "[output]\nformat = 'json'".toList))]
    let argv := ["p.mk", "--strict", "-o", "out"]
    ∃ a, (∀ w ∈ argv, FileTree.hasNull w = false) ∧ CommandLine.parse argv = .ok a ∧
      Ordinary t a ∧ ¬t.TooLong (configPathOf a).toString ∧
      Answers t a (run t argv).1 (run t argv).2 := by
  intro t argv
  obtain ⟨a, hparse, hinput, houtput, hdebug, hconfig⟩ : ∃ a, CommandLine.parse argv = .ok a ∧
      a.input = "p.mk" ∧ a.output? = some "out" ∧ a.debug = false ∧
      t.read (configPathOf a).toString = .ok (Utf8.encode "[output]\nformat = 'json'".toList) :=
    ⟨⟨"p.mk", some "out", .none, some true, none, false⟩, by decide +kernel, rfl, rfl, rfl,
      by decide +kernel⟩
  have hnull : ∀ w ∈ argv, FileTree.hasNull w = false := by decide +kernel
  have hlong : ¬t.TooLong (configPathOf a).toString := fun h => h.read_ne_ok _ hconfig
  have hread : t.read (Path.ofString "p.mk").toString = .ok (Utf8.encode "x @".toList) := by
    decide +kernel
  obtain ⟨members, hdocument, hmembers⟩ := exists_ok_of_any (by decide +kernel :
    (Toml.read "[output]\nformat = 'json'".toList).toOption.any Toml.Value.areWritableMembers)
  have htarget : t.target (Path.ofString "out") = .ok ["w", "out"] := by decide +kernel
  have hordinary : Ordinary t a := by
    refine ⟨hdebug, fun bytes hbytes => ?_, fun text htext => ?_, fun path hpath => ?_⟩
    · exact ⟨_, Except.ok.inj (hbytes.symm.trans hconfig), .inl ⟨members, hdocument, hmembers⟩⟩
    · rw [hinput] at htext
      rw [← FileTree.HasText.eq hread htext]
      exact .of_length_le (by decide)
    · rw [houtput] at hpath
      obtain rfl : Path.ofString "out" = path := Option.some.inj hpath
      exact FileTree.writable_of_target (by decide +kernel) htarget
  exact ⟨a, hnull, hparse, hordinary, hlong, (run_answers_iff hnull hparse hordinary).2 hlong⟩

/-- No file can have a name of 256 characters, but a config file that is named so leaves the
run without an answer. -/
theorem not_answers_of_long_name :
    let t := FileTree.ofNodes ["w"] [(["w", "p.mk"], .file (Utf8.encode "x".toList))]
    let argv := ["p.mk", "--config", .ofList (List.replicate 256 'c')]
    ∃ a, (∀ w ∈ argv, FileTree.hasNull w = false) ∧ CommandLine.parse argv = .ok a ∧
      Ordinary t a ∧ ¬Answers t a (run t argv).1 (run t argv).2 := by
  intro t argv
  generalize hname : String.ofList (List.replicate 256 'c') = name
  have hchars : ∀ c ∈ name.toList, c = 'c' := by
    rw [← hname, String.toList_ofList]
    exact fun c hc => List.eq_of_mem_replicate hc
  have hnull : FileTree.hasNull name = false :=
    FileTree.hasNull_eq_false_iff.2 fun h => absurd (hchars _ h) (by decide)
  have hnulls : ∀ w ∈ argv, FileTree.hasNull w = false := by
    simp only [argv, hname, List.forall_mem_cons, hnull]
    decide +kernel
  obtain ⟨a, hparse, hinput, houtput, hdebug, hconfig⟩ : ∃ a, CommandLine.parse argv = .ok a ∧
      a.input = "p.mk" ∧ a.output? = none ∧ a.debug = false ∧
      configPathOf a = Path.ofString name := by
    refine ⟨⟨"p.mk", none, .none, none, some name, false⟩, ?_, rfl, rfl, rfl, ?_⟩
    · subst hname
      decide +kernel
    · have hne : name ≠ "" := by
        subst hname
        decide +kernel
      simp [configPathOf, pathOf?, configPath, Option.filter, hne]
  have hlong : t.TooLong (configPathOf a).toString := by
    rw [hconfig]
    refine FileTree.tooLong_of_name (by decide +kernel) (fun h => ?_) hnull ?_
    · exact absurd (hchars _ h) (by decide)
    · subst hname
      decide +kernel
  have hread : t.read (Path.ofString "p.mk").toString = .ok (Utf8.encode "x".toList) := by
    decide +kernel
  have hordinary : Ordinary t a := by
    refine ⟨hdebug, fun bytes hbytes => (hlong.read_ne_ok bytes hbytes).elim,
      fun text htext => ?_, fun path hpath => absurd hpath (by simp [pathOf?, houtput])⟩
    rw [hinput] at htext
    rw [← FileTree.HasText.eq hread htext]
    exact .of_length_le (by decide)
  exact ⟨a, hnulls, hparse, hordinary,
    fun h => h.ne_crash _ (settingsIn_eq_error_iff.2 (.tooLong hlong))⟩

end TokenStream.Program
