import TokenStream.Proofs.Answers

/-!
# Merging the options

The settings of a run are merged from its command line and the table of its config file, which
are asked one after the other (`Merged`). The table counts for no more than the format and the
strict mode that it asks for: trees whose tables ask for the same give the same settings. Main
statement: `optionsMerged_iff`, that the options are merged so unless the config file cannot be
looked up, or the separator is given in place of a format.
-/

namespace TokenStream.Program

/-! ## Config files -/

/-- Where the config file of a command line is looked for: where it says, or beside the input. -/
inductive ConfigAt (a : CommandLine.Arguments) : Path → Prop
  | named {name : String} (h : a.config? = some name) (hne : name ≠ "") :
      ConfigAt a (.ofString name)
  | beside (h : ∀ name ∈ a.config?, name = "") :
      ConfigAt a ((Path.ofString a.input).parent.child "monkeylex.toml")

/-- The table of the config file at a path. It is empty if there is no such file. -/
inductive ConfigTable (t : FileTree) (path : Path) : Toml.Members → Prop
  | absent (h : ∀ bytes, t.read path.toString ≠ .ok bytes) : ConfigTable t path []
  | document {text : List Char} {members : Toml.Members} (h : t.HasText path.toString text)
      (hread : Toml.read text = .ok members) : ConfigTable t path members

def MalformedConfig (t : FileTree) (path : Path) : Prop :=
  ∃ text cause place, t.HasText path.toString text ∧
    Toml.read text = .error (.malformed cause place)

/-- The config file is as it may be expected to be: it is absent, a document all of whose
integers can be written, or a malformed one. -/
def OrdinaryConfig (t : FileTree) (path : Path) : Prop :=
  (∃ members, ConfigTable t path members ∧ Toml.Value.areWritableMembers members = true) ∨
    MalformedConfig t path

/-- The table `output` of a config gives a value for a key. -/
def Gives (members : Toml.Members) (key : String) (v : Toml.Value) : Prop :=
  ∃ output, members.lookup "output" = some (.table output) ∧ output.lookup key = some v

/-- The format that a config asks for. -/
inductive FormatOf (members : Toml.Members) : Format → Prop
  | given {f : Format} (h : Gives members "format" (.text f.name)) : FormatOf members f
  | text (h : ∀ v, ¬Gives members "format" v) : FormatOf members .text

/-- The strict mode that a config asks for; a value that is no boolean counts for nothing. -/
inductive StrictOf (members : Toml.Members) : Bool → Prop
  | given {b : Bool} (h : Gives members "strict" (.boolean b)) : StrictOf members b
  | off (h : ∀ b, ¬Gives members "strict" (.boolean b)) : StrictOf members false

/-- Two configs ask for the same. -/
structure SameConfig (members members' : Toml.Members) : Prop where
  format : ∀ f, FormatOf members f ↔ FormatOf members' f
  strict : ∀ b, StrictOf members b ↔ StrictOf members' b

/-- The config file is malformed, or gives something for the format that is none. -/
def FaultyConfig (t : FileTree) (path : Path) : Prop :=
  MalformedConfig t path ∨
    ∃ members, ConfigTable t path members ∧ ∃ v, Gives members "format" v ∧ ¬NamesFormat v

/-- The settings are those of the command line, then of the config, then the usual ones. -/
structure Merged (a : CommandLine.Arguments) (members : Toml.Members) (s : Settings) : Prop where
  input : s.input = .ofString a.input
  output : ∀ path, s.output? = some path ↔
    ∃ name, a.output? = some name ∧ name ≠ "" ∧ path = .ofString name
  debug : s.debug = a.debug
  format : ∃ f, s.format? = some f ∧
    (a.format = .format f ∨ a.format = .none ∧ FormatOf members f)
  strict : a.strict? = some s.strict ∨ a.strict? = none ∧ StrictOf members s.strict

/-- The settings of a command line are refused if the config file is faulty, whatever format the
command line asks for, and merged otherwise. -/
structure OptionsMerged (t : FileTree) (a : CommandLine.Arguments) (path : Path) : Prop where
  refused : (∃ e, settingsIn t a = .error e ∧ ∀ c, e ≠ .crash c) ↔ FaultyConfig t path
  merged : ¬FaultyConfig t path → ∃ members s, ConfigTable t path members ∧
    settingsIn t a = .ok s ∧ Merged a members s

variable {t t' : FileTree} {a : CommandLine.Arguments} {path : Path}
  {members members' : Toml.Members} {c c' : Config} {s : Settings}

theorem ConfigAt.eq (h : ConfigAt a path) : configPathOf a = path := by
  cases h with
  | named hname hne => simp [configPathOf, pathOf?, configPath, hname, Option.filter, hne]
  | beside hblank =>
    cases hconfig : a.config? with
    | none =>
      rw [configPathOf, hconfig]
      rfl
    | some name =>
      obtain rfl := hblank name hconfig
      rw [configPathOf, hconfig]
      rfl

theorem ConfigTable.eq (h : ConfigTable t path members) (h' : ConfigTable t path members') :
    members = members' := by
  cases h with
  | absent hnone =>
    cases h' with
    | absent => rfl
    | document htext => exact absurd htext (hnone _)
  | document htext hread =>
    cases h' with
    | absent hnone => exact absurd htext (hnone _)
    | document htext' hread' =>
      obtain rfl := htext.eq htext'
      exact Except.ok.inj (hread.symm.trans hread')

theorem MalformedConfig.not_configTable (h : MalformedConfig t path) :
    ¬ConfigTable t path members := by
  obtain ⟨text, cause, place, htext, hread⟩ := h
  rintro (hnone | ⟨htext', hread'⟩)
  · exact hnone _ htext
  · obtain rfl := htext.eq htext'
    exact absurd (hread.symm.trans hread') (by simp)

/-! ## What a config asks for -/

theorem gives_iff {key : String} {v : Toml.Value} :
    Gives members key v ↔ (outputTable members).lookup key = some v := by
  rw [Gives, outputTable]
  split
  · rename_i output houtput
    simp [houtput]
  · rename_i hnone
    constructor
    · rintro ⟨output, houtput, -⟩
      exact absurd houtput (hnone output)
    · intro h
      contradiction

theorem Gives.eq {key : String} {v w : Toml.Value} (h : Gives members key v)
    (h' : Gives members key w) : v = w :=
  Option.some.inj ((gives_iff.1 h).symm.trans (gives_iff.1 h'))

theorem FormatOf.eq {f g : Format} (h : FormatOf members f) (h' : FormatOf members g) :
    f = g := by
  cases h with
  | given hf =>
    cases h' with
    | given hg => exact Format.name_injective (Toml.Value.text.inj (hf.eq hg))
    | text hnone => exact absurd hf (hnone _)
  | text hnone =>
    cases h' with
    | given hg => exact absurd hg (hnone _)
    | text => rfl

theorem StrictOf.eq {b d : Bool} (h : StrictOf members b) (h' : StrictOf members d) : b = d := by
  cases h with
  | given hb =>
    cases h' with
    | given hd => exact Toml.Value.boolean.inj (hb.eq hd)
    | off hnone => exact absurd hb (hnone _)
  | off hnone =>
    cases h' with
    | given hd => exact absurd hd (hnone _)
    | off => rfl

/-- A config that asks for a format gives nothing else for it. -/
theorem FormatOf.namesFormat {f : Format} (h : FormatOf members f) {v : Toml.Value}
    (hv : Gives members "format" v) : NamesFormat v := by
  cases h with
  | given hf => exact ⟨f, hv.eq hf⟩
  | text hnone => exact absurd hv (hnone v)

theorem eq_of_formatOfValue {v : Toml.Value} {f : Format} (h : formatOfValue v = .ok f) :
    v = .text f.name := by
  by_cases hnames : NamesFormat v
  · obtain ⟨g, rfl⟩ := hnames
    simp only [formatOfValue, Format.ofName?_eq_some_iff.2 rfl] at h
    obtain rfl := Except.ok.inj h
    rfl
  · rw [formatOfValue_of_not_namesFormat hnames] at h
    split at h <;> contradiction

/-- A config that gives nothing wrong for the format is read. -/
theorem exists_config (h : ∀ v, Gives members "format" v → NamesFormat v) :
    ∃ c, configOf members = .ok c := by
  cases hconfig : configOf members with
  | ok c => exact ⟨c, rfl⟩
  | error e =>
    obtain ⟨v, hv, hformat⟩ := configOf_eq_error_iff.1 hconfig
    obtain ⟨f, hf⟩ := formatOfValue_of_namesFormat (h v (gives_iff.2 hv))
    rw [hf] at hformat
    contradiction

theorem formatOf_config (h : configOf members = .ok c) :
    FormatOf members (c.format?.getD .text) := by
  rw [configOf, bind_eq_ok_iff] at h
  obtain ⟨format?, hformat, h⟩ := h
  obtain rfl := Except.ok.inj h
  cases hv : (outputTable members).lookup "format" with
  | none =>
    rw [hv] at hformat
    obtain rfl : none = format? := Except.ok.inj hformat
    refine .text fun v hgives => ?_
    rw [gives_iff, hv] at hgives
    contradiction
  | some v =>
    rw [hv, Option.mapM_some] at hformat
    cases hf : formatOfValue v with
    | error e =>
      rw [hf] at hformat
      contradiction
    | ok f =>
      rw [hf] at hformat
      obtain rfl : some f = format? := Except.ok.inj hformat
      obtain rfl := eq_of_formatOfValue hf
      exact .given (gives_iff.2 hv)

theorem strictOf_config (h : configOf members = .ok c) :
    StrictOf members (c.strict?.getD false) := by
  rw [configOf, bind_eq_ok_iff] at h
  obtain ⟨format?, -, h⟩ := h
  obtain rfl := Except.ok.inj h
  dsimp only
  split
  · rename_i b hb
    exact .given (gives_iff.2 hb)
  · rename_i hnone
    exact .off fun b hgives => hnone b (gives_iff.1 hgives)

/-! ## The settings -/

theorem settings_of_readConfig {bytes? : Option (List UInt8)}
    (h : readConfig (configPathOf a) bytes? = .ok members) :
    settings a (.ok bytes?) = (configOf members).map (merge a) := by
  show (readConfig (configPathOf a) bytes? >>= fun members =>
    configOf members >>= fun c => pure (merge a c)) = _
  rw [h]
  show (configOf members >>= fun c => pure (merge a c)) = _
  cases configOf members <;> rfl

theorem settingsIn_of_configTable (hlong : ¬t.TooLong (configPathOf a).toString)
    (h : ConfigTable t (configPathOf a) members) :
    settingsIn t a = (configOf members).map (merge a) := by
  rw [settingsIn]
  cases h with
  | absent hnone =>
    -- a path that leads to no file is still looked up, which fails if it is too long
    have hbytes : configBytes t (configPathOf a) = .ok none := by
      cases hbytes : configBytes t (configPathOf a) with
      | error e => exact absurd (configBytes_eq_error_iff.1 hbytes).1 hlong
      | ok bytes? =>
        cases bytes? with
        | none => rfl
        | some bytes => exact absurd (configBytes_eq_some_iff.1 hbytes) (hnone bytes)
    rw [hbytes]
    exact settings_of_readConfig rfl
  | document htext hread =>
    rw [configBytes_eq_some_iff.2 htext]
    refine settings_of_readConfig ?_
    rw [readConfig_encode, hread]

theorem not_tooLong_of_settingsIn (h : settingsIn t a = .ok s) :
    ¬t.TooLong (configPathOf a).toString := by
  intro hlong
  exact absurd (h.symm.trans (settingsIn_eq_error_iff.2 (.tooLong hlong))) (by simp)

theorem merged_merge (hconfig : configOf members = .ok c) (hblank : a.format ≠ .blank) :
    Merged a members (merge a c) where
  input := rfl
  output path := by
    simp only [merge, pathOf?, Option.map_eq_some_iff, Option.filter_eq_some_iff, bne_iff_ne,
      and_assoc, eq_comm (a := path)]
  debug := rfl
  format := by
    cases h : a.format with
    | none => exact ⟨_, by simp [merge, h], .inr ⟨rfl, formatOf_config hconfig⟩⟩
    | blank => exact absurd h hblank
    | format f => exact ⟨f, by simp [merge, h], .inl rfl⟩
  strict := by
    cases h : a.strict? with
    | none =>
      refine .inr ⟨rfl, ?_⟩
      simpa [merge, h] using strictOf_config hconfig
    | some b => exact .inl (by simp [merge, h])

/-- Configs that are read alike ask for the same. -/
theorem SameConfig.of_config (hc : configOf members = .ok c) (hc' : configOf members' = .ok c) :
    SameConfig members members' where
  format _ := ⟨fun h => h.eq (formatOf_config hc) ▸ formatOf_config hc',
    fun h => h.eq (formatOf_config hc') ▸ formatOf_config hc⟩
  strict _ := ⟨fun h => h.eq (strictOf_config hc) ▸ strictOf_config hc',
    fun h => h.eq (strictOf_config hc') ▸ strictOf_config hc⟩

theorem SameConfig.merge_eq (h : SameConfig members members') (hc : configOf members = .ok c)
    (hc' : configOf members' = .ok c') (a : CommandLine.Arguments) : merge a c' = merge a c := by
  have hformat := ((h.format _).1 (formatOf_config hc)).eq (formatOf_config hc')
  have hstrict := ((h.strict _).1 (strictOf_config hc)).eq (strictOf_config hc')
  rw [merge, merge, hformat, hstrict]

/-- Nothing but the config that is asked for matters. -/
theorem SameConfig.settingsIn_eq (h : SameConfig members members')
    (htable : ConfigTable t (configPathOf a) members)
    (htable' : ConfigTable t' (configPathOf a) members')
    (hlong' : ¬t'.TooLong (configPathOf a).toString) (hs : settingsIn t a = .ok s) :
    settingsIn t' a = .ok s := by
  rw [settingsIn_of_configTable (not_tooLong_of_settingsIn hs) htable] at hs
  cases hc : configOf members with
  | error e =>
    rw [hc] at hs
    contradiction
  | ok c =>
    rw [hc] at hs
    obtain rfl : merge a c = s := Except.ok.inj hs
    obtain ⟨c', hc'⟩ := exists_config fun v hv =>
      ((h.format _).1 (formatOf_config hc)).namesFormat hv
    rw [settingsIn_of_configTable hlong' htable', hc', ← h.merge_eq hc hc' a]
    rfl

/-! ## Refusals -/

theorem OrdinaryConfig.configRefused_iff (h : OrdinaryConfig t path) :
    ConfigRefused t path ↔ FaultyConfig t path := by
  refine or_congr_right ⟨?_, ?_⟩
  · rintro ⟨v, ⟨text, members, htext, hread, hv⟩, hnames, -⟩
    exact ⟨members, .document htext hread, v, gives_iff.2 hv, hnames⟩
  · rintro ⟨members, htable, v, hgives, hnames⟩
    have hv := gives_iff.1 hgives
    cases htable with
    | absent => contradiction
    | document htext hread =>
      refine ⟨v, ⟨_, _, htext, hread, hv⟩, hnames, ?_⟩
      rcases h with ⟨others, hothers, hwritable⟩ | hmalformed
      · obtain rfl := hothers.eq (.document htext hread)
        exact isWritable_of_lookup (areWritableMembers_outputTable hwritable) hv
      · exact absurd (.document htext hread) hmalformed.not_configTable

/-- A config that is not faulty has a table that gives nothing wrong for the format. -/
theorem OrdinaryConfig.exists_table (h : OrdinaryConfig t path) (hfault : ¬FaultyConfig t path) :
    ∃ members, ConfigTable t path members ∧ ∀ v, Gives members "format" v → NamesFormat v := by
  rcases h with ⟨members, htable, -⟩ | hmalformed
  · refine ⟨members, htable, fun v hv => ?_⟩
    by_contra hnames
    exact hfault (.inr ⟨members, htable, v, hv, hnames⟩)
  · exact absurd (.inl hmalformed) hfault

theorem not_faultyConfig_of_absent (hnone : ∀ bytes, t.read path.toString ≠ .ok bytes) :
    ¬FaultyConfig t path := by
  rintro (⟨text, cause, place, htext, -⟩ | ⟨members, htable, v, hgives, -⟩)
  · exact hnone _ htext
  · obtain rfl := htable.eq (.absent hnone)
    exact absurd (gives_iff.1 hgives) (by simp [outputTable])

/-- Options that are merged are not those of a file that cannot be looked up, which would be an
empty config. -/
theorem OptionsMerged.not_tooLong (h : OptionsMerged t a (configPathOf a)) :
    ¬t.TooLong (configPathOf a).toString := by
  intro hlong
  obtain ⟨members, s, -, hs, -⟩ := h.merged (not_faultyConfig_of_absent hlong.read_ne_ok)
  exact not_tooLong_of_settingsIn hs hlong

theorem OptionsMerged.faulty_of_blank (h : OptionsMerged t a path) (hblank : a.format = .blank) :
    FaultyConfig t path := by
  by_contra hfault
  obtain ⟨members, s, -, -, hmerged⟩ := h.merged hfault
  obtain ⟨f, -, hformat | ⟨hformat, -⟩⟩ := hmerged.format
  · exact absurd (hblank.symm.trans hformat) (by simp)
  · exact absurd (hblank.symm.trans hformat) (by simp)

/-- With an ordinary config the options are merged, unless the config file cannot be looked up or
the separator stands in place of a format. Another tree whose config asks for the same gives the
same settings. -/
theorem optionsMerged_iff (hpath : ConfigAt a path) (h : OrdinaryConfig t path) :
    (OptionsMerged t a path ↔
      ¬t.TooLong path.toString ∧ (a.format = .blank → FaultyConfig t path)) ∧
    ∀ (t' : FileTree) (members members' : Toml.Members) (s : Settings),
      ConfigTable t path members → ConfigTable t' path members' → SameConfig members members' →
      ¬t'.TooLong path.toString → settingsIn t a = .ok s → settingsIn t' a = .ok s := by
  obtain rfl := hpath.eq
  refine ⟨⟨fun hmerged => ⟨hmerged.not_tooLong, hmerged.faulty_of_blank⟩, ?_⟩, ?_⟩
  · rintro ⟨hlong, hblank⟩
    refine ⟨?_, fun hfault => ?_⟩
    · simp only [settingsIn_eq_error_iff, ← configRefused_iff, h.configRefused_iff]
    · obtain ⟨members, htable, hnames⟩ := h.exists_table hfault
      obtain ⟨c, hc⟩ := exists_config hnames
      refine ⟨members, merge a c, htable, ?_, merged_merge hc fun hb => hfault (hblank hb)⟩
      rw [settingsIn_of_configTable hlong htable, hc]
      rfl
  · intro t' members members' s htable htable' hsame hlong' hs
    exact hsame.settingsIn_eq htable htable' hlong' hs

/-- A format from the config file and a strict mode that is no boolean there, in two trees that
ask for them in other words. -/
theorem optionsMerged_of_json :
    let t := FileTree.ofNodes ["w"] [(["w", "monkeylex.toml"],
      .file (Utf8.encode "[output]\nformat = 'json'\nstrict = 1".toList))]
    let t' := FileTree.ofNodes ["w"] [(["w", "monkeylex.toml"],
      .file (Utf8.encode "output.format = 'json'".toList)), (["w", "p.mk"], .file [])]
    let a : CommandLine.Arguments := ⟨"p.mk", none, .none, none, none, true⟩
    let s : Settings := ⟨.ofString "p.mk", none, some .json, false, true⟩
    ∃ path, CommandLine.parse ["p.mk", "--debug"] = .ok a ∧ ConfigAt a path ∧
      OrdinaryConfig t path ∧ OptionsMerged t a path ∧ settingsIn t a = .ok s ∧
      settingsIn t' a = .ok s := by
  intro t t' a s
  have hparse : CommandLine.parse ["p.mk", "--debug"] = .ok a := by decide +kernel
  obtain ⟨path, hpath, hread, hread'⟩ : ∃ path, ConfigAt a path ∧
      t.read path.toString = .ok (Utf8.encode "[output]\nformat = 'json'\nstrict = 1".toList) ∧
      t'.read path.toString = .ok (Utf8.encode "output.format = 'json'".toList) :=
    ⟨_, .beside (by simp [a]), by decide +kernel, by decide +kernel⟩
  obtain ⟨members, hdocument, hconfig⟩ := exists_ok_of_any (p := fun members =>
    configOf members = .ok ⟨some .json, none⟩ && Toml.Value.areWritableMembers members)
    (by decide +kernel : (Toml.read "[output]\nformat = 'json'\nstrict = 1".toList).toOption.any _)
  obtain ⟨members', hdocument', hconfig'⟩ := exists_ok_of_any (p := fun members =>
    configOf members = .ok ⟨some .json, none⟩)
    (by decide +kernel : (Toml.read "output.format = 'json'".toList).toOption.any _)
  rw [Bool.and_eq_true, decide_eq_true_iff] at hconfig
  rw [decide_eq_true_iff] at hconfig'
  have htable : ConfigTable t path members := .document hread hdocument
  have htable' : ConfigTable t' path members' := .document hread' hdocument'
  have hordinary : OrdinaryConfig t path := .inl ⟨members, htable, hconfig.2⟩
  have hsame : SameConfig members members' := .of_config hconfig.1 hconfig'
  have hs : settingsIn t a = .ok s := by decide +kernel
  have hlong : ¬t.TooLong path.toString := fun h => h.read_ne_ok _ hread
  have hlong' : ¬t'.TooLong path.toString := fun h => h.read_ne_ok _ hread'
  obtain ⟨hmerged, hindependent⟩ := optionsMerged_iff hpath hordinary
  exact ⟨path, hparse, hpath, hordinary, hmerged.2 ⟨hlong, fun h => absurd h (by simp [a])⟩, hs,
    hindependent t' _ _ s htable htable' hsame hlong' hs⟩

/-- No file can have a name of 256 characters, so the config is empty if it is named so, but the
options are not merged. -/
theorem not_optionsMerged_of_long_name :
    let t := FileTree.ofNodes ["w"] [(["w", "p.mk"], .file (Utf8.encode "x".toList))]
    let argv := ["p.mk", "--config", .ofList (List.replicate 256 'c')]
    ∃ a path, CommandLine.parse argv = .ok a ∧ ConfigAt a path ∧
      (∀ bytes, t.read path.toString ≠ .ok bytes) ∧ OrdinaryConfig t path ∧
      ¬OptionsMerged t a path := by
  intro t argv
  generalize hname : String.ofList (List.replicate 256 'c') = name
  have hchars : ∀ c ∈ name.toList, c = 'c' := by
    rw [← hname, String.toList_ofList]
    exact fun c hc => List.eq_of_mem_replicate hc
  have hparse : CommandLine.parse argv = .ok ⟨"p.mk", none, .none, none, some name, false⟩ := by
    subst hname
    decide +kernel
  have hpath : ConfigAt ⟨"p.mk", none, .none, none, some name, false⟩ (.ofString name) := by
    refine .named rfl ?_
    subst hname
    decide +kernel
  have hlong : t.TooLong (Path.ofString name).toString := by
    refine FileTree.tooLong_of_name (by decide +kernel) (fun h => ?_) ?_ ?_
    · exact absurd (hchars _ h) (by decide)
    · exact FileTree.hasNull_eq_false_iff.2 fun h => absurd (hchars _ h) (by decide)
    · subst hname
      decide +kernel
  refine ⟨_, _, hparse, hpath, hlong.read_ne_ok, .inl ⟨[], .absent hlong.read_ne_ok, rfl⟩, ?_⟩
  intro hmerged
  rw [← hpath.eq] at hmerged hlong
  exact hmerged.not_tooLong hlong

/-- Without a config file the separator in place of a format leaves the settings without one. -/
theorem not_optionsMerged_of_separator :
    let t := FileTree.ofNodes ["w"] [(["w", "p.mk"], .file (Utf8.encode "x".toList))]
    ∃ a path, CommandLine.parse ["--format=--", "p.mk"] = .ok a ∧ ConfigAt a path ∧
      OrdinaryConfig t path ∧ (settingsIn t a).map Settings.format? = .ok none ∧
      ¬OptionsMerged t a path := by
  intro t
  let a : CommandLine.Arguments := ⟨"p.mk", none, .blank, none, none, false⟩
  have hparse : CommandLine.parse ["--format=--", "p.mk"] = .ok a := by decide +kernel
  have hread : t.read ((Path.ofString "p.mk").parent.child "monkeylex.toml").toString =
      .error (.system (PathError.notFound.on "monkeylex.toml")) := by decide +kernel
  have hnone (bytes) : t.read ((Path.ofString "p.mk").parent.child "monkeylex.toml").toString ≠
      .ok bytes := by simp [hread]
  refine ⟨a, _, hparse, .beside (by simp [a]), .inl ⟨[], .absent hnone, rfl⟩, by decide +kernel, ?_⟩
  exact fun hmerged => not_faultyConfig_of_absent hnone (hmerged.faulty_of_blank rfl)

end TokenStream.Program
