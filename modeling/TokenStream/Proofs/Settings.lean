import TokenStream.Program.Run
import TokenStream.Proofs.FileTree
import TokenStream.Proofs.Utf8

/-!
# Why there are no settings

Everything that can be wrong with a config file, and what comes of it: some faults are
reported, others end the program. Main statements: there are no settings exactly because of
such a fault (`settingsIn_eq_error_iff`), and none of the faults ends the program exactly when
the config file is as `ConfigHandled` asks (`configHandled_iff`).
-/

namespace TokenStream

/-- Two texts with one encoding are the same text. -/
theorem Utf8.encode_inj {text other : List Char} (h : encode text = encode other) :
    text = other := by
  have hdecode := decode_encode text
  rw [h, decode_encode] at hdecode
  exact (Except.ok.inj hdecode).symm

/-- The file at a path holds a text. -/
def FileTree.HasText (t : FileTree) (path : String) (text : List Char) : Prop :=
  t.read path = .ok (Utf8.encode text)

theorem FileTree.HasText.eq {t : FileTree} {path : String} {text other : List Char}
    (h : t.HasText path text) (h' : t.HasText path other) : text = other :=
  Utf8.encode_inj (Except.ok.inj (h.symm.trans h'))

namespace Program

/-- The value names a format. -/
def NamesFormat (v : Toml.Value) : Prop := ∃ f : Format, v = .text f.name

/-- The value that the config file at a path gives for the format. -/
def ConfiguresFormat (t : FileTree) (path : Path) (v : Toml.Value) : Prop :=
  ∃ text members, t.HasText path.toString text ∧ Toml.read text = .ok members ∧
    (outputTable members).lookup "format" = some v

/-- Why the config file at a path gives no settings. -/
inductive ConfigFault (t : FileTree) (path : Path) : SettingsError → Prop
  | tooLong (h : t.TooLong path.toString) :
      ConfigFault t path (.crash (.file (.system (PathError.nameTooLong.on path.toString))))
  | notUtf8 {bytes : List UInt8} {fault : Utf8.Fault} (h : t.read path.toString = .ok bytes)
      (hfault : Utf8.decode bytes = .error fault) : ConfigFault t path (.crash (.notUtf8 fault))
  | malformed {text : List Char} {cause : Toml.Cause} {place : Toml.Place}
      (h : t.HasText path.toString text)
      (hread : Toml.read text = .error (.malformed cause place)) :
      ConfigFault t path (.malformedConfig path.toString cause place)
  | numeral {text : List Char} {error : Numeral.Error} (h : t.HasText path.toString text)
      (hread : Toml.read text = .error (.numeral error)) :
      ConfigFault t path (.crash (.numeral error))
  | unknownFormat {v : Toml.Value} (h : ConfiguresFormat t path v) (hv : ¬NamesFormat v)
      (hshown : v.isWritable = true) : ConfigFault t path (.unknownFormat v.plain)
  | unshownFormat {v : Toml.Value} (h : ConfiguresFormat t path v) (hv : ¬NamesFormat v)
      (hshown : v.isWritable = false) : ConfigFault t path (.crash (.numeral .tooLongToWrite))

section

variable {t : FileTree} {path : Path}

/-! ## The file -/

theorem configBytes_eq_error_iff {e : FileError} :
    configBytes t path = .error e ↔
      t.TooLong path.toString ∧ e = .system (PathError.nameTooLong.on path.toString) := by
  rw [← FileTree.isFile_eq_error_iff, configBytes, bind_eq_error_iff, or_iff_left]
  rintro ⟨found, hfile, h⟩
  split at h
  · rename_i htrue
    obtain ⟨bytes, hread⟩ := FileTree.isFile_eq_true_iff.1 (htrue ▸ hfile)
    rw [hread] at h
    contradiction
  · contradiction

theorem configBytes_eq_some_iff {bytes : List UInt8} :
    configBytes t path = .ok (some bytes) ↔ t.read path.toString = .ok bytes := by
  rw [configBytes, bind_eq_ok_iff]
  constructor
  · rintro ⟨found, -, h⟩
    split at h
    · obtain ⟨read, hread, h⟩ := bind_eq_ok_iff.1 h
      obtain rfl : read = bytes := Option.some.inj (Except.ok.inj h)
      exact hread
    · exact absurd (Except.ok.inj h) (by simp)
  · intro h
    refine ⟨true, FileTree.isFile_eq_true_iff.2 ⟨bytes, h⟩, ?_⟩
    rw [if_pos rfl, h]
    rfl

/-! ## Its table -/

theorem formatOfValue_of_namesFormat {v : Toml.Value} (h : NamesFormat v) :
    ∃ f, formatOfValue v = .ok f := by
  obtain ⟨f, rfl⟩ := h
  refine ⟨f, ?_⟩
  simp only [formatOfValue, Format.ofName?_eq_some_iff.2 rfl]

theorem formatOfValue_of_not_namesFormat {v : Toml.Value} (h : ¬NamesFormat v) :
    formatOfValue v =
      if v.isWritable then .error (.unknownFormat v.plain)
      else .error (.crash (.numeral .tooLongToWrite)) := by
  have hname : ∀ name, v = .text name → Format.ofName? name = none := by
    rintro name rfl
    rw [Option.eq_none_iff_forall_ne_some]
    intro f hf
    exact h ⟨f, by rw [Format.ofName?_eq_some_iff.1 hf]⟩
  unfold formatOfValue
  cases v <;> simp only [hname, Toml.Value.display] <;> split_ifs <;> rfl

theorem configOf_eq_error_iff {members : Toml.Members} {e : SettingsError} :
    configOf members = .error e ↔
      ∃ v, (outputTable members).lookup "format" = some v ∧ formatOfValue v = .error e := by
  rw [configOf, bind_eq_error_iff, or_iff_left]
  · cases (outputTable members).lookup "format" with
    | none =>
      rw [Option.mapM_none]
      show (.ok none : Except SettingsError (Option Format)) = .error e ↔ _
      simp only [reduceCtorEq, false_and, exists_false]
    | some v =>
      simp only [Option.mapM_some, Option.some.injEq, exists_eq_left']
      cases formatOfValue v <;> simp [Functor.map, Except.map]
  · rintro ⟨format?, -, h⟩
    contradiction

theorem readConfig_of_fault {bytes : List UInt8} {fault : Utf8.Fault}
    (h : Utf8.decode bytes = .error fault) :
    readConfig path (some bytes) = .error (.crash (.notUtf8 fault)) := by
  rw [readConfig, h]

theorem readConfig_encode (text : List Char) :
    readConfig path (some (Utf8.encode text)) =
      match Toml.read text with
      | .ok members => .ok members
      | .error (.malformed cause place) => .error (.malformedConfig path.toString cause place)
      | .error (.numeral error) => .error (.crash (.numeral error)) := by
  cases hread : Toml.read text with
  | ok members => simp only [readConfig, Utf8.decode_encode, hread]
  | error error => cases error <;> simp only [readConfig, Utf8.decode_encode, hread]

/-! ## Settings -/

theorem settings_eq_error_iff {a : CommandLine.Arguments} {bytes? : Option (List UInt8)}
    {e : SettingsError} :
    settings a (.ok bytes?) = .error e ↔
      readConfig (configPathOf a) bytes? = .error e ∨
        ∃ members, readConfig (configPathOf a) bytes? = .ok members ∧
          configOf members = .error e := by
  have hmerge : ∀ c, (pure (merge a c) : Except SettingsError Settings) ≠ .error e := by
    intro c h
    contradiction
  simp only [settings, mapError_eq_ok_iff, mapError_eq_error_iff, bind_eq_error_iff,
    reduceCtorEq, false_and, Except.ok.injEq, exists_eq_left', exists_false, false_or, hmerge,
    and_false, or_false]

/-- What is wrong with a config file of the given text. -/
theorem ConfigFault.of_hasText {text : List Char} {e : SettingsError}
    (h : t.HasText path.toString text)
    (he : readConfig path (some (Utf8.encode text)) = .error e ∨
      ∃ members, readConfig path (some (Utf8.encode text)) = .ok members ∧
        configOf members = .error e) : ConfigFault t path e := by
  rw [readConfig_encode] at he
  split at he
  · rename_i members hread
    rcases he with he | ⟨_, hmembers, he⟩
    · contradiction
    · obtain rfl := Except.ok.inj hmembers
      obtain ⟨v, hv, hformat⟩ := configOf_eq_error_iff.1 he
      have hconfigures : ConfiguresFormat t path v := ⟨text, members, h, hread, hv⟩
      by_cases hnames : NamesFormat v
      · obtain ⟨f, hf⟩ := formatOfValue_of_namesFormat hnames
        rw [hf] at hformat
        contradiction
      · rw [formatOfValue_of_not_namesFormat hnames] at hformat
        split at hformat
        · rename_i hshown
          obtain rfl := Except.error.inj hformat
          exact .unknownFormat hconfigures hnames hshown
        · rename_i hshown
          obtain rfl := Except.error.inj hformat
          exact .unshownFormat hconfigures hnames (Bool.eq_false_iff.2 hshown)
  · rename_i cause place hread
    rcases he with he | ⟨_, hmembers, -⟩
    · obtain rfl := Except.error.inj he
      exact .malformed h hread
    · contradiction
  · rename_i error hread
    rcases he with he | ⟨_, hmembers, -⟩
    · obtain rfl := Except.error.inj he
      exact .numeral h hread
    · contradiction

theorem ConfigFault.of_settingsIn {a : CommandLine.Arguments} {e : SettingsError}
    (h : settingsIn t a = .error e) : ConfigFault t (configPathOf a) e := by
  rw [settingsIn] at h
  cases hbytes : configBytes t (configPathOf a) with
  | error fileError =>
    rw [hbytes] at h
    obtain ⟨hlong, rfl⟩ := configBytes_eq_error_iff.1 hbytes
    obtain rfl := Except.error.inj h
    exact .tooLong hlong
  | ok bytes? =>
    rw [hbytes, settings_eq_error_iff] at h
    cases bytes? with
    | none =>
      rcases h with h | ⟨_, hmembers, h⟩
      · contradiction
      · obtain rfl := Except.ok.inj hmembers
        contradiction
    | some bytes =>
      rw [configBytes_eq_some_iff] at hbytes
      cases hdecode : Utf8.decode bytes with
      | error fault =>
        rw [readConfig_of_fault hdecode] at h
        rcases h with h | ⟨_, hmembers, -⟩
        · obtain rfl := Except.error.inj h
          exact .notUtf8 hbytes hdecode
        · contradiction
      | ok text =>
        obtain rfl := Utf8.decode_eq_ok_iff.1 hdecode
        exact .of_hasText hbytes h

/-- A fault of the settings behind the reading of the file. -/
theorem settingsIn_of_hasText {a : CommandLine.Arguments} {text : List Char} {e : SettingsError}
    (htext : t.HasText (configPathOf a).toString text)
    (h : readConfig (configPathOf a) (some (Utf8.encode text)) = .error e ∨
      ∃ members, readConfig (configPathOf a) (some (Utf8.encode text)) = .ok members ∧
        configOf members = .error e) : settingsIn t a = .error e := by
  rw [settingsIn, configBytes_eq_some_iff.2 htext]
  exact settings_eq_error_iff.2 h

theorem ConfigFault.settingsIn {a : CommandLine.Arguments} {e : SettingsError}
    (h : ConfigFault t (configPathOf a) e) : Program.settingsIn t a = .error e := by
  cases h with
  | tooLong hlong =>
    rw [Program.settingsIn, configBytes_eq_error_iff.2 ⟨hlong, rfl⟩]
    rfl
  | notUtf8 hread hfault =>
    rw [Program.settingsIn, configBytes_eq_some_iff.2 hread, settings_eq_error_iff]
    exact .inl (readConfig_of_fault hfault)
  | malformed htext hread =>
    refine settingsIn_of_hasText htext (.inl ?_)
    rw [readConfig_encode, hread]
  | numeral htext hread =>
    refine settingsIn_of_hasText htext (.inl ?_)
    rw [readConfig_encode, hread]
  | unknownFormat hformat hnames hshown =>
    obtain ⟨text, members, htext, hread, hv⟩ := hformat
    refine settingsIn_of_hasText htext (.inr ⟨members, ?_, configOf_eq_error_iff.2 ⟨_, hv, ?_⟩⟩)
    · rw [readConfig_encode, hread]
    · rw [formatOfValue_of_not_namesFormat hnames, if_pos hshown]
  | unshownFormat hformat hnames hshown =>
    obtain ⟨text, members, htext, hread, hv⟩ := hformat
    refine settingsIn_of_hasText htext (.inr ⟨members, ?_, configOf_eq_error_iff.2 ⟨_, hv, ?_⟩⟩)
    · rw [readConfig_encode, hread]
    · rw [formatOfValue_of_not_namesFormat hnames, if_neg (by simp [hshown])]

/-- There are no settings exactly because of a fault of the config file. -/
theorem settingsIn_eq_error_iff {a : CommandLine.Arguments} {e : SettingsError} :
    settingsIn t a = .error e ↔ ConfigFault t (configPathOf a) e :=
  ⟨.of_settingsIn, ConfigFault.settingsIn⟩

/-! ## Faults that end the program -/

/-- No fault of the config file at a path ends the program. -/
structure ConfigHandled (t : FileTree) (path : Path) : Prop where
  lookup : ¬t.TooLong path.toString
  utf8 : ∀ bytes, t.read path.toString = .ok bytes → ∃ text, bytes = Utf8.encode text
  /-- No numeral in it has too many digits to be read. -/
  numerals : ∀ text, t.HasText path.toString text →
    ∀ error, Toml.read text ≠ .error (.numeral error)
  /-- What it gives for the format can be shown if it is none. -/
  format : ∀ v, ConfiguresFormat t path v → NamesFormat v ∨ v.isWritable = true

theorem configHandled_iff :
    ConfigHandled t path ↔ ∀ c, ¬ConfigFault t path (.crash c) := by
  constructor
  · intro h c hfault
    cases hfault with
    | tooLong hlong => exact h.lookup hlong
    | notUtf8 hread hfault =>
      obtain ⟨text, rfl⟩ := h.utf8 _ hread
      rw [Utf8.decode_encode] at hfault
      contradiction
    | numeral htext hread => exact h.numerals _ htext _ hread
    | unshownFormat hformat hnames hshown =>
      rcases h.format _ hformat with hname | hw
      · exact hnames hname
      · exact absurd hw (by simp [hshown])
  · intro h
    refine ⟨fun hlong => h _ (.tooLong hlong), fun bytes hread => ?_,
      fun text htext error hread => h _ (.numeral htext hread), fun v hformat => ?_⟩
    · cases hdecode : Utf8.decode bytes with
      | error fault => exact absurd (.notUtf8 hread hdecode) (h _)
      | ok text => exact ⟨text, Utf8.decode_eq_ok_iff.1 hdecode⟩
    · by_cases hnames : NamesFormat v
      · exact .inl hnames
      · cases hshown : v.isWritable with
        | true => exact .inr rfl
        | false => exact absurd (.unshownFormat hformat hnames hshown) (h _)

/-- The config file at a path is refused with a report: it is no document, or it gives something
for the format that is none and can be shown. -/
def ConfigRefused (t : FileTree) (path : Path) : Prop :=
  (∃ text cause place, t.HasText path.toString text ∧
    Toml.read text = .error (.malformed cause place)) ∨
  ∃ v, ConfiguresFormat t path v ∧ ¬NamesFormat v ∧ v.isWritable = true

theorem configRefused_iff :
    ConfigRefused t path ↔ ∃ e, ConfigFault t path e ∧ ∀ c, e ≠ .crash c := by
  constructor
  · rintro (⟨text, cause, place, htext, hread⟩ | ⟨v, hformat, hnames, hshown⟩)
    · exact ⟨_, .malformed htext hread, fun c => SettingsError.noConfusion⟩
    · exact ⟨_, .unknownFormat hformat hnames hshown, fun c => SettingsError.noConfusion⟩
  · rintro ⟨e, hfault, hc⟩
    cases hfault with
    | malformed htext hread => exact .inl ⟨_, _, _, htext, hread⟩
    | unknownFormat hformat hnames hshown => exact .inr ⟨_, hformat, hnames, hshown⟩
    | _ => exact absurd rfl (hc _)

end

end Program

end TokenStream
