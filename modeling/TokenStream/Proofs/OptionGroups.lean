import Mathlib.Data.List.Basic
import Mathlib.Data.List.Induction
import TokenStream.CommandLine.Arguments

/-!
# Options in any order

A command line that is made of options, each with its own value, and of the input somewhere
between them is read as it is meant. It is first classified word by word (`words_groups`), and
then each option has its effect on the arguments, whatever stands behind it
(`readWords_groups`). So the arguments are those of the last options that set them
(`foldl_set`), and options that set different arguments may change places. Main statement:
`parse_groups`.
-/

namespace TokenStream.CommandLine

/-! ## Groups of words -/

/-- How a value is given to an option: behind the short or the long spelling as a word of its
own, or in the word of the long spelling behind an equals sign. -/
inductive Form where
  | short
  | long
  | joined
deriving DecidableEq, Repr

/-- An option with its value. The config file has no short spelling. -/
inductive Group where
  | output (form : Form) (name : String)
  | format (form : Form) (f : Format)
  | config (isJoined : Bool) (name : String)
  | strict
  | noStrict
  | debug
deriving DecidableEq, Repr

/-- What an option sets. -/
inductive Target where
  | output
  | format
  | config
  | strict
  | debug
deriving DecidableEq, Repr

/-- A word that does not look like an option. -/
def IsPlain (word : String) : Prop := word.toList.head? ≠ some '-'

instance (word : String) : Decidable (IsPlain word) := inferInstanceAs (Decidable (_ ≠ _))

namespace Group

def spelling : Group → String
  | output .short _ => "-o"
  | output _ _ => "--output"
  | format .short _ => "-f"
  | format _ _ => "--format"
  | config _ _ => "--config"
  | strict => "--strict"
  | noStrict => "--no-strict"
  | debug => "--debug"

def value? : Group → Option String
  | output _ name => some name
  | format _ f => some f.name
  | config _ name => some name
  | _ => none

/-- Does the value stand in the word of the option? -/
def isJoined : Group → Bool
  | output form _ => form = .joined
  | format form _ => form = .joined
  | config isJoined _ => isJoined
  | _ => false

/-- The words of an option. -/
def words (g : Group) : List String :=
  match g.value? with
  | none => [g.spelling]
  | some value => if g.isJoined then [g.spelling ++ "=" ++ value] else [g.spelling, value]

/-- The value of the option does not look like an option itself. -/
def HasPlainValue (g : Group) : Prop := ∀ value ∈ g.value?, IsPlain value

instance (g : Group) : Decidable g.HasPlainValue :=
  inferInstanceAs (Decidable (∀ value ∈ g.value?, IsPlain value))

def target : Group → Target
  | output _ _ => .output
  | format _ _ => .format
  | config _ _ => .config
  | strict => .strict
  | noStrict => .strict
  | debug => .debug

def output? : Group → Option String
  | output _ name => some name
  | _ => none

def format? : Group → Option Format
  | format _ f => some f
  | _ => none

def config? : Group → Option String
  | config _ name => some name
  | _ => none

def strict? : Group → Option Bool
  | strict => some true
  | noStrict => some false
  | _ => none

end Group

/-- The last of the values that options give. -/
def lastOf {α : Type} (given? : Group → Option α) (gs : List Group) : Option α :=
  (gs.filterMap given?).getLast?

/-- What options and an input ask for: the last option that sets an argument decides on it. -/
def argumentsOf (input : String) (gs : List Group) : Arguments where
  input := input
  output? := lastOf Group.output? gs
  format :=
    match lastOf Group.format? gs with
    | some f => .format f
    | none => .none
  strict? := lastOf Group.strict? gs
  config? := lastOf Group.config? gs
  debug := gs.contains .debug

/-! ## Classification -/

theorem startsWith_dash_iff {word : String} :
    word.startsWith "-" = true ↔ word.toList.head? = some '-' := by
  rw [String.startsWith_string_iff, List.head?_eq_some_iff]
  exact exists_congr fun _ => eq_comm

theorem classify_of_isPlain {word : String} (h : IsPlain word) :
    classify word = .ok (.plain word) := by
  have hdash : word.startsWith "-" = false := by
    rw [Bool.eq_false_iff, Ne, startsWith_dash_iff]
    exact h
  rw [classify, hdash]
  rfl

/-- Every spelling starts with a dash, holds no equals sign and is not the separator. -/
theorem spellings_shape : ∀ s ∈ spellings,
    s.1.toList.head? = some '-' ∧ '=' ∉ s.1.toList ∧ s.1 ≠ "--" := by
  decide +kernel

section

variable {spelling : String} {flag : Flag}

theorem shape_of_lookup (h : spellings.lookup spelling = some flag) :
    spelling.toList.head? = some '-' ∧ '=' ∉ spelling.toList ∧ spelling ≠ "--" := by
  obtain ⟨front, back, hsplit, -⟩ := List.lookup_eq_some_iff.1 h
  have hmem : (spelling, flag) ∈ spellings := by
    rw [hsplit]
    exact List.mem_append_right front List.mem_cons_self
  exact spellings_shape _ hmem

theorem classify_spelling (h : spellings.lookup spelling = some flag) :
    classify spelling = .ok (.option flag (isShortSpelling spelling) none) := by
  rw [classify, startsWith_dash_iff.2 (shape_of_lookup h).1, h]
  rfl

theorem toList_joined (spelling value : String) :
    (spelling ++ "=" ++ value).toList = spelling.toList ++ '=' :: value.toList := by
  rw [String.toList_append, String.toList_append, List.append_assoc]
  rfl

/-- A value behind the first equals sign is taken off the spelling. -/
theorem splitEquals?_joined (h : '=' ∉ spelling.toList) (value : String) :
    splitEquals? (spelling ++ "=" ++ value) = some (spelling, value) := by
  have hin : ∀ c ∈ spelling.toList, (c != '=') = true := by
    intro c hc
    rw [bne_iff_ne]
    rintro rfl
    exact h hc
  rw [splitEquals?, toList_joined, if_pos (by simp), List.takeWhile_append_of_pos hin,
    List.dropWhile_append_of_pos hin]
  simp

theorem ne_joined {word : String} (h : '=' ∉ word.toList) (value : String) :
    spelling ++ "=" ++ value ≠ word := by
  rintro rfl
  rw [toList_joined] at h
  exact h (by simp)

theorem classify_joined (h : spellings.lookup spelling = some flag) (value : String) :
    classify (spelling ++ "=" ++ value) =
      .ok (.option flag (isShortSpelling spelling) (some value)) := by
  obtain ⟨hdash, heq, -⟩ := shape_of_lookup h
  have hhead : (spelling ++ "=" ++ value).toList.head? = some '-' := by
    rw [toList_joined, List.head?_append, hdash]
    rfl
  have hnone : spellings.lookup (spelling ++ "=" ++ value) = none := by
    rw [List.lookup_eq_none_iff]
    intro s hs
    rw [bne_iff_ne]
    exact ne_joined (spellings_shape s hs).2.1 value
  have halone : spelling ++ "=" ++ value ≠ "-" := ne_joined (by decide) value
  rw [classify, startsWith_dash_iff.2 hhead, hnone, splitEquals?_joined heq]
  simp only [Bool.not_true, Bool.false_eq_true, if_false, halone, h]

end

/-- A word that is classified and is not the separator is the next one. -/
theorem words_cons {word : String} {w : Word} {rest : List String} {ws : List Word}
    (hne : word ≠ "--") (hw : classify word = .ok w) (hrest : words rest = .ok ws) :
    words (word :: rest) = .ok (w :: ws) := by
  rw [words, if_neg hne, hw, hrest]
  rfl

theorem words_of_isPlain {word : String} {rest : List String} {ws : List Word}
    (h : IsPlain word) (hrest : words rest = .ok ws) :
    words (word :: rest) = .ok (.plain word :: ws) := by
  refine words_cons ?_ (classify_of_isPlain h) hrest
  rintro rfl
  exact absurd h (by decide)

namespace Group

/-- The option of a group. -/
def flag : Group → Flag
  | output _ _ => .output
  | format _ _ => .format
  | config _ _ => .config
  | strict => .strict
  | noStrict => .noStrict
  | debug => .debug

/-- What the words of a group are classified as. -/
def classified (g : Group) : List Word :=
  match g.value? with
  | none => [.option g.flag (isShortSpelling g.spelling) none]
  | some value =>
    if g.isJoined then [.option g.flag (isShortSpelling g.spelling) (some value)]
    else [.option g.flag (isShortSpelling g.spelling) none, .plain value]

theorem lookup_spelling (g : Group) : spellings.lookup g.spelling = some g.flag := by
  cases g with
  | output form | format form => cases form <;> rfl
  | config | strict | noStrict | debug => rfl

theorem words_append {g : Group} (hg : g.HasPlainValue) {rest : List String} {ws : List Word}
    (hrest : CommandLine.words rest = .ok ws) :
    CommandLine.words (g.words ++ rest) = .ok (g.classified ++ ws) := by
  have hlookup := g.lookup_spelling
  have hne : g.spelling ≠ "--" := (shape_of_lookup hlookup).2.2
  rw [words, classified]
  cases hvalue : g.value? with
  | none => exact words_cons hne (classify_spelling hlookup) hrest
  | some value =>
    cases g.isJoined with
    | true => exact words_cons (ne_joined (by decide) value) (classify_joined hlookup value) hrest
    | false =>
      have hplain := words_of_isPlain (hg value hvalue) hrest
      exact words_cons hne (classify_spelling hlookup) hplain

end Group

/-- The words of the options are classified group by group. -/
theorem words_groups {gs : List Group} (hgs : ∀ g ∈ gs, g.HasPlainValue) {rest : List String}
    {ws : List Word} (hrest : words rest = .ok ws) :
    words (gs.flatMap Group.words ++ rest) = .ok (gs.flatMap Group.classified ++ ws) := by
  induction gs with
  | nil => exact hrest
  | cons g gs ih =>
    obtain ⟨hg, hgs⟩ := List.forall_mem_cons.1 hgs
    rw [List.flatMap_cons, List.flatMap_cons, List.append_assoc, List.append_assoc]
    exact Group.words_append hg (ih hgs)

/-! ## Effects -/

/-- The arguments once an option has had its effect. -/
def Group.set (a : Arguments) : Group → Arguments
  | output _ name => { a with output? := some name }
  | format _ f => { a with format := .format f }
  | config _ name => { a with config? := some name }
  | strict => { a with strict? := some true }
  | noStrict => { a with strict? := some false }
  | debug => { a with debug := true }

theorem valueOf_of_isPlain {word : String} (h : IsPlain word) : Parse.valueOf word = some word := by
  rw [Parse.valueOf, if_neg]
  rintro rfl
  exact absurd h (by decide)

namespace Group

theorem takesValue_flag (g : Group) : g.flag.takesValue = g.value?.isSome := by
  cases g <;> rfl

/-- The option of a group, with its value, has the effect of the group. -/
theorem apply_flag (p : Parse) (g : Group) :
    p.apply g.flag g.value? = .ok { p with arguments := g.set p.arguments } := by
  cases g with
  | format form f =>
    show (match Format.ofName? f.name with
      | some f => Except.ok { p with arguments := { p.arguments with format := .format f } }
      | none => Except.error (Halt.misused (.unknownFormat f.name))) = _
    rw [Format.ofName?_eq_some_iff.2 rfl]
    rfl
  | _ => rfl

theorem applyUse_flag (p : Parse) {g : Group} (hg : g.HasPlainValue) :
    p.applyUse ⟨[], g.flag, g.value?⟩ = .ok { p with arguments := g.set p.arguments } := by
  have hvalue : g.value?.bind Parse.valueOf = g.value? := by
    cases h : g.value? with
    | none => rfl
    | some value => exact valueOf_of_isPlain (hg value h)
  show p.apply g.flag (g.value?.bind Parse.valueOf) = _
  rw [hvalue, apply_flag]

/-- An option that takes no value has its effect alone. -/
theorem readWords_alone (p : Parse) {flag : Flag} (h : flag.takesValue = false) (isShort : Bool)
    (rest : List Word) :
    p.readWords (.option flag isShort none :: rest) =
      p.applyUse ⟨[], flag, none⟩ >>= fun q => q.readWords rest := by
  have hneeds : Use.needsValue ⟨[], flag, none⟩ = false := h
  rw [Parse.readWords]
  show (if Use.needsValue ⟨[], flag, none⟩ = true then _ else _) = _
  rw [if_neg (by simp [hneeds])]

/-- One that takes a value has its effect with the plain word behind it. -/
theorem readWords_spaced (p : Parse) {flag : Flag} (h : flag.takesValue = true) (isShort : Bool)
    (value : String) (rest : List Word) :
    p.readWords (.option flag isShort none :: .plain value :: rest) =
      p.applyUse ⟨[], flag, some value⟩ >>= fun q => q.readWords rest := by
  have hneeds : Use.needsValue ⟨[], flag, none⟩ = true := h
  rw [Parse.readWords]
  show (if Use.needsValue ⟨[], flag, none⟩ = true then _ else _) = _
  rw [if_pos hneeds]

/-- Or with the value in its own word. -/
theorem readWords_joined (p : Parse) {flag : Flag} (h : flag.takesValue = true) (isShort : Bool)
    (value : String) (rest : List Word) :
    p.readWords (.option flag isShort (some value) :: rest) =
      p.applyUse ⟨[], flag, some value⟩ >>= fun q => q.readWords rest := by
  have huse : Use.ofOption flag isShort (some value) = .ok ⟨[], flag, some value⟩ := by
    rw [Use.ofOption, Use.ofTail.eq_def, if_pos h, String.ofList_toList]
  rw [Parse.readWords, huse]
  rfl

/-- A group has its effect, and then what stands behind it is read. -/
theorem readWords_append (p : Parse) {g : Group} (hg : g.HasPlainValue) (rest : List Word) :
    p.readWords (g.classified ++ rest) =
      Parse.readWords { p with arguments := g.set p.arguments } rest := by
  have happly := applyUse_flag p hg
  have htakes := g.takesValue_flag
  rw [classified]
  cases hvalue : g.value? with
  | none =>
    rw [hvalue] at happly htakes
    show p.readWords (.option g.flag _ none :: rest) = _
    rw [readWords_alone p htakes, happly]
    rfl
  | some value =>
    rw [hvalue] at happly htakes
    cases g.isJoined with
    | true =>
      show p.readWords (.option g.flag _ (some value) :: rest) = _
      rw [readWords_joined p htakes, happly]
      rfl
    | false =>
      show p.readWords (.option g.flag _ none :: .plain value :: rest) = _
      rw [readWords_spaced p htakes, happly]
      rfl

/-- No group starts with the separator. -/
theorem exists_option (g : Group) :
    ∃ isShort value? rest, g.classified = .option g.flag isShort value? :: rest := by
  rw [classified]
  split
  · exact ⟨_, _, _, rfl⟩
  · split <;> exact ⟨_, _, _, rfl⟩

end Group

theorem readWords_groups (p : Parse) {gs : List Group} (hgs : ∀ g ∈ gs, g.HasPlainValue)
    (rest : List Word) :
    p.readWords (gs.flatMap Group.classified ++ rest) =
      Parse.readWords { p with arguments := gs.foldl Group.set p.arguments } rest := by
  induction gs generalizing p with
  | nil => rfl
  | cons g gs ih =>
    obtain ⟨hg, hgs⟩ := List.forall_mem_cons.1 hgs
    rw [List.flatMap_cons, List.append_assoc, Group.readWords_append p hg, ih _ hgs,
      List.foldl_cons]

/-- The first plain word is the input, whatever options stand behind it. -/
theorem readWords_input {p : Parse} (hp : p.input? = none) (input : String) (gs : List Group) :
    p.readWords (.plain input :: gs.flatMap Group.classified) =
      Parse.readWords { p with input? := some input } (gs.flatMap Group.classified) := by
  cases gs with
  | nil => simp [Parse.readWords, hp]
  | cons g gs =>
    -- an input takes a separator behind it along, but no group starts with one
    obtain ⟨isShort, value?, rest, hclassified⟩ := g.exists_option
    rw [List.flatMap_cons, hclassified, List.cons_append, Parse.readWords.eq_def]
    simp only [hp, Option.isNone_none, if_true]

/-! ## The last option decides -/

section

variable {α : Type} {given? : Group → Option α} {gs : List Group}

theorem lastOf_concat (given? : Group → Option α) (gs : List Group) (g : Group) :
    lastOf given? (gs ++ [g]) = (given? g).or (lastOf given? gs) := by
  rw [lastOf, List.filterMap_append, List.getLast?_append]
  cases h : given? g <;> simp [lastOf, h]

/-- The options that set other arguments do not matter. -/
theorem lastOf_filter {t : Target} (h : ∀ g a, given? g = some a → g.target = t) :
    lastOf given? (gs.filter (·.target = t)) = lastOf given? gs := by
  rw [lastOf, List.filterMap_filter, lastOf]
  refine congrArg List.getLast? (List.filterMap_congr fun g _ => ?_)
  cases hg : given? g with
  | none => exact ite_self none
  | some a => rw [if_pos (decide_eq_true (h g a hg))]

end

theorem argumentsOf_concat (input : String) (gs : List Group) (g : Group) :
    argumentsOf input (gs ++ [g]) = g.set (argumentsOf input gs) := by
  rw [argumentsOf]
  simp only [lastOf_concat]
  cases g <;> simp [argumentsOf, Group.set, Group.output?, Group.format?, Group.config?,
    Group.strict?]

/-- By induction on the options, the last of which has its effect behind the others. -/
theorem foldl_set (input : String) (gs : List Group) :
    gs.foldl Group.set (argumentsOf input []) = argumentsOf input gs := by
  induction gs using List.reverseRecOn with
  | nil => rfl
  | append_singleton gs g ih =>
    rw [List.foldl_append, ih, argumentsOf_concat, List.foldl_cons, List.foldl_nil]

/-- What is asked for is told by the options that set each of the arguments. -/
theorem argumentsOf_congr {gs hs : List Group}
    (h : ∀ t, gs.filter (·.target = t) = hs.filter (·.target = t)) (input : String) :
    argumentsOf input gs = argumentsOf input hs := by
  have hlast {α : Type} {given? : Group → Option α} {t : Target}
      (ht : ∀ g a, given? g = some a → g.target = t) : lastOf given? gs = lastOf given? hs := by
    rw [← lastOf_filter ht, h t, lastOf_filter ht]
  have houtput : lastOf Group.output? gs = lastOf Group.output? hs :=
    hlast (t := .output) fun g a hg => by
      cases g with
      | output => rfl
      | _ => contradiction
  have hformat : lastOf Group.format? gs = lastOf Group.format? hs :=
    hlast (t := .format) fun g a hg => by
      cases g with
      | format => rfl
      | _ => contradiction
  have hconfig : lastOf Group.config? gs = lastOf Group.config? hs :=
    hlast (t := .config) fun g a hg => by
      cases g with
      | config => rfl
      | _ => contradiction
  have hstrict : lastOf Group.strict? gs = lastOf Group.strict? hs :=
    hlast (t := .strict) fun g a hg => by
      cases g with
      | strict | noStrict => rfl
      | _ => contradiction
  have hdebug : gs.contains .debug = hs.contains .debug := by
    have hmem {gs : List Group} : .debug ∈ gs ↔ .debug ∈ gs.filter (·.target = .debug) := by
      simp [Group.target]
    rw [Bool.eq_iff_iff, List.contains_iff_mem, List.contains_iff_mem, hmem, h .debug, ← hmem]
  simp only [argumentsOf, houtput, hformat, hconfig, hstrict, hdebug]

/-- A command line with options in front of its input and behind it. -/
def commandLine (before : List Group) (input : String) (behind : List Group) : List String :=
  before.flatMap Group.words ++ input :: behind.flatMap Group.words

theorem parse_commandLine {before behind : List Group} {input : String}
    (hgs : ∀ g ∈ before ++ behind, g.HasPlainValue) (hinput : IsPlain input) :
    parse (commandLine before input behind) = .ok (argumentsOf input (before ++ behind)) := by
  obtain ⟨hbefore, hbehind⟩ := List.forall_mem_append.1 hgs
  have hlast : words (behind.flatMap Group.words ++ []) =
      .ok (behind.flatMap Group.classified ++ []) := words_groups hbehind rfl
  rw [List.append_nil, List.append_nil] at hlast
  have hwords : words (commandLine before input behind) =
      .ok (before.flatMap Group.classified ++ .plain input :: behind.flatMap Group.classified) :=
    words_groups hbefore (words_of_isPlain hinput hlast)
  have hread (p : Parse) : p.readWords (behind.flatMap Group.classified) =
      .ok { p with arguments := behind.foldl Group.set p.arguments } := by
    have h := readWords_groups p hbehind []
    rwa [List.append_nil, Parse.readWords] at h
  have hset : behind.foldl Group.set (before.foldl Group.set Parse.empty.arguments) =
      argumentsOf "" (before ++ behind) := by
    rw [← List.foldl_append]
    exact foldl_set "" (before ++ behind)
  rw [parse, hwords]
  show (Parse.empty.readWords _ >>= Parse.finish) = _
  rw [readWords_groups _ hbefore, readWords_input rfl, hread]
  show Parse.finish ⟨some input, behind.foldl Group.set _, []⟩ = _
  rw [hset]
  rfl

/-- Options that are in another order, but in the same one for each argument, are plain too. -/
theorem hasPlainValue_of_filter {gs hs : List Group}
    (h : ∀ t, hs.filter (·.target = t) = gs.filter (·.target = t))
    (hgs : ∀ g ∈ gs, g.HasPlainValue) : ∀ g ∈ hs, g.HasPlainValue := by
  intro g hg
  have hmem : g ∈ hs.filter (·.target = g.target) := List.mem_filter.2 ⟨hg, decide_eq_true rfl⟩
  rw [h g.target] at hmem
  exact hgs g (List.mem_of_mem_filter hmem)

/-- Options with plain values, and a plain input at any place between them, are accepted: each
argument is the one that the last option that sets it asks for. The same is asked for when the
options stand in any other order that keeps those in order that set the same argument, wherever
the input stands among them. -/
theorem parse_groups {before behind : List Group} {input : String}
    (hgs : ∀ g ∈ before ++ behind, g.HasPlainValue) (hinput : IsPlain input) :
    parse (commandLine before input behind) = .ok (argumentsOf input (before ++ behind)) ∧
    ∀ before' behind' : List Group,
      (∀ t, (before' ++ behind').filter (·.target = t) =
        (before ++ behind).filter (·.target = t)) →
      parse (commandLine before' input behind') =
        parse (commandLine before input behind) := by
  have hparse := parse_commandLine hgs hinput
  refine ⟨hparse, fun before' behind' hfilter => ?_⟩
  have hgs' := hasPlainValue_of_filter hfilter hgs
  rw [parse_commandLine hgs' hinput, argumentsOf_congr hfilter, hparse]

/-- Two formats and two answers on being strict, of which the last ones count, and the input in
any place. -/
theorem parse_groups_mixed :
    let before : List Group := [.format .joined .json, .output .short "", .noStrict]
    let behind : List Group := [.output .joined "a b=c", .strict, .format .short .text, .debug]
    let before' : List Group := [.debug]
    let behind' : List Group :=
      [.noStrict, .strict, .output .short "", .format .joined .json, .format .short .text,
        .output .joined "a b=c"]
    commandLine before "p.mk" behind =
      ["--format=json", "-o", "", "--no-strict", "p.mk", "--output=a b=c", "--strict", "-f",
        "text", "--debug"] ∧
    (∀ g ∈ before ++ behind, g.HasPlainValue) ∧
    (∀ t, (before' ++ behind').filter (·.target = t) =
      (before ++ behind).filter (·.target = t)) ∧
    parse (commandLine before "p.mk" behind) =
      .ok ⟨"p.mk", some "a b=c", .format .text, some true, none, true⟩ ∧
    parse (commandLine before' "p.mk" behind') =
      .ok ⟨"p.mk", some "a b=c", .format .text, some true, none, true⟩ := by
  intro before behind before' behind'
  have hgs : ∀ g ∈ before ++ behind, g.HasPlainValue := by decide
  have hfilter : ∀ t, (before' ++ behind').filter (·.target = t) =
      (before ++ behind).filter (·.target = t) := by
    intro t
    cases t <;> decide
  obtain ⟨hparse, hmoved⟩ := parse_groups hgs (by decide : IsPlain "p.mk")
  refine ⟨by decide, hgs, hfilter, hparse, ?_⟩
  rw [hmoved before' behind' hfilter, hparse]
  decide

end TokenStream.CommandLine
