import TokenStream.CommandLine.Word

/-!
# Arguments

What a command line asks for. Options and the input may come in any order, and
of several options that set the same argument the last one counts. Options take
effect one after the other, so the first one that cannot ends the reading.
-/

namespace TokenStream.CommandLine

/-- The format that was asked for. The separator in place of a format asks for
none in particular. -/
inductive FormatChoice where
  | none
  | blank
  | format (f : Format)
deriving DecidableEq, Repr

/-- What a command line asks for. The separator in place of the name of a file
asks for no file. -/
structure Arguments where
  input : String
  output? : Option String
  format : FormatChoice
  strict? : Option Bool
  config? : Option String
  debug : Bool
deriving DecidableEq, Repr

/-- The options that one word holds: those in front, which take no value, and
the last one with the value that the word holds for it, if any. -/
structure Use where
  before : List Flag
  last : Flag
  value? : Option String
deriving DecidableEq, Repr

namespace Use

/-- Is the value of the last option still to come? -/
def needsValue (u : Use) : Bool := u.value?.isNone && u.last.takesValue

/-- The options in one word, from one of them with what follows it there. Short
options that take no value may stand in a row. -/
def ofTail (flag : Flag) (isShort : Bool) (tail : List Char) : Except UsageError Use :=
  if flag.takesValue then .ok ⟨[], flag, some (.ofList tail)⟩
  else
    match isShort, tail with
    | true, c :: cs =>
      match spellings.lookup (.ofList ['-', c]) with
      | none => .error (.unexpectedValue flag (.ofList tail))
      | some next =>
        if cs.isEmpty then .ok ⟨[flag], next, none⟩
        else (ofTail next true cs).map fun u => { u with before := flag :: u.before }
    | _, _ => .error (.unexpectedValue flag (.ofList tail))

/-- The options in an option word. -/
def ofOption (flag : Flag) (isShort : Bool) : Option String → Except UsageError Use
  | none => .ok ⟨[], flag, none⟩
  | some value => ofTail flag isShort value.toList

end Use

/-- The arguments found so far, the input among them if it was, and the words
that belong nowhere (the last one first). -/
structure Parse where
  input? : Option String
  arguments : Arguments
  extras : List String

namespace Parse

def empty : Parse := ⟨none, ⟨"", none, .none, none, none, false⟩, []⟩

/-- The value in a word: the separator stands for none. -/
def valueOf (word : String) : Option String := if word = "--" then none else some word

/-- The effect of an option. -/
def apply (p : Parse) (flag : Flag) (value? : Option String) : Except Halt Parse :=
  let set (a : Arguments) : Except Halt Parse := .ok { p with arguments := a }
  match flag with
  | .help => .error .helpWanted
  | .output => set { p.arguments with output? := value? }
  | .config => set { p.arguments with config? := value? }
  | .strict => set { p.arguments with strict? := some true }
  | .noStrict => set { p.arguments with strict? := some false }
  | .debug => set { p.arguments with debug := true }
  | .format =>
    match value? with
    | none => set { p.arguments with format := .blank }
    | some name =>
      match Format.ofName? name with
      | some f => set { p.arguments with format := .format f }
      | none => .error (.misused (.unknownFormat name))

/-- The effect of the options in one word, one after the other. -/
def applyUse (p : Parse) (u : Use) : Except Halt Parse := do
  let p ← u.before.foldlM (·.apply · none) p
  p.apply u.last (u.value?.bind valueOf)

/-- Puts a word among those that belong nowhere. -/
def addExtra (p : Parse) (word : String) : Parse := { p with extras := word :: p.extras }

/-- Reads the words one after the other. The input takes a separator next to it
along. -/
def readWords (p : Parse) : List Word → Except Halt Parse
  | [] => .ok p
  | .option flag isShort value? :: rest => do
    let use ← (Use.ofOption flag isShort value?).mapError .misused
    if use.needsValue then
      match rest with
      | .plain word :: rest => readWords (← p.applyUse { use with value? := some word }) rest
      | _ => throw (.misused (.missingValue use.last))
    else readWords (← p.applyUse use) rest
  | .unknown word :: rest => readWords (p.addExtra word) rest
  | .separator :: .plain word :: rest =>
    if p.input?.isNone then readWords { p with input? := some word } rest
    else readWords (p.addExtra "--") (.plain word :: rest)
  | .separator :: rest => readWords (p.addExtra "--") rest
  | .plain word :: .separator :: rest =>
    if p.input?.isNone then readWords { p with input? := some word } rest
    else readWords (p.addExtra word) (.separator :: rest)
  | .plain word :: rest =>
    if p.input?.isNone then readWords { p with input? := some word } rest
    else readWords (p.addExtra word) rest

/-- The arguments, once all words are read. -/
def finish (p : Parse) : Except Halt Arguments :=
  match p.input? with
  | none => .error (.misused .missingInput)
  | some input =>
    if p.extras.isEmpty then .ok { p.arguments with input }
    else .error (.misused (.unrecognized p.extras.reverse))

end Parse

/-- The arguments of a command line. -/
def parse (argv : List String) : Except Halt Arguments := do
  let ws ← (words argv).mapError .misused
  (← Parse.empty.readWords ws).finish

end TokenStream.CommandLine
