import TokenStream.Program.Settings
import TokenStream.Report
import TokenStream.Source

/-!
# Runs

A run reads the input, lists its tokens on standard output or in a file, and
ends with a status: 0, or 1 if the input has no tokens or, in strict mode, an
illegal one, or 2 if there are no settings. In debug mode the overflows and the
trace of the tokens go to standard error before anything else. A run is planned
from what its two input files hold; only writing the output file is left then.
-/

namespace TokenStream.Program

/-- How a run ends. -/
inductive Ending where
  | status (n : Nat)
  /-- The command line asked for help or was misused, and the status says which. -/
  | halt (n : Nat)
  | crash (c : Crash)
deriving DecidableEq, Repr

structure Outcome where
  stdout : String
  stderr : String
  ending : Ending
deriving DecidableEq, Repr

/-- The outcome of a command line that is not carried out. -/
def haltOutcome (h : CommandLine.Halt) : Outcome :=
  match h with
  | .helpWanted => ⟨h.text, "", .halt h.status⟩
  | .misused _ => ⟨"", h.text, .halt h.status⟩

/-- A planned run: it is over, or it writes a file and is over then. If the file
cannot be written, only what went to standard error before is left of it. -/
inductive Plan where
  | done (outcome : Outcome)
  | save (path : Path) (text : String) (stderr : String) (outcome : Outcome)
deriving DecidableEq, Repr

/-- The line of an overflow on standard error. -/
def overflowLine (o : Overflow) : String := "monkeylex.lexer: " ++ o.message ++ "\n"

/-- The dump of the tokens in the format of the settings. -/
def dump (s : Settings) (tokens : List Token) : Except Numeral.Error String :=
  (s.format?.getD .text).dump tokens

/-- What follows when the input is the given text. -/
def planText (s : Settings) (text : List Char) : Plan :=
  let cursor := Cursor.ofText text
  let log := if s.debug then String.join (cursor.overflows.map overflowLine) else ""
  match cursor.extents with
  | .error e => .done ⟨"", log, .crash (.numeral e)⟩
  | .ok es =>
    let before := if s.debug then log ++ trace es else log
    match dump s (es.map Extent.token) with
    | .error e => .done ⟨"", before, .crash (.numeral e)⟩
    | .ok output =>
      let (report, count) := if s.strict then reportIllegal es else ("", 0)
      let ending := Ending.status (if count = 0 then 0 else 1)
      match s.output? with
      | some path => .save path output before ⟨"", before ++ report, ending⟩
      | none => .done ⟨output, before ++ report, ending⟩

/-- What follows when reading the input gives the bytes or an error. -/
def planInput (s : Settings) (input : Except FileError (List UInt8)) : Plan :=
  let refuse (e : Source.Error) : Plan :=
    .done ⟨"", Source.report e.message s.input.toString ++ "\n", .status 1⟩
  match input with
  | .error (.system e) => refuse (.unreadable e)
  | .error .nullInPath => .done ⟨"", "", .crash (.file .nullInPath)⟩
  | .ok bytes =>
    match Source.decode (.bytes bytes) with
    | .error e => refuse e
    | .ok text => planText s text

/-- The plan of a run, given what is known of the config file and of the input. -/
def plan (a : CommandLine.Arguments) (config : Except FileError (Option (List UInt8)))
    (input : Except FileError (List UInt8)) : Plan :=
  match settings a config with
  | .ok s => planInput s input
  | .error (.crash c) => .done ⟨"", "", .crash c⟩
  | .error e => .done ⟨"", "error: " ++ e.message ++ "\n", .status 2⟩

/-! ## On a file tree -/

/-- The bytes of a config file, if the path leads to a file. -/
def configBytes (t : FileTree) (path : Path) : Except FileError (Option (List UInt8)) := do
  if ← t.isFile path.toString then return some (← t.read path.toString)
  return none

/-- The table of a config file in a tree. -/
def loadConfig (t : FileTree) (path : Path) : Except SettingsError Toml.Members := do
  let bytes? ← (configBytes t path).mapError fun e => .crash (.file e)
  readConfig path bytes?

/-- The settings of a command line in a tree. -/
def settingsIn (t : FileTree) (a : CommandLine.Arguments) : Except SettingsError Settings :=
  settings a (configBytes t (configPathOf a))

/-- The outcome of a run with the given arguments in a tree, and the tree afterwards. -/
def runWith (t : FileTree) (a : CommandLine.Arguments) : Outcome × FileTree :=
  match plan a (configBytes t (configPathOf a)) (t.read (Path.ofString a.input).toString) with
  | .done outcome => (outcome, t)
  | .save path text stderr outcome =>
    match t.write path (Utf8.encode text.toList) with
    | .ok t => (outcome, t)
    | .error e => (⟨"", stderr, .crash (.file e)⟩, t)

/-- The outcome of a command line in a tree, and the tree afterwards. -/
def run (t : FileTree) (argv : List String) : Outcome × FileTree :=
  match CommandLine.parse argv with
  | .ok a => runWith t a
  | .error h => (haltOutcome h, t)

end TokenStream.Program
