import TokenStream.CommandLine.Arguments
import TokenStream.File.Tree
import TokenStream.Text.Utf8
import TokenStream.Toml.Document

/-!
# Settings

What a run is to do, from the command line and the config file. The config file
is the one named on the command line, or `monkeylex.toml` beside the input. Its
table `output` may set the format and the strict mode; the command line goes
before it. A format in the config file must be one of the known ones even if
the command line names another; a strict mode that is no boolean is ignored.
-/

namespace TokenStream.Program

/-- A failure that is not reported but ends the program. -/
inductive Crash where
  | file (error : FileError)
  | numeral (error : Numeral.Error)
  | notUtf8 (fault : Utf8.Fault)
deriving DecidableEq, Repr

/-- The place of a fault in a byte string, with its first byte if it is alone. -/
def faultPlace (fault : Utf8.Fault) : String :=
  if fault.length ≤ 1 then
    "byte 0x" ++ .ofList (hexDigits 2 fault.lead.toNat) ++ " in position " ++
      toString fault.offset
  else
    "bytes in position " ++ toString fault.offset ++ "-" ++
      toString (fault.offset + fault.length - 1)

def Crash.message : Crash → String
  | file error => error.message
  | numeral error => error.message
  | notUtf8 fault =>
    "'utf-8' codec can't decode " ++ faultPlace fault ++ ": " ++ fault.reason.message

/-- Why there are no settings. -/
inductive SettingsError where
  | malformedConfig (path : String) (cause : Toml.Cause) (place : Toml.Place)
  | unknownFormat (shown : String)
  | crash (crash : Crash)
deriving DecidableEq, Repr

def SettingsError.message : SettingsError → String
  | malformedConfig path cause place =>
    "invalid config file " ++ path ++ ": " ++ Toml.faultMessage cause place
  | unknownFormat shown =>
    "invalid output format in config (expected one of " ++
      ", ".intercalate (Format.all.map Format.name) ++ "): " ++ shown
  | crash c => c.message

/-- What a run is to do. It has no format if the command line gave the separator
in place of one; the dump is then in text. -/
structure Settings where
  input : Path
  output? : Option Path
  format? : Option Format
  strict : Bool
  debug : Bool
deriving DecidableEq, Repr

/-- The name of a config file that is found without being named. -/
def configName : String := "monkeylex.toml"

/-- The config file in a directory, unless another one is named. -/
def configPath (named? : Option Path) (directory : Path) : Path :=
  named?.getD (directory.child configName)

/-- The path of a file that may be named; an empty name is as good as none. -/
def pathOf? (name? : Option String) : Option Path := (name?.filter (· != "")).map .ofString

/-- The config file that belongs to the arguments. -/
def configPathOf (a : CommandLine.Arguments) : Path :=
  configPath (pathOf? a.config?) (Path.ofString a.input).parent

/-- The table of a config file, given its bytes if there is such a file. -/
def readConfig (path : Path) : Option (List UInt8) → Except SettingsError Toml.Members
  | none => .ok []
  | some bytes =>
    match Utf8.decode bytes with
    | .error fault => .error (.crash (.notUtf8 fault))
    | .ok text =>
      match Toml.read text with
      | .ok members => .ok members
      | .error (.malformed cause place) =>
        .error (.malformedConfig path.toString cause place)
      | .error (.numeral error) => .error (.crash (.numeral error))

/-- What a config file sets. -/
structure Config where
  format? : Option Format
  strict? : Option Bool
deriving DecidableEq, Repr

/-- The table `output` of a config file; anything else of that name counts as
an empty table. -/
def outputTable (members : Toml.Members) : Toml.Members :=
  match members.lookup "output" with
  | some (.table output) => output
  | _ => []

/-- The format that a value names. -/
def formatOfValue : Toml.Value → Except SettingsError Format
  | v =>
    let known := match v with
      | .text name => Format.ofName? name
      | _ => none
    match known with
    | some f => .ok f
    | none =>
      match v.display with
      | .ok shown => .error (.unknownFormat shown)
      | .error error => .error (.crash (.numeral error))

/-- What the table of a config file sets. -/
def configOf (members : Toml.Members) : Except SettingsError Config := do
  let output := outputTable members
  let format? ← (output.lookup "format").mapM formatOfValue
  let strict? := match output.lookup "strict" with
    | some (.boolean b) => some b
    | _ => none
  return ⟨format?, strict?⟩

/-- The settings from the arguments and the config. -/
def merge (a : CommandLine.Arguments) (c : Config) : Settings where
  input := .ofString a.input
  output? := pathOf? a.output?
  format? :=
    match a.format with
    | .format f => some f
    | .blank => none
    | .none => some (c.format?.getD .text)
  strict := a.strict?.getD (c.strict?.getD false)
  debug := a.debug

/-- The settings of a command line, given what is known of its config file: the
bytes if there is one, nothing if there is none, or why it cannot be told. -/
def settings (a : CommandLine.Arguments) (config : Except FileError (Option (List UInt8))) :
    Except SettingsError Settings := do
  let bytes? ← config.mapError fun e => .crash (.file e)
  return merge a (← configOf (← readConfig (configPathOf a) bytes?))

end TokenStream.Program
