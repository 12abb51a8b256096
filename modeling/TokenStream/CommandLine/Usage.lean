import TokenStream.Report
import TokenStream.Text.Quoted

/-!
# The options of the command line

The options with their spellings, the texts of usage and help, and what can be
wrong with a command line.
-/

namespace TokenStream.CommandLine

inductive Flag where
  | help
  | output
  | format
  | strict
  | noStrict
  | config
  | debug
deriving DecidableEq, Repr

/-- The spellings of the options in the order of the help text. -/
def spellings : List (String × Flag) :=
  [("-h", .help), ("--help", .help), ("-o", .output), ("--output", .output),
   ("-f", .format), ("--format", .format), ("--strict", .strict), ("--no-strict", .noStrict),
   ("--config", .config), ("--debug", .debug)]

namespace Flag

/-- Does the option take a value? -/
def takesValue : Flag → Bool
  | output => true
  | format => true
  | config => true
  | _ => false

/-- The name of an option in messages: all its spellings. The two ways to set
the strict option are one option there. -/
def name : Flag → String
  | help => "-h/--help"
  | output => "-o/--output"
  | format => "-f/--format"
  | strict => "--strict/--no-strict"
  | noStrict => "--strict/--no-strict"
  | config => "--config"
  | debug => "--debug"

end Flag

/-- What is wrong with a command line. -/
inductive UsageError where
  | missingValue (flag : Flag)
  /-- A value was given to an option that takes none. -/
  | unexpectedValue (flag : Flag) (value : String)
  | unknownFormat (value : String)
  /-- A word begins several long spellings. -/
  | ambiguous (word : String) (candidates : List String)
  | missingInput
  | unrecognized (words : List String)
deriving DecidableEq, Repr

def UsageError.message : UsageError → String
  | missingValue flag => "argument " ++ flag.name ++ ": expected one argument"
  | unexpectedValue flag value =>
    "argument " ++ flag.name ++ ": ignored explicit argument " ++ quoted value
  | unknownFormat value =>
    "argument " ++ Flag.format.name ++ ": invalid choice: " ++ quoted value ++ " (choose from " ++
      ", ".intercalate (Format.all.map fun f => quoted f.name) ++ ")"
  | ambiguous word candidates =>
    "ambiguous option: " ++ word ++ " could match " ++ ", ".intercalate candidates
  | missingInput => "the following arguments are required: input"
  | unrecognized words => "unrecognized arguments: " ++ " ".intercalate words

/-- The name of the program. -/
def program : String := "monkeylex"

def usage : String :=
  "usage: monkeylex [-h] [-o OUTPUT] [-f \x7btext,json\x7d] [--strict | --no-strict]\n" ++
  "                 [--config FILE] [--debug]\n" ++
  "                 input\n"

def help : String :=
  usage ++
  "\n" ++
  "Dump the token stream of a source file\n" ++
  "\n" ++
  "positional arguments:\n" ++
  "  input                 Input source file\n" ++
  "\n" ++
  "options:\n" ++
  "  -h, --help            show this help message and exit\n" ++
  "  -o OUTPUT, --output OUTPUT\n" ++
  "                        Output file (default: stdout)\n" ++
  "  -f \x7btext,json\x7d, --format \x7btext,json\x7d\n" ++
  "                        Output format (default: text)\n" ++
  "  --strict, --no-strict\n" ++
  "                        Exit with status 1 if any illegal token is found\n" ++
  "  --config FILE         Config file (default: auto-discover monkeylex.toml)\n" ++
  "  --debug               Trace the cursor to stderr\n"

/-- Why the command line is not carried out. -/
inductive Halt where
  | helpWanted
  | misused (error : UsageError)
deriving DecidableEq, Repr

namespace Halt

def status : Halt → Nat
  | helpWanted => 0
  | misused _ => 2

/-- What is printed: the help text, or the usage and the error. -/
def text : Halt → String
  | helpWanted => help
  | misused error => usage ++ program ++ ": error: " ++ error.message ++ "\n"

end Halt

end TokenStream.CommandLine
