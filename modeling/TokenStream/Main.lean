import TokenStream.Program.Run

/-!
# The program

Reads the two input files, carries out the plan of the run, and prints. All
decisions are taken by `CommandLine.parse` and `Program.plan`.
-/

namespace TokenStream.Main

open Program

/-- The report of a failed operation on a file. -/
def fileError (path : String) (e : IO.Error) : FileError :=
  match e with
  | .noFileOrDirectory .. => .system (PathError.notFound.on path)
  | .inappropriateType _ code details =>
    .system (if code = 21 then PathError.isADirectory.on path else .onPath code.toNat details path)
  | .permissionDenied _ code details => .system (.onPath code.toNat details path)
  | .resourceExhausted _ code details => .system (.onPath code.toNat details path)
  | .invalidArgument _ code details => .system (.onPath code.toNat details path)
  | e => .system (.bare e.toString)

/-- The bytes of a file. -/
def readFile (path : String) : IO (Except FileError (List UInt8)) := do
  if FileTree.hasNull path then return .error .nullInPath
  try
    return .ok (← IO.FS.readBinFile path).toList
  catch e => return .error (fileError path e)

/-- The bytes of a config file, if there is one: no file is there, or something
else is. -/
def readConfigFile (path : String) : IO (Except FileError (Option (List UInt8))) := do
  match ← readFile path with
  | .ok bytes => return .ok (some bytes)
  | .error (.system e) =>
    let absent := [PathError.notFound, .notADirectory, .isADirectory].map PathError.number
    if e.number?.any absent.contains then return .ok none else return .error (.system e)
  | .error .nullInPath => return .ok none

/-- Prints what is left to print and gives the exit status. -/
def finish (o : Outcome) : IO UInt32 := do
  (← IO.getStderr).putStr o.stderr
  (← IO.getStdout).putStr o.stdout
  match o.ending with
  | .status n => return n.toUInt32
  | .halt n => return n.toUInt32
  | .crash c =>
    (← IO.getStderr).putStr (c.message ++ "\n")
    return 1

/-- Carries out a plan. -/
def carryOut (p : Plan) : IO UInt32 := do
  match p with
  | .done o => finish o
  | .save path text stderr o =>
    try
      IO.FS.writeFile path.toString text
      finish o
    catch e => finish ⟨"", stderr, .crash (.file (fileError path.toString e))⟩

end TokenStream.Main

def main (argv : List String) : IO UInt32 := do
  match TokenStream.CommandLine.parse argv with
  | .error h => TokenStream.Main.finish (TokenStream.Program.haltOutcome h)
  | .ok a =>
    let config ← TokenStream.Main.readConfigFile (TokenStream.Program.configPathOf a).toString
    let input ← TokenStream.Main.readFile (TokenStream.Path.ofString a.input).toString
    TokenStream.Main.carryOut (TokenStream.Program.plan a config input)
