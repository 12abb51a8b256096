import TokenStream.CommandLine.Usage
import TokenStream.Text.DecimalDigit

/-!
# The words of a command line

Before any option takes effect every word is classified. A word that starts
with a dash is an option if it is one of the spellings, alone or with a value
behind an equals sign; if it begins just one of the long spellings; or if it
begins with a short spelling, whose value it then holds. Any other such word is
an unknown option, unless it is a single dash, looks like a negative number or
holds a space. The first word `--` separates the options from the words that
follow, which are plain.
-/

namespace TokenStream.CommandLine

inductive Word where
  | plain (word : String)
  | separator
  /-- An option in a long or short spelling, perhaps with a value in the same word. -/
  | option (flag : Flag) (isShort : Bool) (value? : Option String)
  | unknown (word : String)
deriving DecidableEq, Repr

/-- Is the spelling one of a single dash? -/
def isShortSpelling (spelling : String) : Bool := !spelling.startsWith "--"

/-- Splits a word around its first equals sign. -/
def splitEquals? (word : String) : Option (String × String) :=
  let cs := word.toList
  if cs.contains '=' then
    some (.ofList (cs.takeWhile (· != '=')), .ofList ((cs.dropWhile (· != '=')).drop 1))
  else none

/-- Is the text a negative number, with or without a point? A line feed at its
end does not count, and the digits may be of any script. -/
def isNegativeNumber (word : String) : Bool :=
  match word.toList with
  | '-' :: cs =>
    let cs := if cs.getLast? = some '\n' then cs.dropLast else cs
    match cs.dropWhile isDecimalDigit with
    | [] => !cs.isEmpty
    | '.' :: rest => !rest.isEmpty && rest.all isDecimalDigit
    | _ => false
  | _ => false

/-- The long spellings that a word begins. -/
def candidates (beginning : String) : List (String × Flag) :=
  spellings.filter fun (spelling, _) => spelling.startsWith beginning

/-- The options that a word with a dash may mean, when it is none of the spellings. -/
def interpretations (word : String) : List (String × Word) :=
  if word.startsWith "--" then
    let (beginning, value?) :=
      match splitEquals? word with
      | some (beginning, value) => (beginning, some value)
      | none => (word, none)
    (candidates beginning).map fun (spelling, flag) => (spelling, .option flag false value?)
  else
    let cs := word.toList
    (spellings.filter fun (spelling, _) => spelling.toList = cs.take 2).map
      fun (spelling, flag) => (spelling, .option flag true (some (.ofList (cs.drop 2))))

/-- Classifies a word with a dash that is none of the spellings. -/
def classifyLoose (word : String) : Except UsageError Word :=
  match interpretations word with
  | [(_, w)] => .ok w
  | [] =>
    if isNegativeNumber word || word.toList.contains ' ' then .ok (.plain word)
    else .ok (.unknown word)
  | several => .error (.ambiguous word (several.map Prod.fst))

/-- Classifies a word that is not the separator. -/
def classify (word : String) : Except UsageError Word :=
  if !word.startsWith "-" then .ok (.plain word)
  else
    match spellings.lookup word with
    | some flag => .ok (.option flag (isShortSpelling word) none)
    | none =>
      if word = "-" then .ok (.plain word)
      else
        match splitEquals? word with
        | some (spelling, value) =>
          match spellings.lookup spelling with
          | some flag => .ok (.option flag (isShortSpelling spelling) (some value))
          | none => classifyLoose word
        | none => classifyLoose word

/-- Classifies the words of a command line. -/
def words : List String → Except UsageError (List Word)
  | [] => .ok []
  | word :: rest =>
    if word = "--" then .ok (.separator :: rest.map .plain)
    else do
      let w ← classify word
      return w :: (← words rest)

end TokenStream.CommandLine
