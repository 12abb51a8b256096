import TokenStream.Text.Hex
import TokenStream.Toml.Fault

/-!
# Texts, keys and white space in a TOML document

A text is literal or has escapes, and stands on one line or on several. A key
is a row of parts with points between them, each part bare or a text of one
line. Every reader takes the text from the place where its item starts and
gives the item with what follows it.
-/

namespace TokenStream.Toml

/-- The value of an item, with the text behind it. -/
abbrev Reader (α : Type) := List Char → Except Stop (α × List Char)

def fault {α : Type} (cause : Cause) (rest : List Char) : Except Stop α :=
  .error (.fault cause rest)

/-! ## White space and comments -/

def isSpace (c : Char) : Bool := c = ' ' || c = '\t'

def isSpaceOrNewline (c : Char) : Bool := isSpace c || c = '\n'

def skipSpace (cs : List Char) : List Char := cs.dropWhile isSpace

/-- The control characters other than the tab. -/
def isControl (c : Char) : Bool := (c.toNat < 0x20 && c != '\t') || c = '\x7F'

/-- The control characters other than tab and line feed. -/
def isControlInLines (c : Char) : Bool := isControl c && c != '\n'

/-- Passes over a comment, up to the end of its line. -/
def skipComment (cs : List Char) : Except Stop (List Char) :=
  match cs with
  | '#' :: cs =>
    match cs.dropWhile fun c => c != '\n' && !isControl c with
    | [] => .ok []
    | c :: rest => if c = '\n' then .ok (c :: rest) else fault (.invalidCharacter c) (c :: rest)
  | _ => .ok cs

/-- Passes over white space, line ends and comments, from a place inside or
outside a comment. -/
def skipLinesFrom (inComment : Bool) : List Char → Except Stop (List Char)
  | [] => .ok []
  | c :: cs =>
    if inComment then
      if c = '\n' then skipLinesFrom false cs
      else if isControl c then fault (.invalidCharacter c) (c :: cs)
      else skipLinesFrom true cs
    else if isSpaceOrNewline c then skipLinesFrom false cs
    else if c = '#' then skipLinesFrom true cs
    else .ok (c :: cs)

/-- Passes over white space, line ends and comments. -/
def skipLines (cs : List Char) : Except Stop (List Char) := skipLinesFrom false cs

/-! ## Texts -/

/-- Splits a text around the first occurrence of a delimiter. -/
def splitAt? (delimiter : List Char) : List Char → Option (List Char × List Char)
  | [] => if delimiter.isEmpty then some ([], []) else none
  | c :: cs =>
    if delimiter.isPrefixOf (c :: cs) then some ([], (c :: cs).drop delimiter.length)
    else (splitAt? delimiter cs).map fun (before, after) => (c :: before, after)

/-- The literal text up to a delimiter, free of characters that are not allowed. -/
def literalUpTo (delimiter : String) (isIllegal : Char → Bool) : Reader (List Char) := fun cs =>
  match splitAt? delimiter.toList cs with
  | none => fault (.missingDelimiter delimiter) []
  | some (body, rest) =>
    match body.find? isIllegal with
    | some c => fault (.invalidCharacter c) (cs.dropWhile fun c => !isIllegal c)
    | none => .ok (body, rest)

/-- The character of an escape of the given number of hexadecimal digits. -/
def hexEscape (width : Nat) : Reader (List Char) := fun cs =>
  let digits := cs.take width
  if digits.length < width then fault .invalidHex cs
  else
    match ofHexDigits? digits with
    | none => fault .invalidHex cs
    | some n =>
      if n.isValidChar then .ok ([Char.ofNat n], cs.drop width)
      else fault .notAScalar (cs.drop width)

/-- What an escape stands for, from the character behind the backslash on. In a
text of several lines a backslash at the end of a line takes up all white space
that follows. -/
def escape (multiline : Bool) : Reader (List Char) := fun cs =>
  match cs with
  | [] => fault .strayBackslash []
  | c :: cs =>
    if multiline && isSpaceOrNewline c then
      if c = '\n' then .ok ([], cs.dropWhile isSpaceOrNewline)
      else
        match skipSpace cs with
        | [] => .ok ([], [])
        | d :: rest =>
          if d = '\n' then .ok ([], rest.dropWhile isSpaceOrNewline)
          else fault .strayBackslash (d :: rest)
    else if c = 'u' then hexEscape 4 cs
    else if c = 'U' then hexEscape 8 cs
    else if c = 'b' then .ok (['\x08'], cs)
    else if c = 't' then .ok (['\t'], cs)
    else if c = 'n' then .ok (['\n'], cs)
    else if c = 'f' then .ok (['\x0C'], cs)
    else if c = 'r' then .ok (['\r'], cs)
    else if c = '\x22' then .ok (['\x22'], cs)
    else if c = '\\' then .ok (['\\'], cs)
    else fault .strayBackslash cs

/-- The text with escapes up to its closing quotation marks, behind the
characters already read (the last one first). Every round takes a character. -/
def basicBody (multiline : Bool) : Nat → List Char → Reader (List Char)
  | 0, _, cs => fault .unterminatedText cs
  | _, _, [] => fault .unterminatedText []
  | fuel + 1, done, c :: cs =>
    if c = '\x22' then
      if !multiline then .ok (done.reverse, cs)
      else
        match cs with
        | '\x22' :: '\x22' :: cs => .ok (done.reverse, cs)
        | _ => basicBody multiline fuel (c :: done) cs
    else if c = '\\' then do
      let (s, rest) ← escape multiline cs
      basicBody multiline fuel (s.reverse ++ done) rest
    else if (if multiline then isControlInLines c else isControl c) then
      fault (.illegalCharacter c) (c :: cs)
    else basicBody multiline fuel (c :: done) cs

/-- Up to two more delimiters directly behind the closing three belong to the text. -/
def withTrailing (delimiter : Char) : List Char × List Char → List Char × List Char
  | (body, rest) =>
    let extra := (rest.take 2).takeWhile (· = delimiter)
    (body ++ extra, rest.drop extra.length)

/-- A line feed directly behind the opening three delimiters is not part of the text. -/
def dropFirstNewline : List Char → List Char
  | '\n' :: cs => cs
  | cs => cs

/-- A text of one line, from its opening mark on. -/
def lineText : Reader String := fun cs =>
  match cs with
  | '\x27' :: cs => do
    let (s, rest) ← literalUpTo "'" isControl cs
    return (.ofList s, rest)
  | _ => do
    let (s, rest) ← basicBody false (cs.length + 1) [] (cs.drop 1)
    return (.ofList s, rest)

/-- A text of several lines, from its opening marks on. -/
def blockText : Reader String := fun cs =>
  let body := dropFirstNewline (cs.drop 3)
  match cs with
  | '\x27' :: _ => do
    let (s, rest) := withTrailing '\x27' (← literalUpTo "'''" isControlInLines body)
    return (.ofList s, rest)
  | _ => do
    let (s, rest) := withTrailing '\x22' (← basicBody true (cs.length + 1) [] body)
    return (.ofList s, rest)

/-- A text that stands for a value. -/
def anyText : Reader String := fun cs =>
  match cs with
  | a :: b :: c :: _ => if a = b ∧ b = c then blockText cs else lineText cs
  | _ => lineText cs

/-! ## Keys -/

def isBareKeyChar (c : Char) : Bool := c.isAlphanum || c = '-' || c = '_'

/-- Can a key start with this character? -/
def startsKey (c : Char) : Bool := isBareKeyChar c || c = '\x22' || c = '\x27'

def keyPart : Reader String := fun cs =>
  match cs with
  | [] => fault .invalidKey []
  | c :: _ =>
    if isBareKeyChar c then .ok (.ofList (cs.takeWhile isBareKeyChar), cs.dropWhile isBareKeyChar)
    else if c = '\x22' ∨ c = '\x27' then lineText cs
    else fault .invalidKey cs

/-- A dotted key; every round takes a point and a part. -/
def keyFrom : Nat → Reader Key
  | 0, cs => fault .invalidKey cs
  | fuel + 1, cs => do
    let (part, rest) ← keyPart cs
    match skipSpace rest with
    | '.' :: rest => do
      let (parts, rest) ← keyFrom fuel (skipSpace rest)
      return (part :: parts, rest)
    | rest => return ([part], rest)

def key : Reader Key := fun cs => keyFrom (cs.length + 1) cs

end TokenStream.Toml
