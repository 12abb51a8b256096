import TokenStream.Toml.Scalar
import TokenStream.Toml.Table

/-!
# TOML documents

A document is a row of statements, one a line: a key with its value, the header
of a table, or the header of an item of a list of tables. Reading gives the
table of the whole document, or the first fault with its place.
-/

namespace TokenStream.Toml

/-- A value that stands for itself, whatever is later written below its key. -/
def Value.isInline : Value → Bool
  | .array _ => true
  | .table _ => true
  | _ => false

/-- Turns a blocked key into a fault. -/
def unblocked {α : Type} (cause : Cause) (rest : List Char) : Except Blocked α → Except Stop α
  | .ok a => .ok a
  | .error _ => fault cause rest

/-- An inline table that is being read: its members, and the keys that may not
be changed any more. -/
structure InlineTable where
  members : Members
  marks : Marks

/-- Adds a member to an inline table. -/
def InlineTable.add (t : InlineTable) (key : Key) (value : Value) (rest : List Char) :
    Except Stop InlineTable := do
  if t.marks.forbid .frozen key then fault (.immutable key) rest
  let name := key.getLast?.getD ""
  -- the tables on the way come first, so that their faults win
  let opened ← unblocked .overwritten rest (t.members.modifyAt false .ok key.dropLast)
  let members ← unblocked (.duplicate name) rest
    (opened.modifyAt false (Members.add name value) key.dropLast)
  return ⟨members, if value.isInline then t.marks.add key .frozen true else t.marks⟩

mutual

/-- A value. Every level of nesting and every item takes a character. -/
def value : Nat → Reader Value
  | 0, cs => fault .invalidValue cs
  | fuel + 1, cs =>
    match cs with
    | '\x22' :: _ => (anyText cs).map fun (s, rest) => (.text s, rest)
    | '\x27' :: _ => (anyText cs).map fun (s, rest) => (.text s, rest)
    | '[' :: rest => do
      let rest ← skipLines rest
      match rest with
      | ']' :: rest => return (.array [], rest)
      | _ => items fuel [] rest
    | '\x7b' :: rest =>
      match skipSpace rest with
      | '\x7d' :: rest => .ok (.table [], rest)
      | rest => inlineMembers fuel ⟨[], []⟩ rest
    | _ => scalar cs

/-- The items of an array behind those already read (the last one first). -/
def items : Nat → List Value → Reader Value
  | 0, _, cs => fault .unclosedArray cs
  | fuel + 1, done, cs => do
    let (v, rest) ← value fuel cs
    let rest ← skipLines rest
    match rest with
    | ']' :: rest => return (.array (v :: done).reverse, rest)
    | ',' :: rest =>
      let rest ← skipLines rest
      match rest with
      | ']' :: rest => return (.array (v :: done).reverse, rest)
      | _ => items fuel (v :: done) rest
    | _ => fault .unclosedArray rest

/-- The members of an inline table behind those already read. -/
def inlineMembers : Nat → InlineTable → Reader Value
  | 0, _, cs => fault .unclosedInlineTable cs
  | fuel + 1, t, cs => do
    let (k, v, rest) ← keyValue fuel cs
    let t ← t.add k v rest
    match skipSpace rest with
    | '\x7d' :: rest => return (.table t.members, rest)
    | ',' :: rest => inlineMembers fuel t (skipSpace rest)
    | rest => fault .unclosedInlineTable rest

/-- A key with its value. -/
def keyValue : Nat → List Char → Except Stop (Key × Value × List Char)
  | 0, cs => fault .invalidKey cs
  | fuel + 1, cs => do
    let (k, rest) ← key cs
    match rest with
    | '=' :: rest =>
      let (v, rest) ← value fuel (skipSpace rest)
      return (k, v, rest)
    | _ => fault .missingEquals rest

end

/-- What the statements so far have built: the table, the marks on its keys,
the keys to be marked at the next header, and the key of the last header. -/
structure Builder where
  members : Members
  marks : Marks
  pending : List Key
  header : Key

namespace Builder

def empty : Builder := ⟨[], [], [], []⟩

/-- Puts the pending marks into force. -/
def settle (b : Builder) : Builder :=
  { b with
    marks := b.pending.foldl (fun marks k => marks.add k .declared false) b.marks
    pending := [] }

/-- Defines the value of a dotted key below the last header. -/
def define (b : Builder) (key : Key) (v : Value) (rest : List Char) : Except Stop Builder := do
  -- the tables on the way, from the outermost one
  let way := (List.range (key.length - 1)).map fun n => b.header ++ key.take (n + 1)
  match way.find? (b.marks.forbid .declared) with
  | some k => fault (.redefined k) rest
  | none =>
  let parent := b.header ++ key.dropLast
  if b.marks.forbid .frozen parent then fault (.immutable parent) rest
  let members ← unblocked .overwritten rest
    (b.members.modifyAt true (Members.add (key.getLast?.getD "") v) parent)
  let marks := if v.isInline then b.marks.add (b.header ++ key) .frozen true else b.marks
  return { b with members, marks, pending := way ++ b.pending }

/-- Opens a table. -/
def openTable (b : Builder) (key : Key) (rest : List Char) : Except Stop Builder := do
  if b.marks.forbid .declared key || b.marks.forbid .frozen key then
    fault (.declaredTwice key) rest
  let members ← unblocked .overwritten rest (b.members.modifyAt true .ok key)
  return { b with members, marks := b.marks.add key .declared false, header := key }

/-- Opens the next item of a list of tables. -/
def openItem (b : Builder) (key : Key) (rest : List Char) : Except Stop Builder := do
  if b.marks.forbid .frozen key then fault (.immutable key) rest
  let members ← unblocked .overwritten rest
    (b.members.modifyAt true (Members.addToList (key.getLast?.getD "")) key.dropLast)
  return { b with members, marks := (b.marks.lift key).add key .declared false, header := key }

end Builder

/-- A header, from its opening bracket on. -/
def header (b : Builder) (cs : List Char) : Except Stop (Builder × List Char) := do
  let b := b.settle
  match cs with
  | '[' :: '[' :: rest =>
    let (k, rest) ← key (skipSpace rest)
    let b ← b.openItem k rest
    match rest with
    | ']' :: ']' :: rest => return (b, rest)
    | _ => fault .unclosedArrayHeader rest
  | _ =>
    let (k, rest) ← key (skipSpace (cs.drop 1))
    let b ← b.openTable k rest
    match rest with
    | ']' :: rest => return (b, rest)
    | _ => fault .unclosedTableHeader rest

/-- One statement, or none at a comment. -/
def statement (b : Builder) (cs : List Char) : Except Stop (Builder × List Char) :=
  match cs with
  | [] => .ok (b, [])
  | c :: _ =>
    if startsKey c then do
      let (k, v, rest) ← keyValue (2 * cs.length + 2) cs
      return (← b.define k v rest, skipSpace rest)
    else if c = '[' then do
      let (b, rest) ← header b cs
      return (b, skipSpace rest)
    else if c = '#' then .ok (b, cs)
    else fault .invalidStatement cs

/-- The statements of a document. Every round but the last one takes a line end. -/
def statements : Nat → Builder → List Char → Except Stop Members
  | 0, b, _ => .ok b.members
  | fuel + 1, b, cs =>
    match skipSpace cs with
    | [] => .ok b.members
    | '\n' :: rest => statements fuel b rest
    | cs => do
      let (b, rest) ← statement b cs
      match ← skipComment rest with
      | [] => return b.members
      | '\n' :: rest => statements fuel b rest
      | rest => fault .missingNewline rest

/-- Line ends of two characters count as line feeds. -/
def unifyNewlines : List Char → List Char
  | '\r' :: '\n' :: cs => '\n' :: unifyNewlines cs
  | c :: cs => c :: unifyNewlines cs
  | [] => []

/-- The table of a document. -/
def read (text : List Char) : Except Error Members :=
  let document := unifyNewlines text
  (statements (document.length + 1) .empty document).mapError (.ofStop document)

end TokenStream.Toml
