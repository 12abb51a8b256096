import TokenStream.Toml.Fault
import TokenStream.Toml.Value

/-!
# Tables under construction

A document fills one table through dotted keys and headers. Opening a key makes
the tables on its way that are missing. Marks remember which keys are closed to
later statements: inline values may not be changed at all, and a table that was
opened once may not be opened again.
-/

namespace TokenStream.Toml

/-- Why a key cannot be opened: a value that is no table stands in its way. -/
inductive Blocked where
  | blocked
deriving DecidableEq, Repr

namespace Members

/-- Sets the value of a member in its place. -/
def replace (ms : Members) (k : String) (v : Value) : Members :=
  ms.map fun (k', v') => if k' = k then (k, v) else (k', v')

/-- Changes the table behind a key, making it if it is missing. On the way a
list of tables stands for its last one, if `throughLists` allows it. -/
def modifyAt (throughLists : Bool) (change : Members → Except Blocked Members) :
    Key → Members → Except Blocked Members
  | [], ms => change ms
  | k :: ks, ms =>
    match ms.lookup k with
    | none => do return ms ++ [(k, .table (← modifyAt throughLists change ks []))]
    | some (.table sub) => do
      return replace ms k (.table (← modifyAt throughLists change ks sub))
    | some (.array items) =>
      match throughLists, items.getLast? with
      | true, some (.table sub) => do
        return replace ms k
          (.array (items.dropLast ++ [.table (← modifyAt throughLists change ks sub)]))
      | _, _ => .error .blocked
    | some _ => .error .blocked

/-- Adds a member, unless there is one of that name. -/
def add (k : String) (v : Value) (ms : Members) : Except Blocked Members :=
  match ms.lookup k with
  | none => .ok (ms ++ [(k, v)])
  | some _ => .error .blocked

/-- Adds an empty table to the list of the given name. -/
def addToList (k : String) (ms : Members) : Except Blocked Members :=
  match ms.lookup k with
  | none => .ok (ms ++ [(k, .array [.table []])])
  | some (.array items) => .ok (replace ms k (.array (items ++ [.table []])))
  | some _ => .error .blocked

end Members

/-- What a mark forbids. -/
inductive Ban where
  /-- No change at all. -/
  | frozen
  /-- No second opening. -/
  | declared
deriving DecidableEq, Repr

/-- A ban on a key, and on all keys below it if it is `deep`. -/
structure Mark where
  key : Key
  ban : Ban
  deep : Bool
deriving DecidableEq, Repr

abbrev Marks := List Mark

namespace Marks

/-- Is the key under the ban? -/
def forbid (marks : Marks) (ban : Ban) (key : Key) : Bool :=
  !key.isEmpty &&
    marks.any fun m => m.ban = ban && (m.key = key || (m.deep && m.key.isPrefixOf key))

/-- Lifts all bans on a key and on the keys below it. -/
def lift (marks : Marks) (key : Key) : Marks := marks.filter fun m => !key.isPrefixOf m.key

def add (marks : Marks) (key : Key) (ban : Ban) (deep : Bool) : Marks := ⟨key, ban, deep⟩ :: marks

end Marks

end TokenStream.Toml
