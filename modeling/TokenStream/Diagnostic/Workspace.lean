import TokenStream.Diagnostic.Basic

/-!
# Workspaces

The open documents of an editor. Opening, changing and checking a document each
publish its diagnostics once; a document that has none, because it is refused,
publishes nothing, but keeps its new text.
-/

namespace TokenStream

/-- The texts of the open documents by their identifiers, the latest first. -/
structure Workspace where
  documents : List (String × Document)
deriving DecidableEq, Repr

/-- What an editor announces. A change gives the whole text anew, any number of
times. -/
inductive Event where
  | opened (uri : String) (text : Document)
  | changed (uri : String) (texts : List Document)
  | checked (uri : String)
deriving DecidableEq, Repr

/-- The diagnostics of one document, as they are published. -/
structure Publication where
  uri : String
  diagnostics : List Diagnostic
deriving DecidableEq, Repr

def Event.uri : Event → String
  | opened uri _ => uri
  | changed uri _ => uri
  | checked uri => uri

/-- The texts that an event gives to its document, in their order. -/
def Event.texts : Event → List Document
  | opened _ text => [text]
  | changed _ texts => texts
  | checked _ => []

namespace Workspace

def empty : Workspace := ⟨[]⟩

/-- The text of a document; one that is not open has none. -/
def text (w : Workspace) (uri : String) : Document := (w.documents.lookup uri).getD []

/-- Stores the text of a document. -/
def store (w : Workspace) (uri : String) (text : Document) : Workspace :=
  ⟨(uri, text) :: w.documents.filter (·.1 != uri)⟩

theorem lookup_store_self (w : Workspace) (uri : String) (text : Document) :
    (w.store uri text).documents.lookup uri = some text := by
  simp [store]

/-- Storing the text of one document leaves the others alone. -/
theorem lookup_store_of_ne (w : Workspace) {uri other : String} (text : Document)
    (h : other ≠ uri) :
    (w.store uri text).documents.lookup other = w.documents.lookup other := by
  have hb : (other == uri) = false := by simpa using h
  rw [store, List.lookup_cons, hb]
  dsimp only
  induction w.documents with
  | nil => rfl
  | cons d ds ih =>
    by_cases hd : d.1 = uri
    · have : (other == d.1) = false := by rw [hd, hb]
      rw [List.filter_cons_of_neg (by simp [hd]), ih, List.lookup_cons, this]
    · rw [List.filter_cons_of_pos (by simpa using hd), List.lookup_cons, List.lookup_cons, ih]

/-- The workspace after an event. -/
def after (w : Workspace) (event : Event) : Workspace :=
  event.texts.foldl (·.store event.uri) w

/-- What is published for an event. -/
def publish (w : Workspace) (event : Event) : Except Refusal Publication := do
  let ds ← diagnose ((w.after event).text event.uri)
  return ⟨event.uri, ds⟩

theorem publish_eq_of_text {w : Workspace} {event : Event} {d : Document}
    (h : (w.after event).text event.uri = d) :
    w.publish event = (diagnose d).map fun ds => ⟨event.uri, ds⟩ := by
  rw [publish, h]
  cases diagnose d <;> rfl

/-- What is published for events that come one after the other. -/
def publications (w : Workspace) : List Event → List (Except Refusal Publication)
  | [] => []
  | e :: es => w.publish e :: (w.after e).publications es

end Workspace

end TokenStream
