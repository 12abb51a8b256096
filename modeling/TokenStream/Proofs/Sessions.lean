import TokenStream.Proofs.IllegalReports

/-!
# Sessions of an editor

An editor announces one event after the other, about any number of documents. Each event sees
the text that was given to its document last, leaves the other documents alone, and has one list
of diagnostics published, the one that a fresh workspace has for this text; or the text is
refused, for a run of digits or for a surrogate, and nothing is published, but it stays stored.
What an editor shows of a document is therefore told by the last text that was not refused. Main
statements: `lookup_run` for the texts, `getElem?_publications` for what is published, and
`session_law_iff`.
-/

namespace TokenStream

/-! ## Runs of events -/

/-- The event opens a document. -/
def Event.opens (uri : String) : Event → Bool
  | opened other _ => other = uri
  | _ => false

/-- The texts that events give to a document, in their order. -/
def given (uri : String) (events : List Event) : List Document :=
  (events.filter (·.uri = uri)).flatMap Event.texts

/-- A document is open whenever it is changed or checked. -/
def Orderly (events : List Event) : Prop :=
  ∀ (i : Nat) (h : i < events.length), (events.take (i + 1)).any (Event.opens events[i].uri) = true

instance (events : List Event) : Decidable (Orderly events) :=
  inferInstanceAs (Decidable (∀ (i : Nat) (_ : i < events.length), _ = true))

/-- The event at an index is about a document, and sees a text in it: the last one that was given
to the document up to then. -/
def Sees (events : List Event) (i : Nat) (uri : String) (text : Document) : Prop :=
  (∃ e, events[i]? = some e ∧ e.uri = uri) ∧ (given uri (events.take (i + 1))).getLast? = some text

/-- The list that is published for a document, if it is one of that document. -/
def publishedFor? (uri : String) : Except Refusal Publication → Option (List Diagnostic)
  | .ok p => if p.uri = uri then some p.diagnostics else none
  | .error _ => none

/-- The list that was published last for a document. -/
def shown? (uri : String) (published : List (Except Refusal Publication)) :
    Option (List Diagnostic) :=
  (published.filterMap (publishedFor? uri)).getLast?

namespace Workspace

/-- The workspace after events that come one after the other. -/
def run (w : Workspace) (events : List Event) : Workspace := events.foldl after w

/-! ## Texts -/

section

variable {uri : String} {e : Event}

/-- Of the texts that are stored one after the other, the last one stays. -/
theorem lookup_foldl_store (w : Workspace) (uri : String) (texts : List Document) :
    (texts.foldl (·.store uri) w).documents.lookup uri =
      texts.getLast?.or (w.documents.lookup uri) := by
  induction texts generalizing w with
  | nil => rfl
  | cons text texts ih =>
    rw [List.foldl_cons, ih, lookup_store_self, List.getLast?_cons]
    cases texts.getLast? <;> rfl

theorem lookup_foldl_store_of_ne (w : Workspace) {uri other : String} (h : other ≠ uri)
    (texts : List Document) :
    (texts.foldl (·.store uri) w).documents.lookup other = w.documents.lookup other := by
  induction texts generalizing w with
  | nil => rfl
  | cons text texts ih => rw [List.foldl_cons, ih, lookup_store_of_ne w text h]

/-- An event leaves the documents alone that it is not about. -/
theorem lookup_after_of_ne (w : Workspace) (h : uri ≠ e.uri) :
    (w.after e).documents.lookup uri = w.documents.lookup uri :=
  lookup_foldl_store_of_ne w h e.texts

theorem lookup_after (w : Workspace) (e : Event) (uri : String) :
    (w.after e).documents.lookup uri =
      (given uri [e]).getLast?.or (w.documents.lookup uri) := by
  by_cases h : e.uri = uri
  · subst h
    rw [after, lookup_foldl_store]
    simp [given]
  · rw [lookup_after_of_ne w (Ne.symm h)]
    simp [given, h]

/-- The text of a document is the last one that was given to it. -/
theorem lookup_run (w : Workspace) (events : List Event) (uri : String) :
    (w.run events).documents.lookup uri =
      (given uri events).getLast?.or (w.documents.lookup uri) := by
  induction events generalizing w with
  | nil => rfl
  | cons e es ih =>
    have hgiven : given uri (e :: es) = given uri [e] ++ given uri es := by
      rw [given, ← List.singleton_append, List.filter_append, List.flatMap_append]
      rfl
    rw [run, List.foldl_cons, ← run, ih, lookup_after, hgiven, List.getLast?_append,
      Option.or_assoc]

end

/-! ## Publications -/

section

variable {w : Workspace} {text : Document} {e : Event} {events : List Event} {i : Nat}

theorem length_publications (w : Workspace) (events : List Event) :
    (w.publications events).length = events.length := by
  induction events generalizing w with
  | nil => rfl
  | cons e es ih => rw [publications, List.length_cons, List.length_cons, ih]

/-- Each event has its list published in the workspace that the events before it left. -/
theorem getElem?_publications (w : Workspace) (events : List Event) (i : Nat) :
    (w.publications events)[i]? = events[i]?.map ((w.run (events.take i)).publish ·) := by
  induction events generalizing w i with
  | nil => rfl
  | cons e es ih =>
    cases i with
    | zero => rfl
    | succ i => exact ih (w.after e) i

/-- What is published for a document depends on its text only. -/
theorem publish_eq_of_lookup (h : (w.after e).documents.lookup e.uri = some text) :
    w.publish e = (empty.store e.uri text).publish (.checked e.uri) := by
  have hfresh : ((empty.store e.uri text).after (.checked e.uri)).documents.lookup e.uri =
      some text := lookup_store_self empty e.uri text
  rw [publish, publish, Workspace.text, h, Workspace.text, Event.uri, hfresh]

theorem publish_eq_map (h : (w.after e).documents.lookup e.uri = some text) :
    w.publish e = (diagnose text).map fun ds => ⟨e.uri, ds⟩ :=
  publish_eq_of_text (by rw [Workspace.text, h, Option.getD_some])

theorem run_take_succ (w : Workspace) (h : events[i]? = some e) :
    w.run (events.take (i + 1)) = (w.run (events.take i)).after e := by
  rw [run, run, List.take_add_one, h, List.foldl_append]
  rfl

end

end Workspace

/-! ## The texts that are seen -/

/-- A document that was opened has been given a text. -/
theorem exists_given {uri : String} {events : List Event}
    (h : events.any (Event.opens uri) = true) :
    ∃ text, (given uri events).getLast? = some text := by
  obtain ⟨e, he, hopens⟩ := List.any_eq_true.1 h
  cases e with
  | changed | checked => contradiction
  | opened other text =>
    obtain rfl : other = uri := of_decide_eq_true hopens
    have hmem : text ∈ given other events :=
      List.mem_flatMap.2 ⟨_, List.mem_filter.2 ⟨he, decide_eq_true rfl⟩, .head _⟩
    exact ⟨_, List.getLast?_eq_some_getLast (List.ne_nil_of_mem hmem)⟩

/-- A text without runs of digits that are too long. -/
def Document.IsAccepted (d : Document) : Prop := NumeralsFit d.scrubbed ∧ d.IsText

/-- Why a document has no diagnostics: if it is a text, a run of digits is too long, and if none
is, a surrogate cannot be encoded. -/
structure Refusal.Explains (refusal : Refusal) (d : Document) : Prop where
  numeral : d.IsText → ∃ n, Numeral.maxDigits < n ∧ refusal = .numeral (.tooLongToRead n)
  surrogate : NumeralsFit d.scrubbed → ∃ e, refusal = .unencodable e

/-- Any other document is refused. -/
theorem exists_diagnose_error {d : Document} (h : ¬d.IsAccepted) :
    ∃ refusal, diagnose d = .error refusal ∧ refusal.Explains d := by
  cases hd : diagnose d with
  | ok ds => exact absurd (exists_diagnose_iff.1 ⟨ds, hd⟩) h
  | error refusal =>
    refine ⟨refusal, rfl, fun htext => ?_, fun hfit => ?_⟩
    · obtain ⟨cs, rfl⟩ := htext.exists_chars
      have hnot : ¬NumeralsFit cs := fun hfit =>
        h ⟨by rwa [Document.scrubbed_ofChars], Document.isText_ofChars cs⟩
      cases hes : extents (.ofList cs) with
      | ok es => exact absurd (exists_extents_iff.1 ⟨es, hes⟩) hnot
      | error error =>
        obtain ⟨-, run, -, -, -, hlong, rfl⟩ := extents_eq_error_iff.1 hes
        have hrefused := diagnose_of_refused hes
        rw [Document.ofString, String.toList_ofList, hd] at hrefused
        exact ⟨run.length, hlong, Except.error.inj hrefused⟩
    · rcases Document.eq_ofChars_or_surrogate d with ⟨cs, rfl⟩ | ⟨cs, s, rest, hsplit⟩
      · exact absurd ⟨hfit, Document.isText_ofChars cs⟩ h
      · rw [diagnose_surrogate hfit hsplit] at hd
        exact ⟨_, (Except.error.inj hd).symm⟩

/-- The last item that a function keeps. -/
theorem getLast?_filterMap_eq_some {α β : Type} {f : α → Option β} {as : List α} {i : Nat} {a : α}
    {b : β} (ha : as[i]? = some a) (hf : f a = some b)
    (hbehind : ∀ j x, i < j → as[j]? = some x → f x = none) :
    (as.filterMap f).getLast? = some b := by
  obtain ⟨hi, rfl⟩ := List.getElem?_eq_some_iff.1 ha
  rw [List.getLast?_filterMap, List.findSome?_eq_some_iff]
  refine ⟨(as.drop (i + 1)).reverse, as[i], (as.take i).reverse, ?_, hf, fun x hx => ?_⟩
  · have hsplit : as.take i ++ as[i] :: as.drop (i + 1) = as := by
      rw [List.getElem_cons_drop, List.take_append_drop]
    have hreverse := congrArg List.reverse hsplit
    rw [List.reverse_append, List.reverse_cons, List.append_assoc] at hreverse
    exact hreverse.symm
  · obtain ⟨j, hj⟩ := List.getElem?_of_mem (List.mem_reverse.1 hx)
    rw [List.getElem?_drop] at hj
    exact hbehind (i + 1 + j) x (by omega) hj

/-! ## What a session does -/

/-- What an event of a session does, which sees a text: its document holds the text then and the
others what they held, and one list is published for its document, the one of a fresh workspace,
unless the text is refused. -/
structure StepLaw (events : List Event) (i : Nat) (e : Event) (text : Document) : Prop where
  sees : Sees events i e.uri text
  stored : (Workspace.empty.run (events.take (i + 1))).documents.lookup e.uri = some text
  others : ∀ uri, uri ≠ e.uri →
    (Workspace.empty.run (events.take (i + 1))).documents.lookup uri =
      (Workspace.empty.run (events.take i)).documents.lookup uri
  published : (Workspace.empty.publications events)[i]? =
    some ((Workspace.empty.store e.uri text).publish (.checked e.uri))
  accepted : text.IsAccepted → ∃ ds, diagnose text = .ok ds ∧
    (Workspace.empty.publications events)[i]? = some (.ok ⟨e.uri, ds⟩)
  refused : ¬text.IsAccepted → ∃ refusal, refusal.Explains text ∧
    (Workspace.empty.publications events)[i]? = some (.error refusal)

/-- What an editor shows of a document at the end of a session: the diagnostics of the text that
was seen by the last event about it whose text was not refused, or nothing if there was none. -/
structure ShownLaw (events : List Event) (uri : String) : Prop where
  last_accepted : ∀ i text, Sees events i uri text → text.IsAccepted →
    (∀ j later, i < j → Sees events j uri later → ¬later.IsAccepted) →
    ∃ ds, diagnose text = .ok ds ∧ shown? uri (Workspace.empty.publications events) = some ds
  none_accepted : (∀ i text, Sees events i uri text → ¬text.IsAccepted) →
    shown? uri (Workspace.empty.publications events) = none

section

variable {events : List Event} {i : Nat} {e : Event}

theorem exists_stepLaw (h : Orderly events) (he : events[i]? = some e) :
    ∃ text, StepLaw events i e text := by
  obtain ⟨hi, rfl⟩ := List.getElem?_eq_some_iff.1 he
  obtain ⟨text, htext⟩ := exists_given (h i hi)
  have hrun := Workspace.run_take_succ .empty he
  have hstored : (Workspace.empty.run (events.take (i + 1))).documents.lookup events[i].uri =
      some text := by
    rw [Workspace.lookup_run, htext]
    rfl
  have hpublished := Workspace.getElem?_publications .empty events i
  rw [he, Option.map_some] at hpublished
  rw [hrun] at hstored
  have hdiagnosed := Workspace.publish_eq_map hstored
  refine ⟨text, ⟨⟨_, he, rfl⟩, htext⟩, by rwa [hrun], fun uri hne => ?_, ?_, fun haccepted => ?_,
    fun hnot => ?_⟩
  · rw [hrun, Workspace.lookup_after_of_ne _ hne]
  · rw [hpublished, Workspace.publish_eq_of_lookup hstored]
  · obtain ⟨ds, hds⟩ := exists_diagnose_iff.2 haccepted
    exact ⟨ds, hds, by rw [hpublished, hdiagnosed, hds]; rfl⟩
  · obtain ⟨refusal, hrefusal, hwhy⟩ := exists_diagnose_error hnot
    exact ⟨refusal, hwhy, by rw [hpublished, hdiagnosed, hrefusal]; rfl⟩

theorem Sees.text_eq {uri : String} {text other : Document} (h : Sees events i uri text)
    (h' : Sees events i uri other) : text = other :=
  Option.some.inj (h.2.symm.trans h'.2)

/-- An event that is not about a document, or whose text is refused, publishes nothing for it. -/
theorem publishedFor?_eq_none {uri : String} (h : Orderly events) {j : Nat}
    {p : Except Refusal Publication} (hp : (Workspace.empty.publications events)[j]? = some p)
    (hnot : ∀ text, Sees events j uri text → ¬text.IsAccepted) :
    publishedFor? uri p = none := by
  have hlt : j < events.length := by
    rw [← Workspace.length_publications .empty events]
    exact (List.getElem?_eq_some_iff.1 hp).1
  obtain ⟨text, hlaw⟩ := exists_stepLaw h (List.getElem?_eq_getElem hlt)
  by_cases huri : events[j].uri = uri
  · subst huri
    obtain ⟨refusal, -, herror⟩ := hlaw.refused (hnot text hlaw.sees)
    obtain rfl := Option.some.inj (hp.symm.trans herror)
    rfl
  · by_cases haccepted : text.IsAccepted
    · obtain ⟨ds, -, hok⟩ := hlaw.accepted haccepted
      obtain rfl := Option.some.inj (hp.symm.trans hok)
      exact if_neg huri
    · obtain ⟨refusal, -, herror⟩ := hlaw.refused haccepted
      obtain rfl := Option.some.inj (hp.symm.trans herror)
      rfl

theorem shownLaw (h : Orderly events) (uri : String) : ShownLaw events uri where
  last_accepted i text hsees haccepted hlater := by
    obtain ⟨⟨e, he, rfl⟩, -⟩ := id hsees
    obtain ⟨other, hlaw⟩ := exists_stepLaw h he
    obtain rfl := hsees.text_eq hlaw.sees
    obtain ⟨ds, hds, hpublished⟩ := hlaw.accepted haccepted
    refine ⟨ds, hds, getLast?_filterMap_eq_some hpublished (if_pos rfl) fun j p hj hp => ?_⟩
    exact publishedFor?_eq_none h hp fun later => hlater j later hj
  none_accepted hnone := by
    rw [shown?, List.getLast?_eq_none_iff, List.filterMap_eq_nil_iff]
    intro p hp
    obtain ⟨j, hj⟩ := List.getElem?_of_mem hp
    exact publishedFor?_eq_none h hj (hnone j)

/-- Every event that sees a text without runs of digits that are too long publishes the
diagnostics of the text. -/
def PublishesFitting (events : List Event) : Prop :=
  ∀ i uri text, Sees events i uri text → NumeralsFit text.scrubbed →
    ∃ ds, diagnose text = .ok ds ∧
      (Workspace.empty.publications events)[i]? = some (.ok ⟨uri, ds⟩)

theorem publishesFitting_iff (h : Orderly events) :
    PublishesFitting events ↔
      ∀ i uri text, Sees events i uri text → NumeralsFit text.scrubbed → text.IsText := by
  constructor
  · intro hall i uri text hsees hfit
    obtain ⟨ds, hds, -⟩ := hall i uri text hsees hfit
    exact (exists_diagnose_iff.1 ⟨ds, hds⟩).2
  · intro htexts i uri text hsees hfit
    obtain ⟨⟨e, he, rfl⟩, -⟩ := id hsees
    obtain ⟨other, hlaw⟩ := exists_stepLaw h he
    obtain rfl := hsees.text_eq hlaw.sees
    exact hlaw.accepted ⟨hfit, htexts i e.uri text hsees hfit⟩

end

/-- The law of a session. Each of its events has its text stored, leaves the other documents
alone, and has the diagnostics of the text published, unless the text is refused. What an editor
shows of any document at the end is told by the last text that was not refused. That every text
without runs of digits that are too long has its diagnostics published holds exactly when none of
these texts has a surrogate in it. -/
theorem session_law_iff (events : List Event) (h : Orderly events) :
    (Workspace.empty.publications events).length = events.length ∧
      (∀ i e, events[i]? = some e → ∃ text, StepLaw events i e text) ∧
      (∀ uri, ShownLaw events uri) ∧
      (PublishesFitting events ↔
        ∀ i uri text, Sees events i uri text → NumeralsFit text.scrubbed → text.IsText) :=
  ⟨Workspace.length_publications _ _, fun _ _ he => exists_stepLaw h he, shownLaw h,
    publishesFitting_iff h⟩

/-- A document whose last text is refused is shown with the diagnostics of an earlier one, while
another document is changed by nothing and checked. -/
theorem session_law_refused_change :
    ∃ long : Document, ¬NumeralsFit long.scrubbed ∧
      let events : List Event :=
        [.opened "a" (.ofString "@"), .opened "b" (.ofString "x"),
          .changed "a" [.ofString "1", long], .changed "b" [], .checked "b"]
      Orderly events ∧
        (Workspace.empty.run (events.take 3)).documents.lookup "a" = some long ∧
        (∃ n, (Workspace.empty.publications events)[2]? =
          some (.error (.numeral (.tooLongToRead n)))) ∧
        shown? "a" (Workspace.empty.publications events) =
          some [⟨⟨0, 0⟩, ⟨0, 1⟩, "illegal character \x27@\x27", 1, "monkeylex"⟩] ∧
        shown? "b" (Workspace.empty.publications events) = some [] := by
  obtain ⟨long, htext, hlong⟩ :
      ∃ long : Document, long.IsText ∧ ¬NumeralsFit long.scrubbed := by
    refine ⟨.ofChars (List.replicate 4301 '7'), Document.isText_ofChars _, fun h => ?_⟩
    rw [Document.scrubbed_ofChars] at h
    have hle := h.length_le List.infix_rfl fun c hc => by rw [List.eq_of_mem_replicate hc]; rfl
    rw [List.length_replicate] at hle
    exact absurd hle (by decide)
  refine ⟨long, hlong, ?_⟩
  intro events
  have hrefused : ¬long.IsAccepted := fun h => hlong h.1
  have horderly : Orderly events := of_decide_eq_true rfl
  obtain ⟨-, hsteps, hshown, -⟩ := session_law_iff events horderly
  obtain ⟨text, hlaw⟩ := hsteps 2 _ rfl
  have hsees : Sees events 2 "a" long := ⟨⟨_, rfl, rfl⟩, rfl⟩
  obtain rfl : text = long := hlaw.sees.text_eq hsees
  obtain ⟨refusal, hwhy, herror⟩ := hlaw.refused hrefused
  obtain ⟨n, -, rfl⟩ := hwhy.numeral htext
  have hlater : ∀ j later, 0 < j → Sees events j "a" later → ¬later.IsAccepted := by
    rintro (_ | _ | _ | j) later hj hsees'
    · contradiction
    · obtain ⟨⟨e, he, huri⟩, -⟩ := hsees'
      obtain rfl := Option.some.inj he
      exact absurd huri (by decide)
    · exact hsees.text_eq hsees' ▸ hrefused
    · obtain ⟨⟨e, he, huri⟩, -⟩ := hsees'
      have hmem : e ∈ [Event.changed "b" [], .checked "b"] := List.mem_of_getElem? he
      have hne : ∀ e ∈ [Event.changed "b" [], .checked "b"], e.uri ≠ "a" := by decide
      exact absurd huri (hne e hmem)
  have hlast : ∀ j later, 4 < j → Sees events j "b" later → ¬later.IsAccepted := by
    rintro j later hj ⟨⟨e, he, -⟩, -⟩
    rw [List.getElem?_eq_none (Nat.succ_le_of_lt hj)] at he
    contradiction
  obtain ⟨ds, hds, ha⟩ := (hshown "a").last_accepted 0 (.ofString "@") ⟨⟨_, rfl, rfl⟩, rfl⟩
    ⟨.of_length_le (by decide), Document.isText_ofChars _⟩ hlater
  obtain ⟨ds', hds', hb⟩ := (hshown "b").last_accepted 4 (.ofString "x") ⟨⟨_, rfl, rfl⟩, rfl⟩
    ⟨.of_length_le (by decide), Document.isText_ofChars _⟩ hlast
  have hstray : diagnose (.ofString "@") =
      .ok [⟨⟨0, 0⟩, ⟨0, 1⟩, "illegal character \x27@\x27", 1, "monkeylex"⟩] := by decide +kernel
  have hname : diagnose (.ofString "x") = .ok [] := by decide +kernel
  obtain rfl := Except.ok.inj (hds.symm.trans hstray)
  obtain rfl := Except.ok.inj (hds'.symm.trans hname)
  exact ⟨horderly, hlaw.stored, ⟨n, herror⟩, ha, hb⟩

/-- A document that is opened with a single surrogate has nothing published. -/
theorem not_publishesFitting_surrogate :
    let s : Surrogate := ⟨0xD800, by decide⟩
    let events : List Event := [.opened "a" [.surrogate s]]
    Orderly events ∧
      (∀ i uri text, Sees events i uri text → NumeralsFit text.scrubbed) ∧
      Workspace.empty.publications events = [.error (.unencodable ⟨s, 0⟩)] ∧
      ¬PublishesFitting events := by
  intro s events
  have hpublications : Workspace.empty.publications events = [.error (.unencodable ⟨s, 0⟩)] := by
    decide +kernel
  have hfit : NumeralsFit (Document.scrubbed [.surrogate s]) := .of_length_le (by decide)
  have hsees : Sees events 0 "a" [.surrogate s] := ⟨⟨_, rfl, rfl⟩, rfl⟩
  refine ⟨of_decide_eq_true rfl, fun i uri text h => ?_, hpublications, fun h => ?_⟩
  · obtain ⟨e, he, htext⟩ := List.mem_flatMap.1 (List.mem_of_getLast? h.2)
    obtain rfl := List.mem_singleton.1 (List.mem_of_mem_take (List.mem_of_mem_filter he))
    obtain rfl := List.mem_singleton.1 htext
    exact hfit
  · obtain ⟨ds, -, hpublished⟩ := h 0 "a" _ hsees hfit
    rw [hpublications] at hpublished
    exact absurd (Option.some.inj hpublished) (by simp)

end TokenStream
