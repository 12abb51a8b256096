import TokenStream.Proofs.JsonReader

/-!
# JSON dumps lose nothing

A dump of tokens holds only line feeds and printable characters of ASCII, and the reader gives
its tokens back, so no two lists of tokens share a dump. Main statements: `printable_chars`
for the indented form of every value, `Token.toJson_inj`, and `json_dump_reads_back`.
-/

namespace TokenStream

namespace Json

/-- A line feed, or a printable character of ASCII. -/
def Printable (c : Char) : Prop := c = '\n' ∨ 0x20 ≤ c.toNat ∧ c.toNat ≤ 0x7E

instance : DecidablePred Printable := fun c =>
  inferInstanceAs (Decidable (c = '\n' ∨ 0x20 ≤ c.toNat ∧ c.toNat ≤ 0x7E))

theorem forall_printable {cs : List Char} (h : cs.all (fun c => decide (Printable c)) = true) :
    ∀ c ∈ cs, Printable c :=
  fun c hc => of_decide_eq_true (List.all_eq_true.1 h c hc)

/-! ## The parts of a value -/

theorem printable_digitChar : ∀ d < 16, Printable (Nat.digitChar d) := by decide

theorem printable_hexDigits (width n : Nat) : ∀ c ∈ hexDigits width n, Printable c := by
  induction width generalizing n with
  | zero => simp [hexDigits]
  | succ width ih =>
    rw [hexDigits, List.forall_mem_append, List.forall_mem_singleton]
    exact ⟨ih _, printable_digitChar _ (Nat.mod_lt _ (by decide))⟩

theorem printable_unitEscape (unit : Nat) : ∀ c ∈ unitEscape unit, Printable c := by
  rw [unitEscape, List.forall_mem_cons, List.forall_mem_cons]
  exact ⟨by decide, by decide, printable_hexDigits 4 unit⟩

theorem printable_escape (c : Char) : ∀ d ∈ escape c, Printable d := by
  unfold escape
  split_ifs with h1 h2 h3 h4 h5 h6 h7 h8
  all_goals try exact forall_printable rfl
  · rw [List.forall_mem_singleton]
    exact .inr (by omega)
  · intro d hd
    obtain ⟨unit, -, hd⟩ := List.mem_flatMap.1 hd
    exact printable_unitEscape unit d hd

theorem printable_quote (s : List Char) : ∀ c ∈ quote s, Printable c := by
  rw [quote, List.cons_append, List.forall_mem_cons, List.forall_mem_append]
  refine ⟨by decide, fun d hd => ?_, forall_printable rfl⟩
  obtain ⟨c, -, hd⟩ := List.mem_flatMap.1 hd
  exact printable_escape c d hd

theorem printable_toDigits (n : Nat) : ∀ c ∈ Nat.toDigits 10 n, Printable c := by
  intro c hc
  have hdigit := isDigit_of_mem_toDigits c hc
  rw [Char.isDigit, Bool.and_eq_true, decide_eq_true_eq, decide_eq_true_eq] at hdigit
  obtain ⟨hlow, hhigh⟩ := hdigit
  have hlow : 48 ≤ c.toNat := hlow
  have hhigh : c.toNat ≤ 57 := hhigh
  exact .inr (by omega)

theorem printable_decimal (i : Int) : ∀ c ∈ Numeral.decimal i, Printable c := by
  cases i with
  | ofNat n => exact printable_toDigits n
  | negSucc n =>
    rw [Numeral.decimal, List.forall_mem_cons]
    exact ⟨by decide, printable_toDigits (n + 1)⟩

theorem printable_newline (depth : Nat) : ∀ c ∈ newline depth, Printable c := by
  rw [newline, List.forall_mem_cons]
  refine ⟨by decide, fun c hc => ?_⟩
  rw [List.eq_of_mem_replicate hc]
  decide

/-! ## Values -/

theorem printable_itemsChars {items : List Json}
    (h : ∀ item ∈ items, ∀ depth, ∀ c ∈ chars depth item, Printable c) (depth : Nat) :
    ∀ c ∈ itemsChars depth items, Printable c := by
  induction items with
  | nil => simp [itemsChars]
  | cons item items ih =>
    rw [List.forall_mem_cons] at h
    simp only [itemsChars, List.forall_mem_cons, List.forall_mem_append]
    exact ⟨by decide, ⟨printable_newline depth, h.1 depth⟩, ih h.2⟩

theorem printable_membersChars {members : List (List Char × Json)}
    (h : ∀ m ∈ members, ∀ depth, ∀ c ∈ chars depth m.2, Printable c) (depth : Nat) :
    ∀ c ∈ membersChars depth members, Printable c := by
  induction members with
  | nil => simp [membersChars]
  | cons member members ih =>
    rw [List.forall_mem_cons] at h
    rw [membersChars, List.forall_mem_cons]
    simp only [List.forall_mem_append]
    exact ⟨by decide, ⟨⟨⟨printable_newline depth, printable_quote _⟩, forall_printable rfl⟩,
      h.1 depth⟩, ih h.2⟩

theorem printable_chars (v : Json) (depth : Nat) : ∀ c ∈ chars depth v, Printable c := by
  induction v using induct generalizing depth with
  | null => rw [chars]; exact forall_printable rfl
  | integer i => rw [chars]; exact printable_decimal i
  | text s => rw [chars]; exact printable_quote s
  | list items ih =>
    cases items with
    | nil => rw [chars]; exact forall_printable rfl
    | cons item items =>
      rw [List.forall_mem_cons] at ih
      rw [chars, List.forall_mem_cons]
      simp only [List.forall_mem_append]
      exact ⟨by decide, ⟨printable_newline _, ih.1 _⟩,
        ⟨printable_itemsChars ih.2 _, printable_newline _⟩, forall_printable rfl⟩
  | table members ih =>
    cases members with
    | nil => rw [chars]; exact forall_printable rfl
    | cons member members =>
      rw [List.forall_mem_cons] at ih
      rw [chars, List.forall_mem_cons]
      simp only [List.forall_mem_append]
      exact ⟨by decide, ⟨⟨⟨printable_newline _, printable_quote _⟩, forall_printable rfl⟩,
        ih.1 _⟩, ⟨printable_membersChars ih.2 _, printable_newline _⟩, forall_printable rfl⟩

end Json

/-! ## Dumps of tokens -/

theorem Payload.toJson_inj {p q : Payload} (h : p.toJson = q.toJson) : p = q := by
  cases p <;> cases q <;> simp_all [Payload.toJson, String.toList_inj]

theorem Token.toJson_inj {t u : Token} (h : t.toJson = u.toJson) : t = u := by
  obtain ⟨kind, payload, raw⟩ := t
  obtain ⟨kind', payload', raw'⟩ := u
  simp only [Token.toJson, Json.table.injEq, List.cons.injEq, Prod.mk.injEq, Json.text.injEq,
    String.toList_inj, true_and, and_true] at h
  obtain ⟨hkind, hpayload, hraw⟩ := h
  rw [Kind.name_injective hkind, Payload.toJson_inj hpayload, hraw]

namespace Dump

/-- A dump is refused only for a number of too many digits. -/
theorem json_eq_ok_iff {tokens : List Token} {output : String} :
    json tokens = .ok output ↔
      (∀ t ∈ tokens, t.payload.isWritable = true) ∧ output = .ofList (jsonChars tokens) := by
  rw [json, ← List.all_eq_true]
  split
  · rename_i hall
    rw [Except.ok.injEq, and_iff_right hall, eq_comm]
  · rename_i hall
    exact ⟨fun h => by contradiction, fun h => absurd h.1 hall⟩

theorem read?_jsonChars (tokens : List Token) :
    Json.read? (jsonChars tokens) = some (.list (tokens.map Token.toJson)) :=
  Json.read?_pretty _ (List.forall_mem_singleton.2 rfl) (by simp [Json.Ends])

/-- Two lists of tokens with one dump are the same list. -/
theorem json_inj {tokens others : List Token} {output : String}
    (h : json tokens = .ok output) (h' : json others = .ok output) : others = tokens := by
  obtain ⟨-, rfl⟩ := json_eq_ok_iff.1 h
  obtain ⟨-, hchars⟩ := json_eq_ok_iff.1 h'
  have hread := read?_jsonChars tokens
  rw [String.ofList_injective hchars, read?_jsonChars, Option.some_inj, Json.list.injEq] at hread
  exact (List.map_inj_right fun _ _ => Token.toJson_inj).1 hread

end Dump

/-- The JSON dump of tokens whose numbers can be written: a reader gives every token back,
its kind, its payload as null, a string or an integer, and its raw text; the dump is
printable; and no other tokens have it. -/
theorem json_dump_reads_back (tokens : List Token)
    (h : ∀ t ∈ tokens, t.payload.isWritable = true) :
    ∃ output, Format.json.dump tokens = .ok output ∧
      Json.read? output.toList = some (.list (tokens.map fun t => .table
        [("type".toList, .text t.kind.name.toList),
         ("value".toList, match t.payload with
            | .absent => .null
            | .name s => .text s.toList
            | .number i => .integer i),
         ("raw".toList, .text t.raw.toList)])) ∧
      (∀ c ∈ output.toList, c = '\n' ∨ 0x20 ≤ c.toNat ∧ c.toNat ≤ 0x7E) ∧
      ∀ others, Format.json.dump others = .ok output → others = tokens := by
  have hdump : Dump.json tokens = .ok (.ofList (Dump.jsonChars tokens)) :=
    Dump.json_eq_ok_iff.2 ⟨h, rfl⟩
  refine ⟨_, hdump, ?_, ?_, fun others hothers => Dump.json_inj hdump hothers⟩
  · rw [String.toList_ofList, Dump.read?_jsonChars]
    rfl
  · rw [String.toList_ofList, Dump.jsonChars, List.forall_mem_append, List.forall_mem_singleton]
    exact ⟨Json.printable_chars _ 0, .inl rfl⟩

/-- A name of a quotation mark and a character beyond the basic plane, a negative number, and
no payload. -/
theorem json_dump_reads_back_mixed :
    ∃ output, Format.json.dump [⟨.ident, .name "\"😀", "\"😀"⟩, ⟨.int, .number (-7), "\x7F"⟩,
        Token.eof] = .ok output ∧
      Json.read? output.toList = some (.list [
        .table [("type".toList, .text "IDENT".toList), ("value".toList, .text "\"😀".toList),
          ("raw".toList, .text "\"😀".toList)],
        .table [("type".toList, .text "INT".toList), ("value".toList, .integer (-7)),
          ("raw".toList, .text "\x7F".toList)],
        .table [("type".toList, .text "EOF".toList), ("value".toList, .null),
          ("raw".toList, .text "".toList)]]) := by
  obtain ⟨output, hdump, hread, -⟩ := json_dump_reads_back
    [⟨.ident, .name "\"😀", "\"😀"⟩, ⟨.int, .number (-7), "\x7F"⟩, Token.eof] (by decide +kernel)
  exact ⟨output, hdump, hread⟩

end TokenStream
