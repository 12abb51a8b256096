import Mathlib.Data.List.TakeWhile
import TokenStream.Proofs.Lexeme
import TokenStream.Report

/-!
# Reading JSON

A reader of JSON documents whose values are those of `Json`, apart from the writer: blanks
may stand between all parts, a string may hold any character as an escape, and two halves
of a surrogate pair are joined. Booleans, numbers with a fraction or an exponent, and lone
surrogates have no value here and are refused. Main statements: the reader takes the
indented form of a value and leaves what is behind it (`value?_chars`), so a document is
read back (`read?_pretty`).
-/

namespace TokenStream.Json

/-! ## The reader -/

/-- The blanks between the parts of a document. -/
def isSpace (c : Char) : Bool := c = ' ' || c = '\t' || c = '\n' || c = '\r'

def skipSpace (cs : List Char) : List Char := cs.dropWhile isSpace

/-- The letters of the escapes, with the characters that they stand for. -/
def letters : List (Char × Char) :=
  [('\x22', '\x22'), ('\\', '\\'), ('/', '/'), ('b', '\x08'), ('f', '\x0C'), ('n', '\n'),
   ('r', '\r'), ('t', '\t')]

/-- A code unit of four hexadecimal digits. -/
def unit? (cs : List Char) : Option (Nat × List Char) :=
  if cs.length < 4 then none else (ofHexDigits? (cs.take 4)).map (·, cs.drop 4)

/-- The character that starts with a code unit. The first half of a surrogate pair needs
the other one right behind it. -/
def ofUnit? (unit : Nat) (cs : List Char) : Option (Char × List Char) :=
  if unit < 0xD800 ∨ 0xE000 ≤ unit then some (Char.ofNat unit, cs)
  else
    match cs with
    | '\\' :: 'u' :: cs => do
      let (low, rest) ← unit? cs
      if unit < 0xDC00 ∧ 0xDC00 ≤ low ∧ low < 0xE000 then
        some (Char.ofNat (0x10000 + 0x400 * (unit - 0xD800) + (low - 0xDC00)), rest)
      else none
    | _ => none

/-- One character of a string. -/
def char? : List Char → Option (Char × List Char)
  | [] => none
  | c :: cs =>
    if c = '\\' then
      match cs with
      | [] => none
      | 'u' :: cs => do
        let (unit, rest) ← unit? cs
        ofUnit? unit rest
      | letter :: cs => (letters.lookup letter).map (·, cs)
    else if c = '\x22' ∨ c.toNat < 0x20 then none
    else some (c, cs)

/-- The characters of a string up to its closing mark. Every round takes a character. -/
def string? : Nat → List Char → Option (List Char × List Char)
  | 0, _ => none
  | _, [] => none
  | fuel + 1, c :: cs =>
    if c = '\x22' then some ([], cs)
    else do
      let (d, rest) ← char? (c :: cs)
      let (s, rest) ← string? fuel rest
      return (d :: s, rest)

/-- A sign, if there is one. -/
def minus (cs : List Char) : Bool × List Char :=
  match cs with
  | '-' :: cs => (true, cs)
  | cs => (false, cs)

/-- An integer without leading zeros, behind which the number does not go on. -/
def integer? (cs : List Char) : Option (Int × List Char) :=
  let (negative, cs) := minus cs
  let digits := cs.takeWhile Char.isDigit
  let rest := cs.dropWhile Char.isDigit
  if digits = [] ∨ digits.head? = some '0' ∧ digits.tail ≠ [] ∨
      ['.', 'e', 'E'].any (rest.head? = some ·) then none
  else some (if negative then -(Numeral.value digits : Int) else Numeral.value digits, rest)

mutual

/-- A value. Every level of nesting and every item takes a character. -/
def value? : Nat → List Char → Option (Json × List Char)
  | 0, _ => none
  | _, [] => none
  | fuel + 1, c :: cs =>
    if c = '\x22' then (string? (cs.length + 1) cs).map fun (s, rest) => (.text s, rest)
    else if c = '[' then
      let rest := skipSpace cs
      if rest.head? = some ']' then some (.list [], rest.tail)
      else (items? fuel rest).map fun (items, rest) => (.list items, rest)
    else if c = '\x7b' then
      let rest := skipSpace cs
      if rest.head? = some '\x7d' then some (.table [], rest.tail)
      else (members? fuel rest).map fun (members, rest) => (.table members, rest)
    else if c = 'n' then
      if cs.take 3 = ['u', 'l', 'l'] then some (.null, cs.drop 3) else none
    else (integer? (c :: cs)).map fun (i, rest) => (.integer i, rest)

/-- The items of a list, of which there is one, up to its closing bracket. -/
def items? : Nat → List Char → Option (List Json × List Char)
  | 0, _ => none
  | fuel + 1, cs => do
    let (item, rest) ← value? fuel cs
    match skipSpace rest with
    | ']' :: rest => return ([item], rest)
    | ',' :: rest =>
      let (items, rest) ← items? fuel (skipSpace rest)
      return (item :: items, rest)
    | _ => none

/-- The members of a table, of which there is one, up to its closing bracket. -/
def members? : Nat → List Char → Option (List (List Char × Json) × List Char)
  | 0, _ => none
  | fuel + 1, cs => do
    let (key, value, rest) ← member? fuel cs
    match skipSpace rest with
    | '\x7d' :: rest => return ([(key, value)], rest)
    | ',' :: rest =>
      let (members, rest) ← members? fuel (skipSpace rest)
      return ((key, value) :: members, rest)
    | _ => none

/-- A key with its value. -/
def member? : Nat → List Char → Option (List Char × Json × List Char)
  | 0, _ => none
  | fuel + 1, cs =>
    match cs with
    | '\x22' :: cs => do
      let (key, rest) ← string? (cs.length + 1) cs
      match skipSpace rest with
      | ':' :: rest =>
        let (value, rest) ← value? fuel (skipSpace rest)
        return (key, value, rest)
      | _ => none
    | _ => none

end

/-- The value of a document, if it is one. -/
def read? (document : List Char) : Option Json := do
  let (value, rest) ← value? (2 * document.length) (skipSpace document)
  if skipSpace rest = [] then some value else none

/-! ## Strings are read back -/

theorem unit?_hexDigits {n : Nat} (h : n < 0x10000) (rest : List Char) :
    unit? (hexDigits 4 n ++ rest) = some (n, rest) := by
  have hlen := length_hexDigits 4 n
  rw [unit?, if_neg (by rw [List.length_append]; omega), List.take_left' hlen,
    List.drop_left' hlen, ofHexDigits?_hexDigits h]
  rfl

theorem char?_unitEscape {unit : Nat} (h : unit < 0x10000) (cs : List Char) :
    char? (unitEscape unit ++ cs) = ofUnit? unit cs := by
  show (unit? (hexDigits 4 unit ++ cs) >>= fun p => ofUnit? p.1 p.2) = _
  rw [unit?_hexDigits h]
  rfl

theorem ofUnit?_of_scalar {unit : Nat} (h : unit < 0xD800 ∨ 0xE000 ≤ unit) (cs : List Char) :
    ofUnit? unit cs = some (Char.ofNat unit, cs) := by
  rw [ofUnit?.eq_def]
  exact if_pos h

theorem ofUnit?_of_pair {high low : Nat} (hhigh : high < 0x400) (hlow : low < 0x400)
    (cs : List Char) :
    ofUnit? (0xD800 + high) (unitEscape (0xDC00 + low) ++ cs) =
      some (Char.ofNat (0x10000 + 0x400 * high + low), cs) := by
  rw [ofUnit?.eq_def, if_neg (by omega), unitEscape]
  simp only [List.cons_append]
  rw [unit?_hexDigits (by omega), Option.bind_eq_bind, Option.bind_some, if_pos (by omega),
    Nat.add_sub_cancel_left, Nat.add_sub_cancel_left]

/-- A character is read back from the escapes of its units. -/
theorem char?_unitEscapes (c : Char) (cs : List Char) :
    char? ((Utf16.encodeChar c).flatMap unitEscape ++ cs) = some (c, cs) := by
  have hc : c.toNat < 0xD800 ∨ 0xDFFF < c.toNat ∧ c.toNat < 0x110000 := c.valid
  rw [Utf16.encodeChar]
  split
  · rename_i h
    rw [List.flatMap_singleton, char?_unitEscape h, ofUnit?_of_scalar (by omega), Char.ofNat_toNat]
  · have hsum : 0x10000 + 0x400 * ((c.toNat - 0x10000) / 0x400) + (c.toNat - 0x10000) % 0x400 =
        c.toNat := by omega
    rw [List.flatMap_cons, List.flatMap_singleton, List.append_assoc, char?_unitEscape (by omega),
      ofUnit?_of_pair (by omega) (by omega), hsum, Char.ofNat_toNat]

theorem char?_escape (c : Char) (cs : List Char) : char? (escape c ++ cs) = some (c, cs) := by
  unfold escape
  split_ifs with h1 h2 h3 h4 h5 h6 h7 h8
  · subst h1; rfl
  · subst h2; rfl
  · subst h3; rfl
  · subst h4; rfl
  · subst h5; rfl
  · subst h6; rfl
  · subst h7; rfl
  · rw [List.singleton_append, char?.eq_def]
    simp only [h1, h2, false_or, ↓reduceIte]
    rw [if_neg (by omega)]
  · exact char?_unitEscapes c cs

theorem escape_head (c : Char) : ∃ d ds, escape c = d :: ds ∧ d ≠ '\x22' := by
  unfold escape
  split_ifs with h1 h2 h3 h4 h5 h6 h7 h8
  all_goals try exact ⟨_, _, rfl, by decide⟩
  · exact ⟨c, [], rfl, h1⟩
  · rw [Utf16.encodeChar]
    split <;> exact ⟨_, _, rfl, by decide⟩

theorem string?_escape {s : List Char} {fuel : Nat} {rest : List Char}
    (hf : (s.flatMap escape ++ '\x22' :: rest).length ≤ fuel) :
    string? fuel (s.flatMap escape ++ '\x22' :: rest) = some (s, rest) := by
  induction s generalizing fuel with
  | nil =>
    obtain ⟨fuel, rfl⟩ : ∃ n, fuel = n + 1 := ⟨fuel - 1, by simp at hf; omega⟩
    rfl
  | cons c s ih =>
    obtain ⟨d, ds, hd, hne⟩ := escape_head c
    have hread := char?_escape c (s.flatMap escape ++ '\x22' :: rest)
    rw [List.flatMap_cons, List.append_assoc] at hf ⊢
    rw [hd, List.cons_append] at hf hread ⊢
    rw [List.length_cons, List.length_append] at hf
    obtain ⟨fuel, rfl⟩ : ∃ n, fuel = n + 1 := ⟨fuel - 1, by omega⟩
    rw [string?, if_neg hne, hread, Option.bind_eq_bind, Option.bind_some]
    dsimp only
    rw [ih (by omega)]
    rfl

/-! ## Integers are read back -/

/-- What stands behind a value in the indented form. -/
def Ends (rest : List Char) : Prop := ∀ c ∈ rest.head?, c = ',' ∨ c = '\n'

/-- The digits of a number start with a zero only if that is all. -/
theorem eq_nil_of_toDigits {n : Nat} {ds : List Char} (h : Nat.toDigits 10 n = '0' :: ds) :
    ds = [] := by
  induction n using Nat.strongRecOn generalizing ds with
  | ind n ih =>
    rw [Nat.toDigits_eq_if (by decide)] at h
    split at h
    · exact (List.cons.inj h).2.symm
    · obtain ⟨d, ds', hd⟩ :=
        List.exists_cons_of_ne_nil (Nat.toDigits_ne_nil (n := n / 10) (b := 10))
      rw [hd, List.cons_append, List.cons.injEq] at h
      obtain ⟨rfl, -⟩ := h
      obtain rfl := ih (n / 10) (by omega) hd
      have hzero : n / 10 = 0 := by rw [← Numeral.value_toDigits (n / 10), hd]; rfl
      omega

theorem isDigit_of_mem_toDigits {n : Nat} : ∀ c ∈ Nat.toDigits 10 n, c.isDigit = true :=
  fun _ hc => Nat.isDigit_of_mem_toDigits (by decide) (by decide) hc

/-- A number is read back from its digits, behind a sign or none. -/
theorem integer?_toDigits {cs rest : List Char} {negative : Bool} {n : Nat}
    (hm : minus cs = (negative, Nat.toDigits 10 n ++ rest)) (hr : Ends rest) :
    integer? cs = some (if negative then -(n : Int) else n, rest) := by
  have hstop : ∀ c ∈ rest.head?, c.isDigit = false := by
    intro c hc
    rcases hr c hc with rfl | rfl <;> rfl
  have hgoes : ['.', 'e', 'E'].any (rest.head? = some ·) = false := by
    cases rest with
    | nil => rfl
    | cons c rest => rcases hr c rfl with rfl | rfl <;> rfl
  have hzero : (Nat.toDigits 10 n).head? = some '0' → (Nat.toDigits 10 n).tail = [] := by
    intro h
    obtain ⟨ds, hds⟩ := List.head?_eq_some_iff.1 h
    rw [hds, eq_nil_of_toDigits hds]
    rfl
  rw [integer?, hm]
  dsimp only
  rw [takeWhile_append_stop isDigit_of_mem_toDigits hstop,
    dropWhile_append_stop isDigit_of_mem_toDigits hstop, Numeral.value_toDigits,
    if_neg (by simp [Nat.toDigits_ne_nil, hgoes]; exact hzero)]

theorem integer?_decimal (i : Int) {rest : List Char} (hr : Ends rest) :
    integer? (Numeral.decimal i ++ rest) = some (i, rest) := by
  cases i with
  | ofNat n =>
    have hm : minus (Nat.toDigits 10 n ++ rest) = (false, Nat.toDigits 10 n ++ rest) := by
      rw [minus.eq_def]
      split
      · rename_i h
        rcases List.append_eq_cons_iff.1 h with ⟨hnil, -⟩ | ⟨ds, hds, -⟩
        · exact absurd hnil Nat.toDigits_ne_nil
        · exact absurd (isDigit_of_mem_toDigits '-' (hds ▸ List.mem_cons_self)) (by decide)
      · rfl
    exact integer?_toDigits hm hr
  | negSucc n =>
    have hm : minus ('-' :: (Nat.toDigits 10 (n + 1) ++ rest)) =
        (true, Nat.toDigits 10 (n + 1) ++ rest) := rfl
    exact integer?_toDigits hm hr

/-! ## Values are read back -/

theorem skipSpace_append {blanks cs : List Char} (hb : ∀ c ∈ blanks, isSpace c = true)
    (h : ∀ c ∈ cs.head?, isSpace c = false) : skipSpace (blanks ++ cs) = cs :=
  dropWhile_append_stop hb h

theorem skipSpace_newline (depth : Nat) {cs : List Char} (h : ∀ c ∈ cs.head?, isSpace c = false) :
    skipSpace (newline depth ++ cs) = cs := by
  refine skipSpace_append (fun c hc => ?_) h
  rcases List.mem_cons.1 hc with rfl | hc
  · rfl
  · rw [List.eq_of_mem_replicate hc]
    rfl

theorem decimal_head (i : Int) :
    ∃ c cs, Numeral.decimal i = c :: cs ∧ (c = '-' ∨ c.isDigit = true) := by
  cases i with
  | ofNat n =>
    obtain ⟨d, ds, hd⟩ := List.exists_cons_of_ne_nil (Nat.toDigits_ne_nil (n := n) (b := 10))
    exact ⟨d, ds, hd, .inr (isDigit_of_mem_toDigits d (hd ▸ List.mem_cons_self))⟩
  | negSucc n => exact ⟨_, _, rfl, .inl rfl⟩

/-- The first character of a value tells what follows: it is no blank and closes nothing. -/
theorem chars_head (depth : Nat) (v : Json) :
    ∃ c cs, chars depth v = c :: cs ∧ isSpace c = false ∧ c ≠ ']' := by
  cases v with
  | null => exact ⟨_, _, rfl, by decide⟩
  | integer i =>
    obtain ⟨c, cs, hc, h⟩ := decimal_head i
    refine ⟨c, cs, by rw [chars, hc], ?_⟩
    constructor
    · refine Bool.eq_false_iff.2 fun hspace => ?_
      simp only [isSpace, Bool.or_eq_true, decide_eq_true_eq] at hspace
      rcases hspace with ((rfl | rfl) | rfl) | rfl <;> simp at h
    · rintro rfl
      simp at h
  | text s => exact ⟨_, _, rfl, by decide⟩
  | list items => cases items <;> exact ⟨_, _, by rw [chars], by decide⟩
  | table members =>
    cases members with
    | nil => exact ⟨_, _, by rw [chars], by decide⟩
    | cons m ms => exact ⟨_, _, by rw [chars], by decide⟩

/-- A bound on the rounds that a value takes leaves a round to take. -/
theorem exists_round {depth fuel : Nat} {v : Json} {rest : List Char}
    (hf : 2 * (chars depth v ++ rest).length ≤ fuel) : ∃ n, fuel = n + 1 := by
  obtain ⟨c, cs, hc, -⟩ := chars_head depth v
  rw [hc, List.cons_append, List.length_cons] at hf
  exact ⟨fuel - 1, by omega⟩

theorem value?_quote {s : List Char} {fuel : Nat} {rest : List Char} :
    value? (fuel + 1) (quote s ++ rest) = some (.text s, rest) := by
  rw [quote, List.cons_append, List.cons_append, List.append_assoc, value?, if_pos rfl,
    List.singleton_append, string?_escape (Nat.le_succ _)]
  rfl

theorem ends_newline (depth : Nat) (cs : List Char) : Ends (newline depth ++ cs) := by
  simp [Ends, newline]

/-- What stands behind an item: a comma and the next one, or the end of the list. -/
theorem ends_itemsChars (depth : Nat) (items : List Json) {cs : List Char} (h : Ends cs) :
    Ends (itemsChars depth items ++ cs) := by
  cases items with
  | nil => exact h
  | cons => simp [Ends, itemsChars]

theorem ends_membersChars (depth : Nat) (members : List (List Char × Json)) {cs : List Char}
    (h : Ends cs) : Ends (membersChars depth members ++ cs) := by
  cases members with
  | nil => exact h
  | cons => simp [Ends, membersChars]

section

variable {fuel : Nat} {cs rest tail : List Char} {item : Json} {key : List Char} {value : Json}

theorem items?_of_comma (hv : value? fuel cs = some (item, ',' :: rest)) :
    items? (fuel + 1) cs = (items? fuel (skipSpace rest)).map fun p => (item :: p.1, p.2) := by
  rw [items?, hv, Option.map_eq_bind]
  rfl

theorem items?_of_close (hv : value? fuel cs = some (item, rest))
    (hs : skipSpace rest = ']' :: tail) : items? (fuel + 1) cs = some ([item], tail) := by
  rw [items?, hv, Option.bind_eq_bind, Option.bind_some]
  dsimp only
  rw [hs]
  rfl

theorem members?_of_comma (hm : member? fuel cs = some (key, value, ',' :: rest)) :
    members? (fuel + 1) cs =
      (members? fuel (skipSpace rest)).map fun p => ((key, value) :: p.1, p.2) := by
  rw [members?, hm, Option.map_eq_bind]
  rfl

theorem members?_of_close (hm : member? fuel cs = some (key, value, rest))
    (hs : skipSpace rest = '\x7d' :: tail) :
    members? (fuel + 1) cs = some ([(key, value)], tail) := by
  rw [members?, hm, Option.bind_eq_bind, Option.bind_some]
  dsimp only
  rw [hs]
  rfl

end

/-- Induction on a value: what holds of a list or a table may use that it holds of the items
or of the members' values. -/
@[elab_as_elim]
theorem induct {motive : Json → Prop} (null : motive .null)
    (integer : ∀ i, motive (.integer i)) (text : ∀ s, motive (.text s))
    (list : ∀ items, (∀ item ∈ items, motive item) → motive (.list items))
    (table : ∀ members, (∀ m ∈ members, motive m.2) → motive (.table members))
    (v : Json) : motive v := by
  match v with
  | .null => exact null
  | .integer i => exact integer i
  | .text s => exact text s
  | .list items => exact list items fun item hitem => induct null integer text list table item
  | .table members =>
    exact table members fun (key, value) hmember => induct null integer text list table value
termination_by sizeOf v
decreasing_by
  · have hsize := List.sizeOf_lt_of_mem hitem
    simp only [Json.list.sizeOf_spec]
    omega
  · have hsize := List.sizeOf_lt_of_mem hmember
    simp only [Json.table.sizeOf_spec, Prod.mk.sizeOf_spec] at hsize ⊢
    omega

/-- A value is read up to its end, whatever its depth, if there are enough rounds. -/
def ReadsBack (v : Json) : Prop :=
  ∀ {depth fuel : Nat} {rest : List Char}, 2 * (chars depth v ++ rest).length ≤ fuel →
    Ends rest → value? fuel (chars depth v ++ rest) = some (v, rest)

theorem member?_chars (key : List Char) {value : Json} {depth fuel : Nat} {rest : List Char}
    (hback : ReadsBack value)
    (hf : 2 * (quote key ++ ':' :: ' ' :: (chars depth value ++ rest)).length ≤ fuel)
    (hr : Ends rest) :
    member? fuel (quote key ++ ':' :: ' ' :: (chars depth value ++ rest)) =
      some (key, value, rest) := by
  rw [List.length_append, List.length_cons, List.length_cons] at hf
  obtain ⟨fuel, rfl⟩ : ∃ n, fuel = n + 1 := ⟨fuel - 1, by omega⟩
  obtain ⟨c, cs, hc, hspace, -⟩ := chars_head depth value
  have hskip : skipSpace ([' '] ++ (chars depth value ++ rest)) = chars depth value ++ rest :=
    skipSpace_append (List.forall_mem_singleton.2 rfl) (by rw [hc]; simpa using hspace)
  rw [quote, List.cons_append, List.cons_append, List.append_assoc, member?,
    List.singleton_append, string?_escape (Nat.le_succ _), Option.bind_eq_bind, Option.bind_some]
  dsimp only
  show (value? fuel (skipSpace ([' '] ++ (chars depth value ++ rest))) >>=
    fun p => some (key, p.1, p.2)) = _
  rw [hskip, hback (by omega) hr]
  rfl

theorem items?_chars {item : Json} {items : List Json} {depth outer fuel : Nat}
    {rest : List Char} (hback : ∀ i ∈ item :: items, ReadsBack i)
    (hf : 2 * (chars depth item ++
      (itemsChars depth items ++ (newline outer ++ ']' :: rest))).length < fuel) :
    items? fuel (chars depth item ++ (itemsChars depth items ++ (newline outer ++ ']' :: rest))) =
      some (item :: items, rest) := by
  induction items generalizing item fuel with
  | nil =>
    obtain ⟨fuel, rfl⟩ : ∃ n, fuel = n + 1 := ⟨fuel - 1, by omega⟩
    have hitem := hback item List.mem_cons_self (Nat.le_of_lt_succ hf)
      (ends_newline outer (']' :: rest))
    exact items?_of_close hitem (skipSpace_newline outer (by simp; rfl))
  | cons next items ih =>
    obtain ⟨fuel, rfl⟩ : ∃ n, fuel = n + 1 := ⟨fuel - 1, by omega⟩
    have hitem := hback item List.mem_cons_self (Nat.le_of_lt_succ hf)
      (ends_itemsChars depth (next :: items) (ends_newline outer (']' :: rest)))
    rw [itemsChars] at hf hitem ⊢
    simp only [List.cons_append, List.append_assoc] at hf hitem ⊢
    obtain ⟨c, cs, hc, hspace, -⟩ := chars_head depth next
    rw [items?_of_comma hitem, skipSpace_newline _ (by rw [hc]; simpa using hspace),
      ih (fun i hi => hback i (List.mem_cons_of_mem _ hi)) (by
        simp only [List.length_cons, List.length_append] at hf ⊢
        omega)]
    rfl

theorem members?_chars {key : List Char} {value : Json} {members : List (List Char × Json)}
    {depth outer fuel : Nat} {rest : List Char}
    (hback : ∀ m ∈ (key, value) :: members, ReadsBack m.2)
    (hf : 2 * (quote key ++ (':' :: ' ' :: (chars depth value ++
      (membersChars depth members ++ (newline outer ++ '\x7d' :: rest))))).length < fuel) :
    members? fuel (quote key ++ (':' :: ' ' :: (chars depth value ++
      (membersChars depth members ++ (newline outer ++ '\x7d' :: rest))))) =
      some ((key, value) :: members, rest) := by
  induction members generalizing key value fuel with
  | nil =>
    obtain ⟨fuel, rfl⟩ : ∃ n, fuel = n + 1 := ⟨fuel - 1, by omega⟩
    have hmember := member?_chars key (hback _ List.mem_cons_self)
      (Nat.le_of_lt_succ hf) (ends_newline outer ('\x7d' :: rest))
    exact members?_of_close hmember (skipSpace_newline outer (by simp; rfl))
  | cons next members ih =>
    obtain ⟨fuel, rfl⟩ : ∃ n, fuel = n + 1 := ⟨fuel - 1, by omega⟩
    have hmember := member?_chars key (hback _ List.mem_cons_self)
      (Nat.le_of_lt_succ hf)
      (ends_membersChars depth (next :: members) (ends_newline outer ('\x7d' :: rest)))
    obtain ⟨key', value'⟩ := next
    rw [membersChars] at hf hmember ⊢
    simp only [List.cons_append, List.append_assoc, List.nil_append] at hf hmember ⊢
    rw [members?_of_comma hmember, skipSpace_newline _ (by simp [quote]; rfl),
      ih (fun m hm => hback m (List.mem_cons_of_mem _ hm)) (by
        simp only [List.length_cons, List.length_append] at hf ⊢
        omega)]
    rfl

theorem readsBack_list {items : List Json} (h : ∀ item ∈ items, ReadsBack item) :
    ReadsBack (.list items) := by
  intro depth fuel rest hf hr
  obtain ⟨fuel, rfl⟩ := exists_round hf
  cases items with
  | nil => rfl
  | cons item items =>
    rw [chars] at hf ⊢
    simp only [List.cons_append, List.append_assoc, List.nil_append] at hf ⊢
    have hitems : items? fuel (chars (depth + 1) item ++ (itemsChars (depth + 1) items ++
        (newline depth ++ ']' :: rest))) = some (item :: items, rest) := by
      refine items?_chars h ?_
      simp only [List.length_cons, List.length_append] at hf ⊢
      omega
    obtain ⟨c, cs, hc, hspace, hne⟩ := chars_head (depth + 1) item
    rw [hc] at hitems ⊢
    rw [value?, if_neg (by decide), if_pos rfl, skipSpace_newline _ (by simpa using hspace)]
    dsimp only
    rw [if_neg (by simpa using hne), hitems]
    rfl

theorem readsBack_table {members : List (List Char × Json)} (h : ∀ m ∈ members, ReadsBack m.2) :
    ReadsBack (.table members) := by
  intro depth fuel rest hf hr
  obtain ⟨fuel, rfl⟩ := exists_round hf
  match members with
  | [] => rfl
  | (key, value) :: members =>
    rw [chars] at hf ⊢
    simp only [List.cons_append, List.append_assoc, List.nil_append] at hf ⊢
    have hmembers : members? fuel (quote key ++ (':' :: ' ' :: (chars (depth + 1) value ++
        (membersChars (depth + 1) members ++ (newline depth ++ '\x7d' :: rest))))) =
        some ((key, value) :: members, rest) := by
      refine members?_chars h ?_
      simp only [List.length_cons, List.length_append] at hf ⊢
      omega
    rw [value?, if_neg (by decide), if_neg (by decide), if_pos rfl,
      skipSpace_newline _ (by simp [quote]; rfl)]
    dsimp only
    rw [if_neg (by simp [quote]), hmembers]
    rfl

theorem readsBack_integer (i : Int) : ReadsBack (.integer i) := by
  intro depth fuel rest hf hr
  obtain ⟨fuel, rfl⟩ := exists_round hf
  have hread := integer?_decimal i hr
  obtain ⟨c, cs, hc, h⟩ := decimal_head i
  rw [hc, List.cons_append] at hread
  rw [chars, hc, List.cons_append]
  have hne : c ≠ '\x22' ∧ c ≠ '[' ∧ c ≠ '\x7b' ∧ c ≠ 'n' := by
    refine ⟨?_, ?_, ?_, ?_⟩ <;> rintro rfl <;> simp at h
  rw [value?, if_neg hne.1, if_neg hne.2.1, if_neg hne.2.2.1, if_neg hne.2.2.2, hread]
  rfl

/-- Every value is read back from its indented form. -/
theorem value?_chars (v : Json) : ReadsBack v := by
  induction v using induct with
  | null =>
    intro depth fuel rest hf hr
    obtain ⟨fuel, rfl⟩ := exists_round hf
    rfl
  | integer i => exact readsBack_integer i
  | text s =>
    intro depth fuel rest hf hr
    obtain ⟨fuel, rfl⟩ := exists_round hf
    exact value?_quote
  | list items ih => exact readsBack_list ih
  | table members ih => exact readsBack_table ih

/-- A document in its indented form is read back, with blanks behind it or none. -/
theorem read?_pretty (v : Json) {blanks : List Char} (hb : ∀ c ∈ blanks, isSpace c = true)
    (hends : Ends blanks) : read? (v.pretty ++ blanks) = some v := by
  obtain ⟨c, cs, hc, hspace, -⟩ := chars_head 0 v
  have hskip : skipSpace (v.pretty ++ blanks) = v.pretty ++ blanks := by
    rw [pretty, hc]
    exact List.dropWhile_cons_of_neg (by simp [hspace])
  rw [read?, hskip, pretty, value?_chars v (Nat.le_refl _) hends, Option.bind_eq_bind,
    Option.bind_some]
  exact if_pos (List.dropWhile_eq_nil_iff.2 hb)

end TokenStream.Json
