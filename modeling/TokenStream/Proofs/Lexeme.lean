import TokenStream.Numeral
import TokenStream.Proofs.Alphabet

/-!
# Lexemes

A lexeme is the source text of one token. `Lexeme raw t` says that `raw` is one
and calls for the token `t`; `Token.ofLexeme` is the same as a function, and
`munch` splits the longest lexeme off a text. Main statements: a lexeme calls for
one token (`Lexeme.eq_ofLexeme`), the keywords, operators and symbols are the lexemes
of their kinds (`Lexeme.kind_eq_iff`), every text that starts with no blank starts
with a lexeme (`shape_munch`, `Shape.lexeme`) that nothing behind it goes on with
(`not_continues_munch`), and that is the only one of this kind (`munch_append`).
-/

namespace TokenStream

/-- The lexemes and the tokens that they call for. -/
inductive Lexeme : List Char → Token → Prop
  | keyword {w : List Char} {kind : Kind} (hw : w ≠ []) (hl : ∀ c ∈ w, isLetter c = true)
      (hk : (String.ofList w, kind) ∈ Kind.keywords) : Lexeme w ⟨kind, .absent, .ofList w⟩
  | name {w : List Char} (hw : w ≠ []) (hl : ∀ c ∈ w, isLetter c = true)
      (hk : ∀ kind, (String.ofList w, kind) ∉ Kind.keywords) :
      Lexeme w ⟨.ident, .name (.ofList w), .ofList w⟩
  | number {ds : List Char} (hd : ds ≠ []) (hl : ∀ c ∈ ds, c.isDigit = true)
      (hv : Numeral.value ds ≤ maxInt) : Lexeme ds ⟨.int, .number (Numeral.value ds), .ofList ds⟩
  | overflow {ds : List Char} (hd : ds ≠ []) (hl : ∀ c ∈ ds, c.isDigit = true)
      (hv : maxInt < Numeral.value ds) : Lexeme ds ⟨.illegal, .absent, .ofList ds⟩
  | operator {c : Char} {alone withEquals : Kind} (hc : (c, alone, withEquals) ∈ Kind.operators) :
      Lexeme [c] ⟨alone, .absent, .ofList [c]⟩
  | operatorEquals {c : Char} {alone withEquals : Kind}
      (hc : (c, alone, withEquals) ∈ Kind.operators) :
      Lexeme [c, '='] ⟨withEquals, .absent, .ofList [c, '=']⟩
  | symbol {c : Char} {kind : Kind} (hc : (c, kind) ∈ Kind.symbols) :
      Lexeme [c] ⟨kind, .absent, .ofList [c]⟩
  /-- Any other character that is no blank. -/
  | stray {c : Char} (hb : isBlank c = false) (hl : isLetter c = false) (hd : c.isDigit = false)
      (ho : ∀ kinds, (c, kinds) ∉ Kind.operators) (hs : ∀ kind, (c, kind) ∉ Kind.symbols) :
      Lexeme [c] ⟨.illegal, .absent, .ofList [c]⟩

/-- Does reading go on with the character when it stands right behind the lexeme? -/
def Continues (raw : List Char) (c : Char) : Prop :=
  ((∀ d ∈ raw, isLetter d = true) ∧ isLetter c = true) ∨
    ((∀ d ∈ raw, d.isDigit = true) ∧ c.isDigit = true) ∨ ((raw = ['='] ∨ raw = ['!']) ∧ c = '=')

/-- The longest lexeme at the start of a text. -/
def munch : List Char → List Char
  | [] => []
  | c :: cs =>
    if isLetter c then (c :: cs).takeWhile isLetter
    else if c.isDigit then (c :: cs).takeWhile Char.isDigit
    else if (c = '=' ∨ c = '!') ∧ cs.head? = some '=' then [c, '=']
    else [c]

/-! ## The tables -/

theorem lookup_eq_some_iff_mem {α β : Type} [BEq α] [LawfulBEq α] {table : List (α × β)}
    (h : ∀ e ∈ table, table.lookup e.1 = some e.2) {a : α} {b : β} :
    table.lookup a = some b ↔ (a, b) ∈ table := by
  refine ⟨fun hl => ?_, fun hm => h _ hm⟩
  obtain ⟨before, behind, rfl, -⟩ := List.lookup_eq_some_iff.1 hl
  simp

theorem lookup_eq_none_of_forall {α β : Type} [BEq α] [LawfulBEq α] {table : List (α × β)} {a : α}
    (h : ∀ b, (a, b) ∉ table) : table.lookup a = none :=
  List.lookup_eq_none_iff.2 fun e he => by
    simp only [bne_iff_ne, ne_eq]
    rintro rfl
    exact h _ he

namespace Kind

theorem lookup_keywords {word : String} {kind : Kind} :
    keywords.lookup word = some kind ↔ (word, kind) ∈ keywords :=
  lookup_eq_some_iff_mem (by decide)

theorem lookup_operators {c : Char} {kinds : Kind × Kind} :
    operators.lookup c = some kinds ↔ (c, kinds) ∈ operators :=
  lookup_eq_some_iff_mem (by decide)

theorem lookup_symbols {c : Char} {kind : Kind} :
    symbols.lookup c = some kind ↔ (c, kind) ∈ symbols :=
  lookup_eq_some_iff_mem (by decide)

theorem eq_of_mem_operators {c : Char} {kinds : Kind × Kind} (h : (c, kinds) ∈ operators) :
    c = '=' ∨ c = '!' := by
  simp only [operators, List.mem_cons, Prod.mk.injEq, List.not_mem_nil, or_false] at h
  exact h.imp And.left And.left

theorem mem_operators_of_eq {c : Char} (h : c = '=' ∨ c = '!') :
    ∃ kinds, (c, kinds) ∈ operators := by
  rcases h with rfl | rfl
  · exact ⟨_, .head _⟩
  · exact ⟨_, .tail _ (.head _)⟩

theorem ident_notMem_keywords (word : String) : (word, ident) ∉ keywords := by
  simp [keywords]

end Kind

/-! ## The token of a lexeme as a function -/

namespace Token

/-- The token of a run of digits, however long. -/
def ofDigits (digits : List Char) : Token :=
  if maxInt < Numeral.value digits then ⟨.illegal, .absent, .ofList digits⟩
  else ⟨.int, .number (Numeral.value digits), .ofList digits⟩

/-- The token that a lexeme calls for; without one, the text has ended. -/
def ofLexeme : List Char → Token
  | [] => eof
  | c :: cs =>
    if isLetter c then ofWord (.ofList (c :: cs))
    else if c.isDigit then ofDigits (c :: cs)
    else
      match Kind.operators.lookup c with
      | some (alone, withEquals) =>
        ⟨if cs = [] then alone else withEquals, .absent, .ofList (c :: cs)⟩
      | none => ⟨(Kind.symbols.lookup c).getD .illegal, .absent, .ofList (c :: cs)⟩

theorem ofLexeme_of_letters {w : List Char} (hw : w ≠ []) (hl : ∀ c ∈ w, isLetter c = true) :
    ofLexeme w = ofWord (.ofList w) := by
  cases w with
  | nil => exact absurd rfl hw
  | cons c cs => rw [ofLexeme, if_pos (hl c (.head _))]

theorem ofLexeme_of_digits {ds : List Char} (hd : ds ≠ []) (hl : ∀ c ∈ ds, c.isDigit = true) :
    ofLexeme ds = ofDigits ds := by
  cases ds with
  | nil => exact absurd rfl hd
  | cons c cs =>
    have hc := hl c (.head _)
    rw [ofLexeme, if_neg (by simp [not_isLetter_of_isDigit hc]), if_pos hc]

theorem ofLexeme_of_operator {c : Char} {alone withEquals : Kind}
    (hc : (c, alone, withEquals) ∈ Kind.operators) (cs : List Char) :
    ofLexeme (c :: cs) =
      ⟨if cs = [] then alone else withEquals, .absent, .ofList (c :: cs)⟩ := by
  obtain ⟨-, hl, hd, -⟩ := Kind.operators_apart _ hc
  simp only at hl hd
  simp [ofLexeme, hl, hd, Kind.lookup_operators.2 hc]

theorem ofLexeme_of_other {c : Char} (hl : isLetter c = false) (hd : c.isDigit = false)
    (ho : Kind.operators.lookup c = none) :
    ofLexeme [c] = ⟨(Kind.symbols.lookup c).getD .illegal, .absent, .ofList [c]⟩ := by
  simp [ofLexeme, hl, hd, ho]

theorem raw_ofLexeme (raw : List Char) : (ofLexeme raw).raw = .ofList raw := by
  cases raw with
  | nil => rfl
  | cons c cs =>
    simp only [ofLexeme]
    split
    · rfl
    · split
      · simp only [ofDigits]
        split <;> rfl
      · split <;> rfl

end Token

/-- A lexeme calls for one token only. -/
theorem Lexeme.eq_ofLexeme {raw : List Char} {t : Token} (h : Lexeme raw t) :
    t = Token.ofLexeme raw := by
  cases h with
  | @keyword _ kind hw hl hk =>
    have hk' : Kind.ofWord (.ofList raw) = kind := by
      rw [Kind.ofWord, Kind.lookup_keywords.2 hk, Option.getD_some]
    have hne : kind ≠ .ident := fun e => Kind.ident_notMem_keywords _ (e ▸ hk)
    simp [Token.ofLexeme_of_letters hw hl, Token.ofWord, hk', hne]
  | name hw hl hk =>
    have hk' : Kind.ofWord (.ofList raw) = .ident := by
      rw [Kind.ofWord, lookup_eq_none_of_forall hk, Option.getD_none]
    simp [Token.ofLexeme_of_letters hw hl, Token.ofWord, hk']
  | number hd hl hv => rw [Token.ofLexeme_of_digits hd hl, Token.ofDigits, if_neg (Nat.not_lt.2 hv)]
  | overflow hd hl hv => rw [Token.ofLexeme_of_digits hd hl, Token.ofDigits, if_pos hv]
  | operator hc => simp [Token.ofLexeme_of_operator hc]
  | operatorEquals hc => simp [Token.ofLexeme_of_operator hc]
  | symbol hc =>
    obtain ⟨-, hl, hd, ho⟩ := Kind.symbols_apart _ hc
    rw [Token.ofLexeme_of_other hl hd ho, Kind.lookup_symbols.2 hc, Option.getD_some]
  | stray _ hl hd ho hs =>
    rw [Token.ofLexeme_of_other hl hd (lookup_eq_none_of_forall ho), lookup_eq_none_of_forall hs,
      Option.getD_none]

theorem Lexeme.toList_raw {raw : List Char} {t : Token} (h : Lexeme raw t) :
    t.raw.toList = raw := by
  rw [h.eq_ofLexeme, Token.raw_ofLexeme, String.toList_ofList]

/-! ## Lexemes of one kind each -/

/-- The lexemes that stand for one kind each. -/
def fixedLexemes : List (String × Kind) :=
  [("fn", .fnKeyword), ("let", .letKeyword), ("return", .returnKeyword), ("if", .ifKeyword),
   ("else", .elseKeyword), ("true", .trueKeyword), ("false", .falseKeyword),
   ("+", .plus), ("-", .minus), ("*", .asterisk), ("/", .slash), (";", .semicolon),
   (",", .comma), ("\x7b", .lbrace), ("\x7d", .rbrace), ("(", .lparen), (")", .rparen),
   (">", .gt), ("<", .lt), ("=", .assign), ("==", .eq), ("!", .bang), ("!=", .notEq)]

/-- A lexeme calls for one of these kinds exactly when it is the one that is written out. -/
theorem Lexeme.kind_eq_iff {raw : List Char} {t : Token} (h : Lexeme raw t) :
    ∀ e ∈ fixedLexemes, t.kind = e.2 ↔ raw = e.1.toList := by
  intro e he
  have hother : ∀ e ∈ fixedLexemes, e.2 ≠ .ident ∧ e.2 ≠ .int ∧ e.2 ≠ .illegal := by decide
  obtain ⟨hident, hint, hillegal⟩ := hother e he
  constructor
  · intro hk
    cases h with
    | keyword _ _ hw =>
      have : ∀ w ∈ Kind.keywords, ∀ e ∈ fixedLexemes, w.2 = e.2 → w.1 = e.1 := by decide
      have hword := this _ hw e he hk
      rw [← hword, String.toList_ofList]
    | name => exact absurd hk.symm hident
    | number => exact absurd hk.symm hint
    | overflow | stray => exact absurd hk.symm hillegal
    | operator hc =>
      have : ∀ o ∈ Kind.operators, ∀ e ∈ fixedLexemes, o.2.1 = e.2 → [o.1] = e.1.toList := by decide
      exact this _ hc e he hk
    | operatorEquals hc =>
      have : ∀ o ∈ Kind.operators, ∀ e ∈ fixedLexemes, o.2.2 = e.2 → [o.1, '='] = e.1.toList := by
        decide
      exact this _ hc e he hk
    | symbol hc =>
      have : ∀ s ∈ Kind.symbols, ∀ e ∈ fixedLexemes, s.2 = e.2 → [s.1] = e.1.toList := by decide
      exact this _ hc e he hk
  · rintro rfl
    have htoken : ∀ e ∈ fixedLexemes, (Token.ofLexeme e.1.toList).kind = e.2 := by decide +kernel
    rw [h.eq_ofLexeme, htoken e he]

/-! ## The shapes of lexemes -/

/-- The shapes of lexemes: runs of letters and of digits, the operators with an
equals sign behind them, and any other single character that is no blank. -/
inductive Shape : List Char → Prop
  | letters {w : List Char} (hw : w ≠ []) (hl : ∀ c ∈ w, isLetter c = true) : Shape w
  | digits {ds : List Char} (hd : ds ≠ []) (hl : ∀ c ∈ ds, c.isDigit = true) : Shape ds
  | withEquals {c : Char} (hc : c = '=' ∨ c = '!') : Shape [c, '=']
  | single {c : Char} (hb : isBlank c = false) (hl : isLetter c = false) (hd : c.isDigit = false) :
      Shape [c]

theorem Lexeme.shape {raw : List Char} {t : Token} (h : Lexeme raw t) : Shape raw := by
  cases h with
  | keyword hw hl | name hw hl => exact .letters hw hl
  | number hd hl | overflow hd hl => exact .digits hd hl
  | operator hc =>
    obtain ⟨hb, hl, hd, -⟩ := Kind.operators_apart _ hc
    exact .single hb hl hd
  | operatorEquals hc => exact .withEquals (Kind.eq_of_mem_operators hc)
  | symbol hc =>
    obtain ⟨hb, hl, hd, -⟩ := Kind.symbols_apart _ hc
    exact .single hb hl hd
  | stray hb hl hd => exact .single hb hl hd

/-- Every text of one of these shapes is a lexeme. -/
theorem Shape.lexeme {raw : List Char} (h : Shape raw) : Lexeme raw (Token.ofLexeme raw) := by
  suffices ∃ t, Lexeme raw t by
    obtain ⟨t, ht⟩ := this
    rwa [← ht.eq_ofLexeme]
  cases h with
  | letters hw hl =>
    by_cases hk : ∃ kind, (String.ofList raw, kind) ∈ Kind.keywords
    · exact hk.elim fun kind hk => ⟨_, .keyword hw hl hk⟩
    · exact ⟨_, .name hw hl fun kind h => hk ⟨kind, h⟩⟩
  | digits hd hl =>
    rcases Nat.lt_or_ge maxInt (Numeral.value raw) with hv | hv
    · exact ⟨_, .overflow hd hl hv⟩
    · exact ⟨_, .number hd hl hv⟩
  | withEquals hc =>
    obtain ⟨kinds, hk⟩ := Kind.mem_operators_of_eq hc
    exact ⟨_, .operatorEquals hk⟩
  | @single c hb hl hd =>
    by_cases ho : ∃ kinds, (c, kinds) ∈ Kind.operators
    · exact ho.elim fun kinds ho => ⟨_, .operator ho⟩
    · by_cases hs : ∃ kind, (c, kind) ∈ Kind.symbols
      · exact hs.elim fun kind hs => ⟨_, .symbol hs⟩
      · exact ⟨_, .stray hb hl hd (fun kinds h => ho ⟨kinds, h⟩) fun kind h => hs ⟨kind, h⟩⟩

theorem Shape.ne_nil {raw : List Char} (h : Shape raw) : raw ≠ [] := by
  cases h with
  | letters hw | digits hw => exact hw
  | withEquals | single => simp

/-- There are no blanks in lexemes. -/
theorem Shape.not_isBlank {raw : List Char} (h : Shape raw) : ∀ c ∈ raw, isBlank c = false := by
  intro c hc
  cases h with
  | letters _ hl => exact not_isBlank_of_isLetter (hl c hc)
  | digits _ hl => exact not_isBlank_of_isDigit (hl c hc)
  | withEquals ho =>
    simp only [List.mem_cons, List.not_mem_nil, or_false] at hc
    rcases hc with rfl | rfl
    · rcases ho with rfl | rfl <;> decide
    · decide
  | single hb =>
    obtain rfl : c = _ := by simpa using hc
    exact hb

theorem not_isLetter_of_operator {c : Char} (h : c = '=' ∨ c = '!') : isLetter c = false := by
  rcases h with rfl | rfl <;> decide +kernel

theorem not_isDigit_of_operator {c : Char} (h : c = '=' ∨ c = '!') : c.isDigit = false := by
  rcases h with rfl | rfl <;> decide

/-- A lexeme with a letter in it is a run of letters. -/
theorem Shape.letters_of_mem {raw : List Char} (h : Shape raw) {c : Char} (hc : c ∈ raw)
    (hl : isLetter c = true) : ∀ d ∈ raw, isLetter d = true := by
  cases h with
  | letters _ h => exact h
  | digits _ hd => simp [not_isLetter_of_isDigit (hd c hc)] at hl
  | withEquals ho =>
    simp only [List.mem_cons, List.not_mem_nil, or_false] at hc
    have := not_isLetter_of_operator (hc.elim (fun e => e ▸ ho) .inl)
    simp [this] at hl
  | single _ h =>
    obtain rfl : c = _ := by simpa using hc
    simp [h] at hl

/-- A lexeme with a digit in it is a run of digits. -/
theorem Shape.digits_of_mem {raw : List Char} (h : Shape raw) {c : Char} (hc : c ∈ raw)
    (hd : c.isDigit = true) : ∀ d ∈ raw, d.isDigit = true := by
  cases h with
  | letters _ hl =>
    have := not_isLetter_of_isDigit hd
    simp [hl c hc] at this
  | digits _ h => exact h
  | withEquals ho =>
    simp only [List.mem_cons, List.not_mem_nil, or_false] at hc
    have := not_isDigit_of_operator (hc.elim (fun e => e ▸ ho) .inl)
    simp [this] at hd
  | single _ _ h =>
    obtain rfl : c = _ := by simpa using hc
    simp [h] at hd

/-! ## What goes on with a lexeme -/

theorem continues_letters {w : List Char} (hw : w ≠ []) (hl : ∀ c ∈ w, isLetter c = true)
    {c : Char} : Continues w c ↔ isLetter c = true := by
  refine ⟨fun h => ?_, fun h => .inl ⟨hl, h⟩⟩
  obtain ⟨d, hd⟩ := List.exists_mem_of_ne_nil w hw
  have hd' := hl d hd
  rcases h with ⟨-, h⟩ | ⟨h, -⟩ | ⟨rfl | rfl, -⟩
  · exact h
  · simp [not_isLetter_of_isDigit (h d hd)] at hd'
  · exact absurd (hl '=' (.head _)) (by decide +kernel)
  · exact absurd (hl '!' (.head _)) (by decide +kernel)

theorem continues_digits {ds : List Char} (hd : ds ≠ []) (hl : ∀ c ∈ ds, c.isDigit = true)
    {c : Char} : Continues ds c ↔ c.isDigit = true := by
  refine ⟨fun h => ?_, fun h => .inr (.inl ⟨hl, h⟩)⟩
  obtain ⟨d, hd'⟩ := List.exists_mem_of_ne_nil ds hd
  rcases h with ⟨h, -⟩ | ⟨-, h⟩ | ⟨rfl | rfl, -⟩
  · have := not_isLetter_of_isDigit (hl d hd')
    simp [h d hd'] at this
  · exact h
  · exact absurd (hl '=' (.head _)) (by decide)
  · exact absurd (hl '!' (.head _)) (by decide)

theorem not_continues_withEquals (c d : Char) : ¬ Continues [c, '='] d := by
  rintro (⟨h, -⟩ | ⟨h, -⟩ | ⟨h | h, -⟩)
  · exact absurd (h '=' (by simp)) (by decide +kernel)
  · exact absurd (h '=' (by simp)) (by decide)
  · simp at h
  · simp at h

theorem continues_single {c : Char} (hl : isLetter c = false) (hd : c.isDigit = false) {d : Char} :
    Continues [c] d ↔ (c = '=' ∨ c = '!') ∧ d = '=' := by
  simp [Continues, hl, hd]

/-! ## The longest lexeme -/

theorem takeWhile_append_stop {α : Type} {p : α → Bool} {run tail : List α}
    (hr : ∀ a ∈ run, p a = true) (ht : ∀ a ∈ tail.head?, p a = false) :
    (run ++ tail).takeWhile p = run := by
  rw [List.takeWhile_append_of_pos hr]
  cases tail with
  | nil => simp
  | cons a tail => simp [ht a rfl]

theorem dropWhile_append_stop {α : Type} {p : α → Bool} {run tail : List α}
    (hr : ∀ a ∈ run, p a = true) (ht : ∀ a ∈ tail.head?, p a = false) :
    (run ++ tail).dropWhile p = tail := by
  rw [List.dropWhile_append_of_pos hr]
  cases tail with
  | nil => simp
  | cons a tail => simp [ht a rfl]

theorem not_of_mem_head?_dropWhile {α : Type} {p : α → Bool} {l : List α} {a : α}
    (h : a ∈ (l.dropWhile p).head?) : p a = false := by
  have := List.head?_dropWhile_not p l
  rw [Option.mem_def.1 h] at this
  exact this

theorem of_mem_takeWhile {α : Type} {p : α → Bool} {l : List α} {a : α} (h : a ∈ l.takeWhile p) :
    p a = true :=
  List.all_eq_true.1 List.all_takeWhile a h

theorem eq_dropWhile_of_append {α : Type} {p : α → Bool} {l tail : List α}
    (h : l = l.takeWhile p ++ tail) : tail = l.dropWhile p := by
  have hl : l.takeWhile p ++ l.dropWhile p = l := List.takeWhile_append_dropWhile
  exact List.append_cancel_left (h.symm.trans hl.symm)

theorem drop_length_takeWhile {α : Type} (p : α → Bool) (l : List α) :
    l.drop (l.takeWhile p).length = l.dropWhile p := by
  have hl : l.takeWhile p ++ l.dropWhile p = l := List.takeWhile_append_dropWhile
  calc l.drop (l.takeWhile p).length
      = (l.takeWhile p ++ l.dropWhile p).drop (l.takeWhile p).length := by rw [hl]
    _ = l.dropWhile p := List.drop_left

theorem munch_of_letter {c : Char} (hl : isLetter c = true) (cs : List Char) :
    munch (c :: cs) = (c :: cs).takeWhile isLetter := by
  rw [munch, if_pos hl]

theorem munch_of_digit {c : Char} (hd : c.isDigit = true) (cs : List Char) :
    munch (c :: cs) = (c :: cs).takeWhile Char.isDigit := by
  rw [munch, if_neg (by simp [not_isLetter_of_isDigit hd]), if_pos hd]

theorem munch_of_other {c : Char} (hl : isLetter c = false) (hd : c.isDigit = false)
    (cs : List Char) :
    munch (c :: cs) = if (c = '=' ∨ c = '!') ∧ cs.head? = some '=' then [c, '='] else [c] := by
  rw [munch, if_neg (by simp [hl]), if_neg (by simp [hd])]

/-- A lexeme takes the first character along. -/
theorem munch_cons (c : Char) (cs : List Char) : ∃ raw, munch (c :: cs) = c :: raw := by
  rw [munch]
  split
  · exact ⟨_, by rw [List.takeWhile_cons, if_pos ‹_›]⟩
  · split
    · exact ⟨_, by rw [List.takeWhile_cons, if_pos ‹_›]⟩
    · split
      · exact ⟨_, rfl⟩
      · exact ⟨_, rfl⟩

theorem munch_isPrefix (text : List Char) : munch text <+: text := by
  cases text with
  | nil => exact List.prefix_rfl
  | cons c cs =>
    rw [munch]
    split
    · exact List.takeWhile_prefix _
    · split
      · exact List.takeWhile_prefix _
      · split
        · rename_i h
          obtain ⟨cs, rfl⟩ := List.head?_eq_some_iff.1 h.2
          exact ⟨cs, rfl⟩
        · exact ⟨cs, rfl⟩

/-- A text that starts with no blank starts with a lexeme. -/
theorem shape_munch {text : List Char} (hne : text ≠ [])
    (hb : ∀ c ∈ text.head?, isBlank c = false) : Shape (munch text) := by
  cases text with
  | nil => exact absurd rfl hne
  | cons c cs =>
    cases hl : isLetter c with
    | true =>
      rw [munch_of_letter hl]
      exact .letters (by simp [hl]) fun _ => of_mem_takeWhile
    | false =>
      cases hd : c.isDigit with
      | true =>
        rw [munch_of_digit hd]
        exact .digits (by simp [hd]) fun _ => of_mem_takeWhile
      | false =>
        rw [munch_of_other hl hd]
        split
        · rename_i h
          exact .withEquals h.1
        · exact .single (hb c rfl) hl hd

/-- Nothing behind the longest lexeme goes on with it. -/
theorem not_continues_munch {text tail : List Char} (h : text = munch text ++ tail) {d : Char}
    (hd : d ∈ tail.head?) : ¬ Continues (munch text) d := by
  cases text with
  | nil =>
    obtain rfl : tail = [] := h.symm
    simp at hd
  | cons c cs =>
    cases hl : isLetter c with
    | true =>
      rw [munch_of_letter hl] at h ⊢
      rw [eq_dropWhile_of_append h] at hd
      rw [continues_letters (by simp [hl]) fun _ => of_mem_takeWhile]
      simp [not_of_mem_head?_dropWhile hd]
    | false =>
      cases hc : c.isDigit with
      | true =>
        rw [munch_of_digit hc] at h ⊢
        rw [eq_dropWhile_of_append h] at hd
        rw [continues_digits (by simp [hc]) fun _ => of_mem_takeWhile]
        simp [not_of_mem_head?_dropWhile hd]
      | false =>
        rw [munch_of_other hl hc] at h ⊢
        split
        · exact not_continues_withEquals c d
        · rename_i hn
          rw [if_neg hn] at h
          obtain rfl : cs = tail := (List.cons.inj h).2
          rw [continues_single hl hc]
          rintro ⟨ho, rfl⟩
          exact hn ⟨ho, hd⟩

/-- The longest lexeme is the only one at the start of a text that nothing goes on with. -/
theorem munch_append {raw tail : List Char} (h : Shape raw)
    (ht : ∀ c ∈ tail.head?, ¬ Continues raw c) : munch (raw ++ tail) = raw := by
  cases h with
  | letters hw hl =>
    cases raw with
    | nil => exact absurd rfl hw
    | cons c cs =>
      rw [List.cons_append, munch_of_letter (hl c (.head _)), ← List.cons_append]
      refine takeWhile_append_stop hl fun d hd => ?_
      simpa [continues_letters hw hl] using ht d hd
  | digits hw hl =>
    cases raw with
    | nil => exact absurd rfl hw
    | cons c cs =>
      rw [List.cons_append, munch_of_digit (hl c (.head _)), ← List.cons_append]
      refine takeWhile_append_stop hl fun d hd => ?_
      simpa [continues_digits hw hl] using ht d hd
  | withEquals hc =>
    rw [List.cons_append, munch_of_other (not_isLetter_of_operator hc) (not_isDigit_of_operator hc),
      if_pos ⟨hc, rfl⟩]
  | single _ hl hd =>
    rw [List.cons_append, List.nil_append, munch_of_other hl hd, if_neg]
    rintro ⟨ho, hh⟩
    exact ht '=' hh ((continues_single hl hd).2 ⟨ho, rfl⟩)

end TokenStream
