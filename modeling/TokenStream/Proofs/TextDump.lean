import Mathlib.Data.List.Forall2
import TokenStream.Proofs.QuotedReader
import TokenStream.Proofs.Run

/-!
# Text dumps are read back

A text dump has one line for each token, and a reader gives the kind and the raw text of
every token back. The payload is not in the dump, but the tokens of a source need none: their
raw text tells it. So the text dumps of two sources are the same exactly when their JSON dumps
are. Main statements: `readLines?_text`, `Tokenized.eq_ofLexeme` and `text_dump_reads_back`.
-/

namespace TokenStream

/-- The name of a kind is on one line, and there is no tab in it. -/
theorem Kind.name_plain (k : Kind) : OneLine k.name.toList ∧ '\t' ∉ k.name.toList := by
  have h : (k.name.toList.all fun c => !isLineEnd c && c != '\t') = true := by cases k <;> decide
  rw [List.all_eq_true] at h
  refine ⟨fun c hc => ?_, fun hc => absurd (h '\t' hc) (by decide)⟩
  have := h c hc
  rw [Bool.and_eq_true, Bool.not_eq_true'] at this
  exact this.1

namespace Dump

/-- The kind and the raw text in a line: the name of the kind, a tab, and a string literal. -/
def readLine? (line : List Char) : Option (Kind × String) := do
  let kind ← Kind.ofName? (.ofList (line.takeWhile (· != '\t')))
  let raw ← Quoted.read? (line.dropWhile (· != '\t')).tail
  return (kind, .ofList raw)

/-- The line of a token without its end. -/
def lineOf (t : Token) : List Char := t.kind.name.toList ++ '\t' :: Quoted.encode t.raw.toList

theorem toList_text (tokens : List Token) :
    (text tokens).toList = joinLines (tokens.map lineOf) := by
  rw [text, String.toList_ofList, joinLines, List.flatMap_map]
  simp only [lineOf, List.append_assoc, List.cons_append]
  rfl

theorem oneLine_lineOf (t : Token) : OneLine (lineOf t) := by
  rw [lineOf, oneLine_append, oneLine_cons]
  exact ⟨t.kind.name_plain.1, rfl, Quoted.oneLine_encode _⟩

theorem readLine?_lineOf (t : Token) : readLine? (lineOf t) = some (t.kind, t.raw) := by
  have hname : ∀ c ∈ t.kind.name.toList, (c != '\t') = true := by
    intro c hc
    rw [bne_iff_ne]
    rintro rfl
    exact t.kind.name_plain.2 hc
  have hstop : ∀ c ∈ ('\t' :: Quoted.encode t.raw.toList).head?, (c != '\t') = false := by simp
  rw [readLine?, lineOf, takeWhile_append_stop hname hstop, dropWhile_append_stop hname hstop,
    String.ofList_toList, Kind.ofName?_name, List.tail_cons, Quoted.read?_encode]
  show some (t.kind, String.ofList t.raw.toList) = _
  rw [String.ofList_toList]

theorem splitLines_text (tokens : List Token) :
    splitLines (text tokens).toList = tokens.map lineOf := by
  rw [toList_text, splitLines_joinLines (List.forall_mem_map.2 fun t _ => oneLine_lineOf t)]

/-- The kinds and the raw texts of the tokens are read back from their dump. -/
theorem readLines?_text (tokens : List Token) :
    (splitLines (text tokens).toList).mapM readLine? =
      some (tokens.map fun t => (t.kind, t.raw)) := by
  rw [splitLines_text]
  exact mapM_read_map_write fun t _ => readLine?_lineOf t

/-- Tokens with one text dump are of the same kinds and have the same raw texts. -/
theorem places_eq_of_text_eq {tokens others : List Token} (h : text tokens = text others) :
    tokens.map (fun t => (t.kind, t.raw)) = others.map fun t => (t.kind, t.raw) := by
  have hread := readLines?_text tokens
  rw [h, readLines?_text others] at hread
  exact (Option.some.inj hread).symm

end Dump

/-! ## The tokens of a source -/

/-- The tokens of a source that is given as a text or as bytes. -/
inductive Tokenized : List Token → Prop
  | text {s : String} {tokens : List Token} (h : tokenize s = .ok tokens) : Tokenized tokens
  | bytes {bytes : List UInt8} {tokens : List Token} (h : Source.tokensOfBytes bytes = .ok tokens) :
      Tokenized tokens

namespace Tokenized

variable {tokens others : List Token}

theorem exists_text (h : Tokenized tokens) : ∃ s, tokenize s = .ok tokens := by
  cases h with
  | text h => exact ⟨_, h⟩
  | bytes h =>
    obtain ⟨cs, -, hcs⟩ := bind_eq_ok_iff.1 h
    refine ⟨.ofList cs, ?_⟩
    rw [tokenize, String.toList_ofList]
    exact mapError_eq_ok_iff.1 hcs

theorem exists_extents (h : Tokenized tokens) :
    ∃ s es, extents s = .ok es ∧ tokens = es.map Extent.token := by
  obtain ⟨s, hs⟩ := h.exists_text
  rw [tokenize_eq_map_extents] at hs
  cases hes : extents s with
  | error e =>
    rw [hes] at hs
    contradiction
  | ok es =>
    rw [hes] at hs
    exact ⟨s, es, hes, (Except.ok.inj hs).symm⟩

/-- The raw text of a token of a source tells the token. -/
theorem eq_ofLexeme (h : Tokenized tokens) : ∀ t ∈ tokens, t = Token.ofLexeme t.raw.toList := by
  obtain ⟨s, es, hes, rfl⟩ := h.exists_extents
  refine List.forall_mem_map.2 fun e he => ?_
  rcases eof_or_lexeme hes he with heof | hlexeme
  · rw [heof]
    rfl
  · exact hlexeme.eq_ofLexeme

theorem isWritable (h : Tokenized tokens) : ∀ t ∈ tokens, t.payload.isWritable = true := by
  obtain ⟨s, es, hes, rfl⟩ := h.exists_extents
  exact isWritable_of_extents hes

/-- Two sources with the same raw texts have the same tokens. -/
theorem eq_of_map_raw (h : Tokenized tokens) (h' : Tokenized others)
    (hraw : tokens.map Token.raw = others.map Token.raw) : tokens = others := by
  have hlexemes {ts : List Token} (hts : Tokenized ts) :
      (ts.map Token.raw).map (fun raw => Token.ofLexeme raw.toList) = ts := by
    have hself := List.map_congr_left fun t ht => (hts.eq_ofLexeme t ht).symm
    rw [List.map_map]
    exact hself.trans (List.map_id ts)
  rw [← hlexemes h, hraw, hlexemes h']

theorem text_eq_iff (h : Tokenized tokens) (h' : Tokenized others) :
    Dump.text tokens = Dump.text others ↔ tokens = others := by
  refine ⟨fun htext => h.eq_of_map_raw h' ?_, fun heq => heq ▸ rfl⟩
  have hplaces := congrArg (List.map Prod.snd) (Dump.places_eq_of_text_eq htext)
  rwa [List.map_map, List.map_map] at hplaces

end Tokenized

/-- The text dump of tokens: a line feed for each token and no other line end; each line is
the name of the kind, a tab, and a string literal for the raw text, so a reader gives the kinds
and the raw texts back. The text dumps of the tokens of two sources are the same exactly when
the tokens are, and exactly when their JSON dumps are. -/
theorem text_dump_reads_back :
    (∀ tokens : List Token, ∃ output, Format.text.dump tokens = .ok output ∧
      output.toList.count '\n' = tokens.length ∧
      (∀ c ∈ output.toList, isLineEnd c = true → c = '\n') ∧
      List.Forall₂ (fun (t : Token) line => ∃ literal,
          line = t.kind.name.toList ++ '\t' :: literal ∧ Quoted.read? literal = some t.raw.toList)
        tokens (splitLines output.toList) ∧
      (splitLines output.toList).mapM Dump.readLine? =
        some (tokens.map fun t => (t.kind, t.raw))) ∧
    ∀ tokens others : List Token, Tokenized tokens → Tokenized others →
      ∃ json json', Format.json.dump tokens = .ok json ∧ Format.json.dump others = .ok json' ∧
        (Format.text.dump tokens = Format.text.dump others ↔ tokens = others) ∧
        (tokens = others ↔ json = json') := by
  constructor
  · intro tokens
    have hlines : ∀ line ∈ tokens.map Dump.lineOf, OneLine line :=
      List.forall_mem_map.2 fun t _ => Dump.oneLine_lineOf t
    refine ⟨Dump.text tokens, rfl, ?_, fun c hc hend => ?_, ?_, Dump.readLines?_text tokens⟩
    · rw [Dump.toList_text, count_joinLines hlines, List.length_map]
    · rw [Dump.toList_text] at hc
      exact eq_newline_of_mem_joinLines hlines hc hend
    · rw [Dump.splitLines_text, List.forall₂_map_right_iff, List.forall₂_same]
      exact fun t _ => ⟨_, rfl, Quoted.read?_encode _⟩
  · intro tokens others h h'
    have hjson := Dump.json_eq_ok_iff.2 ⟨h.isWritable, rfl⟩
    have hjson' := Dump.json_eq_ok_iff.2 ⟨h'.isWritable, rfl⟩
    refine ⟨_, _, hjson, hjson', ?_, fun heq => heq ▸ rfl, fun heq => ?_⟩
    · rw [Format.dump, Format.dump, Except.ok.injEq, h.text_eq_iff h']
    · exact Dump.json_inj hjson' (heq ▸ hjson)

/-- A raw text of a line separator and both marks is on one line, and two spacings of a source
have one dump. -/
theorem text_dump_reads_back_separator :
    (Format.text.dump [⟨.illegal, .absent, "\u2028\x27\x22"⟩, .eof] =
        .ok "ILLEGAL\t\x27\\u2028\\\x27\x22\x27\nEOF\t\x27\x27\n" ∧
      (splitLines "ILLEGAL\t\x27\\u2028\\\x27\x22\x27\nEOF\t\x27\x27\n".toList).mapM
        Dump.readLine? = some [(.illegal, "\u2028\x27\x22"), (.eof, "")]) ∧
    ∃ tokens others, tokenize "é;7" = .ok tokens ∧ tokenize "é ;\u20287 " = .ok others ∧
      Format.text.dump tokens = Format.text.dump others := by
  obtain ⟨hread, hsame⟩ := text_dump_reads_back
  obtain ⟨output, hdump, -, -, -, hlines⟩ :=
    hread [⟨.illegal, .absent, "\u2028\x27\x22"⟩, .eof]
  have houtput : Format.text.dump [⟨.illegal, .absent, "\u2028\x27\x22"⟩, .eof] =
      .ok "ILLEGAL\t\x27\\u2028\\\x27\x22\x27\nEOF\t\x27\x27\n" := by decide +kernel
  obtain rfl := Except.ok.inj (hdump.symm.trans houtput)
  have htokens : tokenize "é;7" =
      .ok [⟨.ident, .name "é", "é"⟩, ⟨.semicolon, .absent, ";"⟩, ⟨.int, .number 7, "7"⟩, .eof] := by
    decide +kernel
  have hothers : tokenize "é ;\u20287 " =
      .ok [⟨.ident, .name "é", "é"⟩, ⟨.semicolon, .absent, ";"⟩, ⟨.int, .number 7, "7"⟩, .eof] := by
    decide +kernel
  obtain ⟨json, json', -, -, hiff, -⟩ := hsame _ _ (.text htokens) (.text hothers)
  exact ⟨⟨houtput, hlines⟩, _, _, htokens, hothers, hiff.2 rfl⟩

end TokenStream
