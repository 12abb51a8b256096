import TokenStream.Proofs.MaximalMunch

/-!
# Tokens with other blanks between them

The raw texts of the tokens of a text, written one behind the other with any
blanks in front, between and behind, are read as the same tokens again, as long as
the blanks between two of them are not left out. Main statements:
`Decomposition.isMunched_zipWith` says that such a text is munched, and
`tokenize_respace` that its tokens are the same.
-/

namespace TokenStream

/-- The raw texts of tokens, each with the blanks behind it, and other blanks in front. -/
def respace (lead : String) (tokens : List Token) (gaps : List String) : String :=
  lead ++ String.join (List.zipWith (fun t gap => t.raw ++ gap) tokens gaps)

namespace Decomposition

/-- Tokens that are lexemes, with blanks behind each but the last, are munched: by
induction on the tokens, where the blanks end each lexeme. -/
theorem isMunched_zipWith {lead : List Char} {tokens : List Token} {gaps : List (List Char)}
    (hlex : ∀ t ∈ tokens, Lexeme t.raw.toList t) (hlen : gaps.length = tokens.length)
    (hlead : ∀ c ∈ lead, isBlank c = true) (hgaps : ∀ g ∈ gaps, ∀ c ∈ g, isBlank c = true)
    (hne : ∀ g ∈ gaps.dropLast, g ≠ []) : IsMunched ⟨lead, List.zipWith Part.mk tokens gaps⟩ := by
  induction tokens generalizing lead gaps with
  | nil => exact ⟨hlead, by simp, by simp, .nil⟩
  | cons t ts ih =>
    cases gaps with
    | nil => simp at hlen
    | cons g gs =>
      have hlen' : gs.length = ts.length := Nat.succ.inj hlen
      have hg : ∀ c ∈ g, isBlank c = true := hgaps g (.head _)
      have hgs : ∀ g ∈ gs.dropLast, g ≠ [] := fun g' hg' => hne g' (by
        cases gs with
        | nil => simp at hg'
        | cons g₁ gs => exact .tail _ hg')
      have hbehind := ih (fun t ht => hlex t (.tail _ ht)) hlen' hg
        (fun g hg => hgaps g (.tail _ hg)) hgs
      have ht := hlex t (.head _)
      have hcons := hbehind.cons hlead ht.shape fun c hc => ?_
      · rwa [← ht.eq_ofLexeme] at hcons
      · cases g with
        | cons b bs =>
          obtain rfl : b = c := by simpa [text] using hc
          exact not_continues_blank (hg b (.head _))
        | nil =>
          -- Only the last token can be without blanks.
          cases gs with
          | cons g₁ gs => exact absurd rfl (hne [] (.head _))
          | nil => simp [text] at hc

theorem text_zipWith (lead : String) (tokens : List Token) (gaps : List String) :
    text ⟨lead.toList, List.zipWith Part.mk tokens (gaps.map String.toList)⟩ =
      (respace lead tokens gaps).toList := by
  simp only [respace, text, String.toList_append, String.toList_join, List.flatMap_def,
    List.map_zipWith, List.zipWith_map_right, Part.text, Part.raw]

theorem map_token_zipWith {tokens : List Token} {gaps : List (List Char)}
    (hlen : gaps.length = tokens.length) :
    (List.zipWith Part.mk tokens gaps).map Part.token = tokens :=
  List.ext_getElem (by simp [hlen]) fun i _ _ => by simp

end Decomposition

/-- Tokens whose lexemes are not too long are read again from their raw texts. -/
theorem tokenize_respace_of_lexemes {tokens : List Token}
    (hlex : ∀ t ∈ tokens, Lexeme t.raw.toList t)
    (hshort : ∀ t ∈ tokens, isOverlong t.raw.toList = false) {lead : String} {gaps : List String}
    (hlen : gaps.length = tokens.length)
    (hblank : ∀ g ∈ lead :: gaps, ∀ c ∈ g.toList, isBlank c = true)
    (hne : ∀ g ∈ gaps.dropLast, g ≠ "") :
    tokenize (respace lead tokens gaps) = .ok (tokens ++ [.eof]) := by
  have hlen' : (gaps.map String.toList).length = tokens.length := by rw [List.length_map, hlen]
  have hd := Decomposition.isMunched_zipWith hlex hlen' (hblank lead (.head _))
    (List.forall_mem_map.2 fun g hg => hblank g (.tail _ hg))
    (by
      rw [← List.map_dropLast]
      exact List.forall_mem_map.2 fun g hg h => hne g hg (String.toList_eq_nil_iff.1 h))
  have htokens := Decomposition.map_token_zipWith hlen'
  have hnone : Decomposition.overlong? ⟨lead.toList, _⟩ = none :=
    Decomposition.overlong?_eq_none_iff.2 (by rw [htokens]; exact hshort)
  rw [tokenize_of_isMunched hd (Decomposition.text_zipWith lead tokens gaps) hnone, htokens]

/-- However the blanks between the tokens of a text are changed, its tokens stay the
same, and each of them is read from its raw text alone. -/
theorem tokenize_respace (text : String) (h : NumeralsFit text.toList) :
    ∃ ts, tokenize text = .ok (ts ++ [.eof]) ∧ (∀ t ∈ ts, t.kind ≠ .eof) ∧
      (∀ (lead : String) (gaps : List String), gaps.length = ts.length →
        (∀ g ∈ lead :: gaps, ∀ c ∈ g.toList, isBlank c = true) → (∀ g ∈ gaps.dropLast, g ≠ "") →
        tokenize (respace lead ts gaps) = tokenize text) ∧
      ∀ t ∈ ts, tokenize t.raw = .ok [t, .eof] := by
  obtain ⟨d, hd, ht⟩ := Decomposition.exists_isMunched text.toList
  have hnone := Decomposition.overlong?_eq_none (ht ▸ h)
  have hread := tokenize_of_isMunched hd ht hnone
  have hlex : ∀ t ∈ d.parts.map Part.token, Lexeme t.raw.toList t :=
    List.forall_mem_map.2 hd.lexemes
  have hshort := Decomposition.overlong?_eq_none_iff.1 hnone
  refine ⟨d.parts.map Part.token, hread, fun t ht => (hlex t ht).kind_ne_eof, ?_, ?_⟩
  · intro lead gaps hlen hblank hne
    rw [hread, tokenize_respace_of_lexemes hlex hshort hlen hblank hne]
  · intro t ht
    have hself : respace "" [t] [""] = t.raw := by simp [respace]
    rw [← hself]
    exact tokenize_respace_of_lexemes (by simpa using hlex t ht) (by simpa using hshort t ht) rfl
      (by simp) (by simp)

/-- An operator, a word and a numeral that stand side by side can be taken apart. -/
theorem tokenize_respace_apart :
    NumeralsFit "x==07".toList ∧ tokenize "\u2003x\t== \n07" = tokenize "x==07" ∧
      tokenize "07" = .ok [⟨.int, .number 7, "07"⟩, .eof] := by
  have hfit : NumeralsFit "x==07".toList := .of_length_le (by decide)
  obtain ⟨ts, hts, -, hspaced, halone⟩ := tokenize_respace "x==07" hfit
  have hread : tokenize "x==07" =
      .ok ([⟨.ident, .name "x", "x"⟩, ⟨.eq, .absent, "=="⟩, ⟨.int, .number 7, "07"⟩] ++
        [.eof]) := by
    decide +kernel
  obtain rfl := List.append_cancel_right (Except.ok.inj (hts.symm.trans hread))
  have hblank : ["\u2003", "\t", " \n", ""].all (fun g => g.toList.all isBlank) = true := by
    decide +kernel
  have hjoin : respace "\u2003"
      [⟨.ident, .name "x", "x"⟩, ⟨.eq, .absent, "=="⟩, ⟨.int, .number 7, "07"⟩]
      ["\t", " \n", ""] = "\u2003x\t== \n07" := by decide +kernel
  refine ⟨hfit, ?_, halone ⟨.int, .number 7, "07"⟩ (by simp)⟩
  rw [← hjoin]
  exact hspaced _ _ rfl
    (fun g hg c hc => List.all_eq_true.1 (List.all_eq_true.1 hblank g hg) c hc) (by decide)

end TokenStream
