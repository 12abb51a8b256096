import Mathlib.Data.List.Basic
import TokenStream.Proofs.Except
import TokenStream.Source

/-!
# UTF-8 and its first fault

A byte string has the text that it encodes. Any other byte string is a text with a
rest behind it that starts with no encoded character, and the fault is that of the
rest. Main statements: the sequences that a lead byte allows are the encoded characters
(`follows_of_encodeChar`, `encodeChar_of_follows`); decoding reads an encoded text and
goes on with the rest (`decodeFrom_encode`), where it finds the fault (`decodeFrom_stuck`);
and `decode_first_fault` for all byte strings.
-/

namespace TokenStream

namespace Utf8

open String (utf8EncodeChar)

/-! ## Sequences -/

/-- May the bytes follow in a sequence that expects so many more, the next one in
the interval? They may be fewer. -/
def Follows : (more low high : Nat) → List UInt8 → Prop
  | _, _, _, [] => True
  | 0, _, _, _ :: _ => False
  | more + 1, low, high, b :: bs => (low ≤ b.toNat ∧ b.toNat ≤ high) ∧ Follows more 0x80 0xBF bs

/-- The bits of a code point once the bytes that follow have added theirs. -/
def bitsOf (bits : Nat) (bs : List UInt8) : Nat :=
  bs.foldl (fun bits b => 64 * bits + (b.toNat - 0x80)) bits

namespace Follows

variable {more low high : Nat} {bs cs : List UInt8}

theorem of_append (h : Follows more low high (bs ++ cs)) : Follows more low high bs := by
  induction bs generalizing more low high with
  | nil => simp [Follows]
  | cons b bs ih =>
    cases more with
    | zero => exact h.elim
    | succ more => exact ⟨h.1, ih h.2⟩

/-- Bytes that may follow can be made up to as many as are expected. -/
theorem exists_completion (h : Follows more low high bs) (hle : low ≤ high) (hhigh : high < 256) :
    ∃ cs, (bs ++ cs).length = more ∧ Follows more low high (bs ++ cs) := by
  induction more generalizing low high bs with
  | zero =>
    cases bs with
    | nil => exact ⟨[], rfl, h⟩
    | cons b bs => exact h.elim
  | succ more ih =>
    cases bs with
    | nil =>
      have hnone : Follows more 0x80 0xBF [] := by simp [Follows]
      obtain ⟨cs, hlen, hcs⟩ := ih hnone (by decide) (by decide)
      refine ⟨.ofNat low :: cs, congrArg (· + 1) hlen, ?_, hcs⟩
      rw [UInt8.toNat_ofNat']
      omega
    | cons b bs =>
      obtain ⟨cs, hlen, hcs⟩ := ih h.2 (by decide) (by decide)
      exact ⟨cs, congrArg (· + 1) hlen, h.1, hcs⟩

end Follows

theorem lead_interval {b : UInt8} {l : Lead} (h : lead? b = some l) :
    l.low ≤ l.high ∧ l.high < 256 := by
  unfold lead? at h
  grind

/-! ## The encoded characters -/

theorem toNat_ofNat_of_lt {n : Nat} (h : n < 256) : (UInt8.ofNat n).toNat = n := by
  rw [UInt8.toNat_ofNat']
  omega

theorem ofNat_eq_of_toNat {n : Nat} {b : UInt8} (h : n = b.toNat) : UInt8.ofNat n = b := by
  rw [h, UInt8.ofNat_toNat]

theorem toNat_val_ofNat {n : Nat} (h : n.isValidChar) : (Char.ofNat n).val.toNat = n := by
  rw [Char.ofNat, dif_pos h]
  rfl

/-- A character is encoded by a lead byte and as many bytes as it calls for. -/
theorem follows_of_encodeChar {c : Char} {b : UInt8} {bs : List UInt8}
    (h : utf8EncodeChar c = b :: bs) :
    ∃ l, lead? b = some l ∧ bs.length = l.more ∧ Follows l.more l.low l.high bs ∧
      bitsOf l.bits bs = c.toNat := by
  have hc : c.val.toNat < 0xD800 ∨ 0xDFFF < c.val.toNat ∧ c.val.toNat < 0x110000 := c.valid
  show ∃ l, _ ∧ _ ∧ _ ∧ _ = c.val.toNat
  revert h
  fun_cases utf8EncodeChar c with
  | case1 v h1 =>
    rintro ⟨⟩
    refine ⟨⟨v, 0, 0, 0⟩, ?_, rfl, trivial, rfl⟩
    rw [lead?, toNat_ofNat_of_lt (by omega), if_pos (by omega)]
  | case2 v h1 h2 =>
    rintro ⟨⟩
    refine ⟨⟨v / 64 % 32, 1, 0x80, 0xBF⟩, ?_, rfl, ⟨?_, trivial⟩, ?_⟩
    · rw [lead?, toNat_ofNat_of_lt (by omega)]
      grind
    · rw [toNat_ofNat_of_lt (by omega)]
      dsimp only
      omega
    · simp only [bitsOf, List.foldl_cons, List.foldl_nil]
      rw [toNat_ofNat_of_lt (by omega)]
      omega
  | case3 v h1 h2 h3 =>
    rintro ⟨⟩
    refine ⟨⟨v / 4096 % 16, 2, if v / 4096 = 0 then 0xA0 else 0x80,
      if v / 4096 = 13 then 0x9F else 0xBF⟩, ?_, rfl, ⟨?_, ?_, trivial⟩, ?_⟩
    · rw [lead?, toNat_ofNat_of_lt (by omega)]
      grind
    · rw [toNat_ofNat_of_lt (by omega)]
      dsimp only
      split <;> split <;> omega
    · rw [toNat_ofNat_of_lt (by omega)]
      omega
    · simp only [bitsOf, List.foldl_cons, List.foldl_nil]
      rw [toNat_ofNat_of_lt (by omega), toNat_ofNat_of_lt (by omega)]
      omega
  | case4 v h1 h2 h3 =>
    rintro ⟨⟩
    refine ⟨⟨v / 262144 % 8, 3, if v / 262144 = 0 then 0x90 else 0x80,
      if v / 262144 = 4 then 0x8F else 0xBF⟩, ?_, rfl, ⟨?_, ?_, ?_, trivial⟩, ?_⟩
    · rw [lead?, toNat_ofNat_of_lt (by omega)]
      grind
    · rw [toNat_ofNat_of_lt (by omega)]
      dsimp only
      split <;> split <;> omega
    · rw [toNat_ofNat_of_lt (by omega)]
      omega
    · rw [toNat_ofNat_of_lt (by omega)]
      omega
    · simp only [bitsOf, List.foldl_cons, List.foldl_nil]
      rw [toNat_ofNat_of_lt (by omega), toNat_ofNat_of_lt (by omega),
        toNat_ofNat_of_lt (by omega)]
      omega

section

variable {n : Nat} {b x y z : UInt8}

theorem encodeChar_one (hn : n < 0x80) (hb : n = b.toNat) :
    utf8EncodeChar (Char.ofNat n) = [b] := by
  unfold utf8EncodeChar
  dsimp only
  rw [toNat_val_ofNat (.inl (by omega)), if_pos (by omega), ofNat_eq_of_toNat hb]

theorem encodeChar_two (hn : 0x80 ≤ n ∧ n < 0x800) (hb : n / 64 + 0xC0 = b.toNat)
    (hx : n % 64 + 0x80 = x.toNat) : utf8EncodeChar (Char.ofNat n) = [b, x] := by
  unfold utf8EncodeChar
  dsimp only
  rw [toNat_val_ofNat (.inl (by omega)), if_neg (by omega), if_pos (by omega),
    Nat.mod_eq_of_lt (b := 32) (by omega), ofNat_eq_of_toNat hb, ofNat_eq_of_toNat hx]

theorem encodeChar_three (hn : 0x800 ≤ n ∧ n < 0x10000) (hv : n < 0xD800 ∨ 0xDFFF < n)
    (hb : n / 4096 + 0xE0 = b.toNat) (hx : n / 64 % 64 + 0x80 = x.toNat)
    (hy : n % 64 + 0x80 = y.toNat) : utf8EncodeChar (Char.ofNat n) = [b, x, y] := by
  have hvalid : n.isValidChar := hv.imp id fun h => ⟨h, by omega⟩
  unfold utf8EncodeChar
  dsimp only
  rw [toNat_val_ofNat hvalid, if_neg (by omega), if_neg (by omega), if_pos (by omega),
    Nat.mod_eq_of_lt (b := 16) (by omega), ofNat_eq_of_toNat hb, ofNat_eq_of_toNat hx,
    ofNat_eq_of_toNat hy]

theorem encodeChar_four (hn : 0x10000 ≤ n ∧ n < 0x110000) (hb : n / 262144 + 0xF0 = b.toNat)
    (hx : n / 4096 % 64 + 0x80 = x.toNat) (hy : n / 64 % 64 + 0x80 = y.toNat)
    (hz : n % 64 + 0x80 = z.toNat) : utf8EncodeChar (Char.ofNat n) = [b, x, y, z] := by
  unfold utf8EncodeChar
  dsimp only
  rw [toNat_val_ofNat (.inr (by omega)), if_neg (by omega), if_neg (by omega), if_neg (by omega),
    Nat.mod_eq_of_lt (b := 8) (by omega), ofNat_eq_of_toNat hb, ofNat_eq_of_toNat hx,
    ofNat_eq_of_toNat hy, ofNat_eq_of_toNat hz]

end

/-- A lead byte with as many bytes as it calls for, all of which may follow, encodes a
character: by cases on the number of bytes. -/
theorem encodeChar_of_follows {b : UInt8} {l : Lead} {bs : List UInt8} (hl : lead? b = some l)
    (hlen : bs.length = l.more) (hf : Follows l.more l.low l.high bs) :
    utf8EncodeChar (Char.ofNat (bitsOf l.bits bs)) = b :: bs := by
  have hb := b.toNat_lt
  revert hl
  fun_cases lead? b with
  | case1 n h1 =>
    intro hl
    obtain rfl := Option.some.inj hl
    obtain rfl := List.eq_nil_of_length_eq_zero hlen
    exact encodeChar_one h1 rfl
  | case3 n h1 h2 h3 =>
    intro hl
    obtain rfl := Option.some.inj hl
    obtain ⟨x, rfl⟩ := List.length_eq_one_iff.1 hlen
    obtain ⟨hx, -⟩ := hf
    dsimp only at hx
    simp only [bitsOf, List.foldl_cons, List.foldl_nil]
    apply encodeChar_two <;> omega
  | case4 n h1 h2 h3 h4 =>
    intro hl
    obtain rfl := Option.some.inj hl
    obtain ⟨x, y, rfl⟩ := List.length_eq_two.1 hlen
    obtain ⟨hx, hy, -⟩ := hf
    dsimp only at hx
    simp only [bitsOf, List.foldl_cons, List.foldl_nil]
    -- The interval of the second byte keeps out overlong forms and surrogates.
    have hx : 0x80 ≤ x.toNat ∧ x.toNat ≤ 0xBF ∧ (n = 0xE0 → 0xA0 ≤ x.toNat) ∧
        (n = 0xED → x.toNat ≤ 0x9F) := by
      split at hx <;> split at hx <;> omega
    apply encodeChar_three <;> omega
  | case5 n h1 h2 h3 h4 h5 =>
    intro hl
    obtain rfl := Option.some.inj hl
    obtain ⟨x, y, z, rfl⟩ := List.length_eq_three.1 hlen
    obtain ⟨hx, hy, hz, -⟩ := hf
    dsimp only at hx
    simp only [bitsOf, List.foldl_cons, List.foldl_nil]
    -- The interval of the second byte keeps out overlong forms and values that are too large.
    have hx : 0x80 ≤ x.toNat ∧ x.toNat ≤ 0xBF ∧ (n = 0xF0 → 0x90 ≤ x.toNat) ∧
        (n = 0xF4 → x.toNat ≤ 0x8F) := by
      split at hx <;> split at hx <;> omega
    apply encodeChar_four <;> omega
  | case2 | case6 => simp

/-- A byte string can be made up to an encoded character exactly when its first byte is
a lead byte and the others may follow it. -/
theorem exists_isPrefix_encodeChar_iff {b : UInt8} {bs : List UInt8} :
    (∃ c, b :: bs <+: utf8EncodeChar c) ↔
      ∃ l, lead? b = some l ∧ Follows l.more l.low l.high bs := by
  constructor
  · rintro ⟨c, cs, hc⟩
    obtain ⟨l, hl, -, hf, -⟩ := follows_of_encodeChar hc.symm
    exact ⟨l, hl, hf.of_append⟩
  · rintro ⟨l, hl, hf⟩
    obtain ⟨hle, hhigh⟩ := lead_interval hl
    obtain ⟨cs, hlen, hcs⟩ := hf.exists_completion hle hhigh
    exact ⟨_, cs, (encodeChar_of_follows hl hlen hcs).symm⟩

/-- A byte is the first one of an encoded character exactly when it is a lead byte. -/
theorem exists_head?_encodeChar_iff {b : UInt8} :
    (∃ c, (utf8EncodeChar c).head? = some b) ↔ (lead? b).isSome := by
  have hb : (∃ c, [b] <+: utf8EncodeChar c) ↔ _ := exists_isPrefix_encodeChar_iff
  simp only [Follows, and_true, List.singleton_prefix_iff_head?_eq_some] at hb
  rw [hb, Option.isSome_iff_exists]

/-- No encoded character is the start of another one. -/
theorem eq_of_encodeChar_isPrefix {c d : Char} {bs : List UInt8}
    (hc : utf8EncodeChar c <+: bs) (hd : utf8EncodeChar d <+: bs) : c = d := by
  obtain ⟨b, cs, hcs⟩ := List.exists_cons_of_ne_nil (String.utf8EncodeChar_ne_nil (c := c))
  obtain ⟨b', ds, hds⟩ := List.exists_cons_of_ne_nil (String.utf8EncodeChar_ne_nil (c := d))
  rw [hcs] at hc
  rw [hds] at hd
  obtain ⟨l, hl, hlen, -, hbits⟩ := follows_of_encodeChar hcs
  obtain ⟨l', hl', hlen', -, hbits'⟩ := follows_of_encodeChar hds
  obtain ⟨cs', rfl⟩ := hc
  obtain ⟨ds', heq⟩ := hd
  rw [List.cons_append, List.cons_append, List.cons.injEq] at heq
  obtain ⟨rfl, htail⟩ := heq
  obtain rfl : l' = l := Option.some.inj (hl'.symm.trans hl)
  obtain ⟨rfl, -⟩ := List.append_inj htail (hlen'.trans hlen.symm)
  exact Char.toNat_inj.1 (hbits.symm.trans hbits')

/-! ## Decoding -/

section

variable {offset : Nat} {done : List Char} {p : Sequence} {bs rest : List UInt8}

/-- A sequence is read to its end when all its bytes may follow. -/
theorem decodeFrom_complete (hne : 0 < p.more) (hlen : bs.length = p.more)
    (hf : Follows p.more p.low p.high bs) :
    decodeFrom offset done (some p) (bs ++ rest) =
      decodeFrom (offset + bs.length) (Char.ofNat (bitsOf p.bits bs) :: done) none rest := by
  induction bs generalizing offset p with
  | nil => exact absurd hlen (Nat.ne_of_lt hne)
  | cons b bs ih =>
    obtain ⟨lead, bits, read, more, low, high⟩ := p
    obtain rfl : bs.length + 1 = more := hlen
    rw [List.cons_append, decodeFrom, if_pos hf.1]
    cases bs with
    | nil => rfl
    | cons b' bs =>
      rw [if_neg (by simp), ih (by simp) rfl hf.2]
      simp [bitsOf, Nat.add_assoc, Nat.add_comm 1]

/-- A sequence whose bytes cannot all follow is at fault where it starts: the bytes end,
or one of them cannot follow. -/
theorem decodeFrom_incomplete (offset : Nat) (done : List Char) (hne : 0 < p.more)
    (hstuck : ∀ cs, cs <+: bs → cs.length = p.more → ¬ Follows p.more p.low p.high cs) :
    ∃ fault, decodeFrom offset done (some p) bs = .error fault ∧ fault.offset = offset - p.read ∧
      (Follows p.more p.low p.high bs ∧ fault.reason = .unexpectedEnd ∨
        ¬ Follows p.more p.low p.high bs ∧ fault.reason = .invalidContinuation) := by
  induction bs generalizing offset p with
  | nil => exact ⟨_, rfl, rfl, .inl ⟨by simp [Follows], rfl⟩⟩
  | cons b bs ih =>
    obtain ⟨lead, bits, read, more, low, high⟩ := p
    obtain ⟨more, rfl⟩ : ∃ n, more = n + 1 := ⟨more - 1, (Nat.succ_pred_eq_of_pos hne).symm⟩
    rw [decodeFrom]
    by_cases hb : low ≤ b.toNat ∧ b.toNat ≤ high
    · cases more with
      | zero => exact absurd ⟨hb, by simp [Follows]⟩ (hstuck [b] ⟨bs, rfl⟩ rfl)
      | succ more =>
        rw [if_pos hb, if_neg (by simp)]
        have hbehind : ∀ cs, cs <+: bs → cs.length = more + 1 →
            ¬ Follows (more + 1) 0x80 0xBF cs := fun cs hcs hlen hf =>
          hstuck (b :: cs) (List.cons_prefix_cons.2 ⟨rfl, hcs⟩) (congrArg (· + 1) hlen) ⟨hb, hf⟩
        obtain ⟨fault, hfault, hoffset, hreason⟩ := ih (offset + 1)
          (p := ⟨lead, 64 * bits + (b.toNat - 0x80), read + 1, more + 1, 0x80, 0xBF⟩)
          (Nat.succ_pos _) hbehind
        refine ⟨fault, hfault, by simpa using hoffset, ?_⟩
        simpa only [Follows, hb, and_self, true_and] using hreason
    · rw [if_neg hb]
      exact ⟨_, rfl, rfl, .inr ⟨fun h => hb h.1, rfl⟩⟩

theorem decodeFrom_encodeChar (c : Char) :
    decodeFrom offset done none (utf8EncodeChar c ++ rest) =
      decodeFrom (offset + (utf8EncodeChar c).length) (c :: done) none rest := by
  obtain ⟨b, bs, hbs⟩ := List.exists_cons_of_ne_nil (String.utf8EncodeChar_ne_nil (c := c))
  obtain ⟨⟨bits, more, low, high⟩, hl, hlen, hf, hbits⟩ := follows_of_encodeChar hbs
  dsimp only at hlen hf hbits
  rw [hbs, List.cons_append, decodeFrom, hl]
  cases more with
  | zero =>
    obtain rfl := List.eq_nil_of_length_eq_zero hlen
    obtain rfl : bits = c.toNat := hbits
    simp
  | succ more =>
    dsimp only
    rw [decodeFrom_complete (Nat.succ_pos _) hlen hf]
    simp only [hbits, Char.ofNat_toNat, List.length_cons]
    congr 1
    omega

end

theorem encode_cons (c : Char) (text : List Char) :
    encode (c :: text) = utf8EncodeChar c ++ encode text := List.flatMap_cons

/-- Decoding reads an encoded text and goes on behind it. -/
theorem decodeFrom_encode (offset : Nat) (done text : List Char) (rest : List UInt8) :
    decodeFrom offset done none (encode text ++ rest) =
      decodeFrom (offset + (encode text).length) (text.reverse ++ done) none rest := by
  induction text generalizing offset done with
  | nil => rfl
  | cons c text ih =>
    rw [encode_cons, List.append_assoc, decodeFrom_encodeChar, ih]
    simp [Nat.add_assoc]

/-! ## The rest behind the text -/

/-- Bytes that start with no encoded character. -/
def IsStuck (bs : List UInt8) : Prop := bs ≠ [] ∧ ∀ c, ¬ utf8EncodeChar c <+: bs

/-- Every byte string is an encoded text with nothing or stuck bytes behind it. -/
theorem exists_encode_append (bytes : List UInt8) :
    ∃ text rest, bytes = encode text ++ rest ∧ (rest = [] ∨ IsStuck rest) := by
  by_cases hend : bytes = [] ∨ IsStuck bytes
  · exact ⟨[], bytes, rfl, hend⟩
  · obtain ⟨hne, hstuck⟩ := not_or.1 hend
    obtain ⟨c, bs, hbs⟩ : ∃ c, utf8EncodeChar c <+: bytes := by
      by_contra hnone
      exact hstuck ⟨hne, not_exists.1 hnone⟩
    have hpos := List.length_pos_iff.2 (String.utf8EncodeChar_ne_nil (c := c))
    obtain ⟨text, rest, rfl, hrest⟩ := exists_encode_append bs
    exact ⟨c :: text, rest, by rw [← hbs, encode_cons, List.append_assoc], hrest⟩
termination_by bytes.length
decreasing_by
  rw [← hbs, List.length_append]
  omega

/-- Bytes that are the start of an encoded character, but not all of it. -/
def BreaksOff (bs : List UInt8) : Prop := ∃ c, bs <+: utf8EncodeChar c ∧ bs ≠ utf8EncodeChar c

/-- Bytes whose first one starts no encoded character. -/
def StartsNothing (bs : List UInt8) : Prop := ∀ c, (utf8EncodeChar c).head? ≠ bs.head?

/-- What the reason of a fault says of the bytes that are at fault. -/
structure Reason.Explains (reason : Reason) (bs : List UInt8) : Prop where
  unexpectedEnd : reason.message = "unexpected end of data" ↔ BreaksOff bs
  invalidStart : reason.message = "invalid start byte" ↔ StartsNothing bs
  invalidContinuation : reason.message = "invalid continuation byte" ↔
    ¬ BreaksOff bs ∧ ¬ StartsNothing bs

/-- The lead byte and the bytes that may follow it tell the reasons apart. -/
theorem explains_cons {b : UInt8} {bs : List UInt8} (hstuck : IsStuck (b :: bs)) {reason : Reason}
    (hreason : match lead? b with
      | none => reason = .invalidStart
      | some l => Follows l.more l.low l.high bs ∧ reason = .unexpectedEnd ∨
          ¬ Follows l.more l.low l.high bs ∧ reason = .invalidContinuation) :
    reason.Explains (b :: bs) := by
  have hbreaks : BreaksOff (b :: bs) ↔ ∃ l, lead? b = some l ∧ Follows l.more l.low l.high bs := by
    refine (exists_congr fun c => and_iff_left_of_imp fun _ heq => ?_).trans
      exists_isPrefix_encodeChar_iff
    exact hstuck.2 c (heq ▸ List.prefix_rfl)
  have hstarts : StartsNothing (b :: bs) ↔ lead? b = none := by
    rw [StartsNothing, ← not_exists, List.head?_cons, exists_head?_encodeChar_iff,
      Option.not_isSome_iff_eq_none]
  cases hl : lead? b with
  | none =>
    obtain rfl : reason = .invalidStart := by simpa [hl] using hreason
    constructor <;> simp [hbreaks, hstarts, hl, Reason.message]
  | some l =>
    rw [hl] at hreason
    rcases hreason with ⟨hf, rfl⟩ | ⟨hf, rfl⟩ <;>
      constructor <;> simp [hbreaks, hstarts, hl, hf, Reason.message]

/-- At stuck bytes decoding finds the fault. -/
theorem decodeFrom_stuck (offset : Nat) (done : List Char) {bs : List UInt8} (h : IsStuck bs) :
    ∃ fault, decodeFrom offset done none bs = .error fault ∧ fault.offset = offset ∧
      fault.reason.Explains bs := by
  obtain ⟨b, bs, rfl⟩ := List.exists_cons_of_ne_nil h.1
  rw [decodeFrom]
  cases hl : lead? b with
  | none => exact ⟨_, rfl, rfl, explains_cons h (by rw [hl])⟩
  | some l =>
    obtain ⟨bits, more, low, high⟩ := l
    cases more with
    | zero =>
      have hnone : Follows 0 low high [] := by simp [Follows]
      have hone := encodeChar_of_follows hl List.length_nil hnone
      exact absurd ⟨bs, by rw [hone]; rfl⟩ (h.2 _)
    | succ more =>
      have hbehind : ∀ cs, cs <+: bs → cs.length = more + 1 → ¬ Follows (more + 1) low high cs :=
        fun cs hcs hlen hf => h.2 _ (encodeChar_of_follows hl hlen hf ▸
          List.cons_prefix_cons.2 ⟨rfl, hcs⟩)
      obtain ⟨fault, hfault, hoffset, hreason⟩ := decodeFrom_incomplete (offset + 1) done
        (p := ⟨b, bits, 1, more + 1, low, high⟩) (Nat.succ_pos _) hbehind
      exact ⟨fault, hfault, hoffset, explains_cons h (by rw [hl]; exact hreason)⟩

/-- An encoded text at the start of another one with stuck bytes behind it is no longer. -/
theorem length_encode_le_of_stuck {text text' : List Char} {rest : List UInt8}
    (hstuck : IsStuck rest) (h : encode text' <+: encode text ++ rest) :
    (encode text').length ≤ (encode text).length := by
  induction text' generalizing text with
  | nil => exact Nat.zero_le _
  | cons c text' ih =>
    rw [encode_cons] at h ⊢
    cases text with
    | nil => exact absurd ((List.prefix_append _ _).trans h) (hstuck.2 c)
    | cons d text =>
      rw [encode_cons, List.append_assoc] at h
      have hd := List.prefix_append (utf8EncodeChar d) (encode text ++ rest)
      obtain rfl := eq_of_encodeChar_isPrefix ((List.prefix_append _ _).trans h) hd
      have := ih ((List.prefix_append_right_inj _).1 h)
      rw [encode_cons, List.length_append, List.length_append]
      omega

/-! ## Decoding byte strings -/

/-- A fault behind the longest encoded text at the start of a byte string, with the
reason why the text goes no further. -/
structure Fault.Describes (fault : Fault) (bytes : List UInt8) : Prop where
  offset_lt : fault.offset < bytes.length
  encoded : ∃ text, bytes.take fault.offset = encode text
  longest : ∀ text, encode text <+: bytes → (encode text).length ≤ fault.offset
  explains : fault.reason.Explains (bytes.drop fault.offset)

theorem decode_encode (text : List Char) : decode (encode text) = .ok text := by
  have h := decodeFrom_encode 0 [] text []
  rw [List.append_nil] at h
  rw [decode, h]
  simp [decodeFrom]

/-- Decoding fails at stuck bytes behind a text. -/
theorem decode_encode_append (text : List Char) {rest : List UInt8} (h : IsStuck rest) :
    ∃ fault, decode (encode text ++ rest) = .error fault ∧
      fault.Describes (encode text ++ rest) := by
  obtain ⟨fault, hfault, hoffset, hexplains⟩ :=
    decodeFrom_stuck (0 + (encode text).length) (text.reverse ++ []) h
  rw [Nat.zero_add] at hoffset
  have hpos := List.length_pos_iff.2 h.1
  refine ⟨fault, ?_, ?_, ⟨text, ?_⟩, fun text' htext' => ?_, ?_⟩
  · rw [decode, decodeFrom_encode, hfault]
  · rw [hoffset, List.length_append]
    omega
  · rw [hoffset, List.take_left]
  · rw [hoffset]
    exact length_encode_le_of_stuck h htext'
  · rwa [hoffset, List.drop_left]

theorem decode_eq_ok_iff {bytes : List UInt8} {text : List Char} :
    decode bytes = .ok text ↔ bytes = encode text := by
  refine ⟨fun h => ?_, fun h => h ▸ decode_encode text⟩
  obtain ⟨text', rest, rfl, rfl | hstuck⟩ := exists_encode_append bytes
  · rw [List.append_nil, decode_encode, Except.ok.injEq] at h
    rw [List.append_nil, h]
  · obtain ⟨fault, hfault, -⟩ := decode_encode_append text' hstuck
    simp [hfault] at h

end Utf8

namespace Source

theorem decode_bytes_eq_ok_iff {bytes : List UInt8} {text : List Char} :
    decode (.bytes bytes) = .ok text ↔ bytes = Utf8.encode text := by
  rw [decode, mapError_eq_ok_iff, Utf8.decode_eq_ok_iff]

/-- A byte string has the text that it encodes. If it encodes none, it is refused where the
longest encoded text at its start ends, with the reason why that text goes no further. -/
theorem decode_first_fault (bytes : List UInt8) :
    (∀ text, decode (.bytes bytes) = .ok text ↔ bytes = Utf8.encode text) ∧
      ((∃ text, bytes = Utf8.encode text) ∨
        ∃ fault : Utf8.Fault, decode (.bytes bytes) = .error (.notUtf8 fault) ∧
          (Error.notUtf8 fault).message = "source is not valid UTF-8: " ++ fault.reason.message ++
            " at byte " ++ toString fault.offset ∧
          fault.Describes bytes) := by
  refine ⟨fun text => decode_bytes_eq_ok_iff, ?_⟩
  obtain ⟨text, rest, rfl, rfl | hstuck⟩ := Utf8.exists_encode_append bytes
  · exact .inl ⟨text, List.append_nil _⟩
  · obtain ⟨fault, hfault, hdescribes⟩ := Utf8.decode_encode_append text hstuck
    refine .inr ⟨fault, ?_, rfl, hdescribes⟩
    rw [decode, hfault]
    rfl

/-- A sequence of three bytes that ends after two, behind one character. -/
example : decode (.bytes [0x61, 0xE2, 0x82]) = .error (.notUtf8 ⟨1, 2, 0xE2, .unexpectedEnd⟩) := by
  decide

end Source

end TokenStream
