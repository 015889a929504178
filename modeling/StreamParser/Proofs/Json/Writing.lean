import StreamParser.Json.Shape
import StreamParser.Proofs.Json.Integers

/-!
# What is written is read back

Strings and natural numbers as they are written, with other bytes behind them.

* `StringLiteral.Reads n l v rest`: with `n` steps or more the bytes `l` of a string are read up to
  its closing quote, where they stand for `v` and `rest` is left.  There is one law for each way a
  string can go on; `StringLiteral.Reads.char` puts them together for a character as it is written,
  and `StringLiteral.read_written` for a whole string.
* `Number.integerPart_toDigits`: the digits of a number are an integer part, and spell the number.
* `stringOrNull_written`, `key_written` and `natural_written`: the readers get back what was written.
-/

namespace StreamParser.Json

/-! ### Strings -/

namespace StringLiteral

/-- The rest of a string is read up to its closing quote with `n` steps or more; it stands for the
bytes `v`, and the bytes `rest` are left. -/
def Reads (n : Nat) (l v rest : List UInt8) : Prop := ∀ m, n ≤ m → body m l = .ok (v, rest)

section Reads

variable {n : Nat} {l v rest : List UInt8}

theorem Reads.mono {k : Nat} (h : Reads n l v rest) (hk : n ≤ k) : Reads k l v rest :=
  fun m hm => h m (Nat.le_trans hk hm)

/-- The closing quote. -/
theorem reads_quote (rest : List UInt8) : Reads 1 (0x22 :: rest) [] rest := by
  intro m hm
  obtain ⟨m, rfl⟩ := Nat.exists_eq_add_of_le' hm
  rfl

/-- A byte that stands for itself. -/
theorem Reads.plain (h : Reads n l v rest) {b : UInt8} (hquote : b ≠ 0x22) (hslash : b ≠ 0x5C)
    (hlow : 0x20 ≤ b) : Reads (n + 1) (b :: l) (b :: v) rest := by
  intro m hm
  obtain ⟨m, rfl⟩ := Nat.exists_eq_add_of_le' (Nat.le_trans (Nat.le_add_left 1 n) hm)
  have hothers : body m l = .ok (v, rest) := h m (by omega)
  unfold body
  split
  · omega
  · cases ‹b :: l = []›
  · exact absurd (List.cons.inj ‹b :: l = _›).1 hquote
  · exact absurd (List.cons.inj ‹b :: l = _›).1 hslash
  · rename_i hn hcons
    obtain ⟨rfl, rfl⟩ := List.cons.inj hcons
    obtain rfl := Nat.succ.inj hn
    rw [if_neg (UInt8.not_lt.2 hlow), hothers]
    rfl

/-- Several of them. -/
theorem Reads.plains (h : Reads n l v rest) {w : List UInt8}
    (hw : ∀ b ∈ w, b ≠ 0x22 ∧ b ≠ 0x5C ∧ 0x20 ≤ b) :
    Reads (n + w.length) (w ++ l) (w ++ v) rest := by
  induction w with
  | nil => exact h
  | cons b w ih =>
    obtain ⟨⟨hquote, hslash, hlow⟩, hw⟩ := List.forall_mem_cons.1 hw
    exact (ih hw).plain hquote hslash hlow

/-- An escape. -/
theorem Reads.escape (h : Reads n l v rest) {w first : List UInt8}
    (hw : escape w = .ok (first, l)) : Reads (n + 1) (0x5C :: w) (first ++ v) rest := by
  intro m hm
  obtain ⟨m, rfl⟩ := Nat.exists_eq_add_of_le' (Nat.le_trans (Nat.le_add_left 1 n) hm)
  have hothers : body m l = .ok (v, rest) := h m (by omega)
  show (StringLiteral.escape w).bind _ = _
  rw [hw]
  show (body m l).bind _ = _
  rw [hothers]
  rfl

end Reads

/-- A digit in base sixteen is read back. -/
theorem hexDigit?_hexChar :
    ∀ d < 16, (hexChar d).toNat < 0x80 ∧ hexDigit? (UInt8.ofNat (hexChar d).toNat) = some d := by
  decide

/-- The escape of a control character. -/
theorem escape_control {c : Char} (hc : c.toNat < 0x20) (l : List UInt8) :
    escape (Utf8.encode ['u', '0', '0', hexChar (c.toNat / 16), hexChar (c.toNat % 16)] ++ l) =
      .ok (String.utf8EncodeChar c, l) := by
  obtain ⟨hhigh, hhigh'⟩ := hexDigit?_hexChar (c.toNat / 16) (by omega)
  obtain ⟨hlow, hlow'⟩ := hexDigit?_hexChar (c.toNat % 16) (by omega)
  have hbytes : Utf8.encode ['u', '0', '0', hexChar (c.toNat / 16), hexChar (c.toNat % 16)] ++ l =
      0x75 :: 0x30 :: 0x30 :: UInt8.ofNat (hexChar (c.toNat / 16)).toNat ::
        UInt8.ofNat (hexChar (c.toNat % 16)).toNat :: l := by
    simp only [Utf8.encode_cons, Utf8.encode_nil, Utf8.char_of_lt hhigh, Utf8.char_of_lt hlow]
    rfl
  have hvalue : ((0 * 16 + 0) * 16 + c.toNat / 16) * 16 + c.toNat % 16 = c.toNat := by omega
  have hhex : hex4 (0x30 :: 0x30 :: UInt8.ofNat (hexChar (c.toNat / 16)).toNat ::
      UInt8.ofNat (hexChar (c.toNat % 16)).toNat :: l) = .ok (c.toNat, l) := by
    have hzero : hexDigit? 0x30 = some 0 := rfl
    simp only [hex4, hzero, hhigh', hlow', hvalue]
  have hnoLow : isLow c.toNat = false := by
    simp only [isLow, Bool.and_eq_false_iff, decide_eq_false_iff_not]
    omega
  have hnoHigh : isHigh c.toNat = false := by
    simp only [isHigh, Bool.and_eq_false_iff, decide_eq_false_iff_not]
    omega
  rw [hbytes]
  show (hex4 _).bind _ = _
  rw [hhex]
  show (if isLow c.toNat then _ else if !isHigh c.toNat then _ else _) = _
  rw [hnoLow, hnoHigh, Char.ofNat_toNat]
  rfl

/-- The bytes of a character that stands for itself stand for themselves. -/
theorem plain_of_mem_utf8EncodeChar {c : Char} (hquote : c ≠ '"') (hslash : c ≠ '\\')
    (hlow : 0x20 ≤ c.toNat) :
    ∀ b ∈ String.utf8EncodeChar c, b ≠ 0x22 ∧ b ≠ 0x5C ∧ 0x20 ≤ b := by
  intro b hb
  by_cases hc : c.toNat < 0x80
  · have hbyte := Utf8.toNat_ofNat_of_lt hc
    rw [Utf8.char_of_lt hc, List.mem_singleton] at hb
    subst hb
    refine ⟨?_, ?_, ?_⟩
    · rintro h
      rw [h] at hbyte
      exact hquote (Char.toNat_inj.1 hbyte.symm)
    · rintro h
      rw [h] at hbyte
      exact hslash (Char.toNat_inj.1 hbyte.symm)
    · rw [UInt8.le_iff_toNat_le, hbyte]
      exact hlow
  · have hle : 0x80 ≤ b := (Utf8.spells_char c).le (Nat.le_of_not_lt hc) b hb
    refine ⟨?_, ?_, UInt8.le_trans (by decide) hle⟩
    · rintro rfl
      exact absurd hle (by decide)
    · rintro rfl
      exact absurd hle (by decide)

section Written

variable {n : Nat} {l v rest : List UInt8}

/-- A character as it is written stands for the character. -/
theorem Reads.char (h : Reads n l v rest) (c : Char) :
    Reads (n + (Utf8.encode (encodeChar c)).length) (Utf8.encode (encodeChar c) ++ l)
      (String.utf8EncodeChar c ++ v) rest := by
  unfold encodeChar
  split
  -- the escapes by a letter
  iterate 7 exact (h.escape rfl).mono (Nat.add_le_add_left (by decide) n)
  -- the others
  · rename_i hquote hslash _ _ _ _ _
    by_cases hlow : c.toNat < 0x20
    · rw [if_pos hlow]
      exact (h.escape (escape_control hlow l)).mono
        (Nat.add_le_add_left (Nat.le_trans (by simp) (Utf8.length_le_length_encode _)) n)
    · rw [if_neg hlow, Utf8.encode_cons, Utf8.encode_nil, List.append_nil]
      exact h.plains (plain_of_mem_utf8EncodeChar hquote hslash (Nat.le_of_not_lt hlow))

/-- Characters as they are written stand for the characters. -/
theorem Reads.chars (h : Reads n l v rest) (x : List Char) :
    Reads (n + (Utf8.encode (x.flatMap encodeChar)).length)
      (Utf8.encode (x.flatMap encodeChar) ++ l) (Utf8.encode x ++ v) rest := by
  induction x with
  | nil => exact h
  | cons c x ih =>
    rw [List.flatMap_cons, Utf8.encode_append, List.append_assoc, Utf8.encode_cons,
      List.append_assoc]
    exact (ih.char c).mono (by rw [List.length_append]; omega)

end Written

/-- The bytes of a string as it is written. -/
theorem bytes_encode (s : String) :
    Utf8.bytes (encode s) =
      0x22 :: (Utf8.encode (s.toList.flatMap encodeChar) ++ [0x22]) := by
  unfold encode
  rw [Utf8.bytes_ofList, Utf8.encode_append]
  rfl

/-- A string that was written is read back, after its opening quote. -/
theorem read_written (s : String) (rest : List UInt8) :
    read (Utf8.encode (s.toList.flatMap encodeChar) ++ 0x22 :: rest) = .ok (s, rest) := by
  have hbody := (reads_quote rest).chars s.toList
    ((Utf8.encode (s.toList.flatMap encodeChar) ++ 0x22 :: rest).length + 1)
    (by rw [List.length_append, List.length_cons]; omega)
  unfold read
  rw [hbody, List.append_nil]
  show Except.ok ((Utf8.text? (Utf8.encode s.toList)).getD "", rest) = _
  rw [Utf8.text?_encode, Option.getD_some, String.ofList_toList]

end StringLiteral

/-- A string or its absence is read back. -/
theorem stringOrNull_written (s : Option String) (rest : List UInt8) :
    stringOrNull (Utf8.bytes (s.elim "null" StringLiteral.encode) ++ rest) = .ok (s, rest) := by
  cases s with
  | none => rfl
  | some s =>
    show stringOrNull (Utf8.bytes (StringLiteral.encode s) ++ rest) = _
    rw [StringLiteral.bytes_encode, List.cons_append, List.append_assoc, List.singleton_append]
    show (StringLiteral.read _).bind (fun r => .ok (some r.1, r.2)) = _
    rw [StringLiteral.read_written]
    rfl

/-- The next key is read back, with the comma before it unless it is the first. -/
theorem key_written (first : Bool) (k : String) (rest : List UInt8) :
    key first ((if first then [] else [0x2C]) ++ (Utf8.bytes (StringLiteral.encode k) ++ rest)) =
      .ok (some k, rest) := by
  rw [StringLiteral.bytes_encode, List.cons_append, List.append_assoc, List.singleton_append]
  -- the comma is read over, and so is the opening quote
  cases first <;>
    (show (StringLiteral.read _).bind (fun r => .ok (some r.1, r.2)) = _
     rw [StringLiteral.read_written]
     rfl)

/-! ### Natural numbers -/

namespace Number

open Standard

theorem digits_toDigits (n : Nat) : Digits (Nat.toDigits 10 n) := by
  intro c hc
  have hdigit := Nat.isDigit_of_mem_toDigits (by decide) (by decide) hc
  rw [Char.isDigit, Bool.and_eq_true, decide_eq_true_eq, decide_eq_true_eq] at hdigit
  exact hdigit

/-- The digits of a number do not begin with zero, unless this is the only one. -/
theorem integerPart_toDigits (n : Nat) : IntegerPart (Nat.toDigits 10 n) := by
  induction n using Nat.strongRecOn with
  | _ n ih =>
    by_cases hn : n < 10
    · have hdigit : ∀ d < 10, d = 0 ∧ Nat.digitChar d = '0' ∨
          IsDigit (Nat.digitChar d) ∧ Nat.digitChar d ≠ '0' := by decide
      rw [Nat.toDigits_of_lt_base hn]
      obtain ⟨-, hzero⟩ | ⟨hdigit, hzero⟩ := hdigit n hn
      · rw [hzero]
        exact .zero
      · exact .digits hdigit hzero (fun c hc => absurd hc List.not_mem_nil)
    · have hall : Digits (Nat.toDigits 10 n) := digits_toDigits n
      have hsmaller := ih (n / 10) (by omega)
      have hvalue : Nat.ofDigitChars 10 (Nat.toDigits 10 (n / 10)) 0 = n / 10 :=
        Nat.ofDigitChars_toDigits (by decide) (by decide)
      rw [Nat.toDigits_of_base_le (by decide) (Nat.le_of_not_lt hn)] at hall ⊢
      revert hsmaller hvalue hall
      generalize Nat.toDigits 10 (n / 10) = w
      intro hall hsmaller hvalue
      cases hsmaller with
      | zero =>
        -- a single zero spells zero, and there are ten or more
        have hzero : Nat.ofDigitChars 10 ['0'] 0 = 0 := rfl
        omega
      | digits hc hzero hw => exact .digits hc hzero (List.forall_mem_cons.1 hall).2

end Number

/-- A byte that no number goes on with: no digit, no point and no letter of an exponent. -/
def IsBehindNumber (b : UInt8) : Prop := isDigit b = false ∧ b ≠ 0x2E ∧ b ≠ 0x65 ∧ b ≠ 0x45

instance (b : UInt8) : Decidable (IsBehindNumber b) := inferInstanceAs (Decidable (_ ∧ _))

/-- Behind an integer part that is all of a number the number ends. -/
theorem Number.tail_of_isBehind {n : Nat} {l : List UInt8}
    (hl : ∀ b ∈ l.head?, IsBehindNumber b) : tail true n 0 l = .ok (integer n, l) := by
  cases l with
  | nil => rfl
  | cons b l =>
    obtain ⟨-, hpoint, hlower, hupper⟩ := hl b rfl
    unfold tail
    split
    · exact absurd (List.cons.inj ‹b :: l = _›).1 hpoint
    · exact absurd (List.cons.inj ‹b :: l = _›).1 hlower
    · exact absurd (List.cons.inj ‹b :: l = _›).1 hupper
    · rfl

/-- A number that begins with a digit is read without a sign. -/
theorem natural_of_isDigit {b : UInt8} (hb : isDigit b = true) (l : List UInt8) :
    natural (b :: l) =
      match Number.unsigned true (b :: l) with
      | .ok (.integer (.ofNat n), rest) => .ok (n, rest)
      | .ok (_, rest) => stop .unsuitable rest
      | .error s => .error s := by
  have hle : 0x30 ≤ b := by
    rw [isDigit, Bool.and_eq_true, decide_eq_true_eq] at hb
    exact hb.1
  have hne : ∀ d < (0x30 : UInt8), b ≠ d := by
    rintro d hd rfl
    exact UInt8.not_le.2 hd hle
  have hblank : skipBlanks (b :: l) = b :: l := by
    simp [skipBlanks, hne 0x20 (by decide), hne 0x0A (by decide), hne 0x09 (by decide),
      hne 0x0D (by decide)]
  have hread : Number.read (b :: l) = Number.unsigned true (b :: l) := by
    unfold Number.read
    split
    · exact absurd (List.cons.inj ‹b :: l = _›).1 (hne 0x2D (by decide))
    · rfl
  have hfirst : (b == 0x2D || isDigit b) = true := by rw [hb, Bool.or_true]
  rw [← hread]
  unfold natural
  rw [hblank]
  exact if_pos hfirst

/-- A natural number of 64 bits is read back if something else follows it. -/
theorem natural_written {n : Nat} (hn : n < Number.limit) {l : List UInt8}
    (hl : ∀ b ∈ l.head?, IsBehindNumber b) :
    natural (Utf8.bytes (toString n) ++ l) = .ok (n, l) := by
  have hdigits := Number.integerPart_toDigits n
  have hvalue : Nat.ofDigitChars 10 (Nat.toDigits 10 n) 0 = n :=
    Nat.ofDigitChars_toDigits (by decide) (by decide)
  have hbytes : Utf8.bytes (toString n) = Utf8.encode (Nat.toDigits 10 n) := Utf8.bytes_ofList _
  obtain ⟨significand, raised, hread, hroom, -⟩ :=
    Number.unsigned_integerPart hdigits (fun b hb => (hl b hb).1) true
  obtain ⟨rfl, rfl⟩ := hroom (by rw [hvalue]; exact hn)
  rw [hvalue, Number.tail_of_isBehind hl] at hread
  obtain ⟨-, c, w, hw, hc⟩ := hdigits.exists_head
  have hfirst : Utf8.encode (Nat.toDigits 10 n) ++ l =
      UInt8.ofNat c.toNat :: (Utf8.encode w ++ l) := by
    rw [hw, Utf8.encode_cons, (Number.toNat_byte_of_digit hc).1]
    rfl
  rw [hbytes, hfirst, natural_of_isDigit (Number.isDigit_byte hc), ← hfirst, hread]

end StreamParser.Json
