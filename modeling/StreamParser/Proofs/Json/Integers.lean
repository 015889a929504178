import StreamParser.Proofs.Grammar.Surfacing
import StreamParser.Proofs.Grammar.WordList
import StreamParser.Proofs.Json.Conformance

/-!
# Integers stay integers

A lexeme of a number is its sign, its integer part, and what follows it.  If nothing follows it, the
lexeme spells an integer (`Number.spelledInteger`), and it is read as exactly this integer if there
is room for it, with a sign or without one.

* `Number.gather_encode`: the digits of the integer part are gathered without loss, or some are
  left.
* `Number.unsigned_integerPart`: so the integer part is known to what follows it, or it is known to
  be too great.
* `Number.IsFloating`: with a fraction, with an exponent or with digits that are left nothing comes
  out but a floating number.
* `Number.ofText_eq_integer` and `Number.ofText_ne_integer` tell integers from the others, and
  `number_keeps_integers` says what that means for the grammar of numbers.

There is one exception: zero with a sign spells an integer for which there is room, and it is read
as a floating number all the same (`negativeZero_is_floating`).
-/

namespace StreamParser.Json

open StreamParser.Expr Standard

namespace Number

/-! ### Digits -/

section Digits

variable {x : List Char} {l : List UInt8}

/-- A digit is one byte. -/
theorem toNat_byte_of_digit {c : Char} (hc : IsDigit c) :
    String.utf8EncodeChar c = [UInt8.ofNat c.toNat] ∧ (UInt8.ofNat c.toNat).toNat = c.toNat := by
  have hbounds := hc.bounds
  exact ⟨Utf8.char_of_lt (by omega), Utf8.toNat_ofNat_of_lt (by omega)⟩

theorem isDigit_byte {c : Char} (hc : IsDigit c) : isDigit (UInt8.ofNat c.toNat) = true := by
  unfold isDigit
  rw [Bool.and_eq_true, decide_eq_true_eq, decide_eq_true_eq, UInt8.le_iff_toNat_le,
    UInt8.le_iff_toNat_le, (toNat_byte_of_digit hc).2]
  exact hc.bounds

theorem isDigit_of_mem_encode (hx : Digits x) : ∀ b ∈ Utf8.encode x, isDigit b = true := by
  induction x with
  | nil => exact fun b hb => absurd hb List.not_mem_nil
  | cons c x ih =>
    obtain ⟨hc, hx⟩ := List.forall_mem_cons.1 hx
    rw [Utf8.encode_cons, (toNat_byte_of_digit hc).1, List.singleton_append]
    exact List.forall_mem_cons.2 ⟨isDigit_byte hc, ih hx⟩

/-- More digits make a number greater. -/
theorem le_ofDigitChars (x : List Char) (n : Nat) : n ≤ Nat.ofDigitChars 10 x n := by
  induction x generalizing n with
  | nil => exact Nat.le_refl n
  | cons c x ih =>
    rw [Nat.ofDigitChars_cons]
    exact Nat.le_trans (by omega) (ih _)

/-- All digits are gathered if there is room for what they spell; otherwise some are left. -/
theorem gather_encode (hx : Digits x) (n : Nat) :
    (Nat.ofDigitChars 10 x n < limit →
      gather n (Utf8.encode x) = (Nat.ofDigitChars 10 x n, x.length, 0)) ∧
    (n < limit → limit ≤ Nat.ofDigitChars 10 x n → (gather n (Utf8.encode x)).2.2 ≠ 0) := by
  induction x generalizing n with
  | nil => exact ⟨fun _ => rfl, fun hn hlimit => absurd hn (Nat.not_lt.2 hlimit)⟩
  | cons c x ih =>
    obtain ⟨hc, hx⟩ := List.forall_mem_cons.1 hx
    obtain ⟨hchar, hbyte⟩ := toNat_byte_of_digit hc
    have hzero : '0'.toNat = 0x30 := rfl
    obtain ⟨hroom, hleft⟩ := ih hx (10 * n + (c.toNat - 0x30))
    rw [Utf8.encode_cons, hchar, List.singleton_append, Nat.ofDigitChars_cons, hzero]
    unfold gather
    simp only [hbyte]
    refine ⟨fun hlimit => ?_, fun _ hlimit => ?_⟩
    · rw [if_pos (Nat.lt_of_le_of_lt (le_ofDigitChars x _) hlimit), hroom hlimit]
      rfl
    · by_cases hm : 10 * n + (c.toNat - 0x30) < limit
      · rw [if_pos hm]
        exact hleft hm hlimit
      · rw [if_neg hm]
        exact Nat.succ_ne_zero _

end Digits

/-! ### What is no integer -/

/-- The outcome is a floating number, or none. -/
def IsFloating (r : Except Stop (Number × List UInt8)) : Prop :=
  ∀ n rest, r = .ok (n, rest) → ∃ f, n = float f

section IsFloating

variable (positive : Bool) (significand : Nat)

theorem isFloating_signed (f : Float) (rest : List UInt8) :
    IsFloating (.ok (signed positive f, rest)) := by
  rintro n rest' h
  cases h
  exact ⟨_, rfl⟩

theorem isFloating_stop (kind : FaultKind) (rest : List UInt8) : IsFloating (stop kind rest) :=
  fun _ _ h => by cases h

theorem isFloating_stopAt (kind : FaultKind) (rest : List UInt8) : IsFloating (stopAt kind rest) :=
  fun _ _ h => by cases h

theorem isFloating_floating (exponent : Int) (rest : List UInt8) :
    IsFloating (floating positive significand exponent rest) := by
  unfold floating
  cases scale? significand exponent with
  | some f => exact isFloating_signed positive f rest
  | none => exact isFloating_stop _ rest

theorem isFloating_exponent (start : Int) (l : List UInt8) :
    IsFloating (exponent positive significand start l) := by
  unfold exponent
  split
  split
  · exact isFloating_stop _ _
  · split
    · exact isFloating_stop _ _
    · split
      · exact isFloating_floating positive significand _ _
      · split
        · exact isFloating_stop _ _
        · exact isFloating_signed positive 0 _

theorem isFloating_fraction (raised : Nat) (l : List UInt8) :
    IsFloating (fraction positive significand raised l) := by
  unfold fraction
  simp only
  split
  · split
    · exact isFloating_stopAt _ _
    · exact isFloating_stopAt _ _
  · split
    · exact isFloating_exponent positive _ _ _
    · exact isFloating_exponent positive _ _ _
    · exact isFloating_floating positive _ _ _

/-- The bytes begin with a point or with the letter of an exponent. -/
def BeginsTail (l : List UInt8) : Prop := ∃ b ∈ l.head?, b = 0x2E ∨ b = 0x65 ∨ b = 0x45

/-- Behind an integer part that leaves digits, and before a fraction or an exponent, there is no
integer. -/
theorem isFloating_tail {raised : Nat} {l : List UInt8} (h : raised ≠ 0 ∧ l = [] ∨ BeginsTail l) :
    IsFloating (tail positive significand raised l) := by
  rcases h with ⟨hraised, rfl⟩ | ⟨b, hb, h⟩
  · unfold tail
    simp only [if_pos hraised]
    exact isFloating_floating positive significand _ _
  · cases l with
    | nil => cases hb
    | cons b' l =>
      cases hb
      rcases h with rfl | rfl | rfl
      · exact isFloating_fraction positive significand raised l
      · exact isFloating_exponent positive significand _ l
      · exact isFloating_exponent positive significand _ l

end IsFloating

/-! ### Lexemes -/

/-- There is no fraction and no exponent. -/
def IsInteger (x : List Char) : Prop := ∀ c ∈ x, c ≠ '.' ∧ c ≠ 'e' ∧ c ≠ 'E'

instance (x : List Char) : Decidable (IsInteger x) :=
  List.decidableBAll (fun c => c ≠ '.' ∧ c ≠ 'e' ∧ c ≠ 'E') x

/-- The integer that a lexeme without fraction and exponent spells. -/
def spelledInteger : List Char → Int
  | '-' :: x => -(Nat.ofDigitChars 10 x 0 : Int)
  | x => Nat.ofDigitChars 10 x 0

/-- There is room for the integer, with a sign or without one. -/
def InRange (n : Int) : Prop := -0x8000000000000000 ≤ n ∧ n ≤ 0xFFFFFFFFFFFFFFFF

instance (n : Int) : Decidable (InRange n) := inferInstanceAs (Decidable (_ ∧ _))

/-- Zero with a sign. -/
def negativeZero : List Char := ['-', '0']

section IntegerPart

variable {w : List Char} {l : List UInt8}

/-- The digits of the integer part are told from what follows them. -/
theorem span_encode (hw : Digits w) (hl : ∀ b ∈ l.head?, isDigit b = false) :
    (Utf8.encode w ++ l).takeWhile isDigit = Utf8.encode w ∧
      (Utf8.encode w ++ l).dropWhile isDigit = l := by
  have hmem := isDigit_of_mem_encode hw
  rw [List.takeWhile_append_of_pos hmem, List.dropWhile_append_of_pos hmem]
  cases l with
  | nil => exact ⟨by simp, rfl⟩
  | cons b l =>
    have hb : isDigit b = false := hl b rfl
    exact ⟨by simp [hb], by simp [hb]⟩

/-- Where the first digit is not zero, all digits are gathered. -/
theorem unsigned_digits {c : Char} (hc : IsDigit c) (hzero : c ≠ '0') (hw : Digits w)
    (hl : ∀ b ∈ l.head?, isDigit b = false) (positive : Bool) :
    unsigned positive (Utf8.encode (c :: w) ++ l) = tail positive
      (gather 0 (Utf8.encode (c :: w))).1 (gather 0 (Utf8.encode (c :: w))).2.2 l := by
  obtain ⟨htake, hdrop⟩ := span_encode (w := c :: w) (List.forall_mem_cons.2 ⟨hc, hw⟩) hl
  obtain ⟨hchar, hbyte⟩ := toNat_byte_of_digit hc
  have hencode : Utf8.encode (c :: w) ++ l = UInt8.ofNat c.toNat :: (Utf8.encode w ++ l) := by
    rw [Utf8.encode_cons, hchar, List.singleton_append, List.cons_append]
  have hdigit : (!isDigit (UInt8.ofNat c.toNat)) = false := by rw [isDigit_byte hc]; rfl
  rw [hencode] at htake hdrop ⊢
  unfold unsigned
  split
  · rename_i hnil
    cases hnil
  · rename_i heq
    have hcode : c.toNat = '0'.toNat :=
      hbyte.symm.trans (congrArg UInt8.toNat (List.cons.inj heq).1)
    exact absurd (Char.toNat_inj.1 hcode) hzero
  · rename_i heq
    obtain ⟨rfl, rfl⟩ := List.cons.inj heq
    rw [hdigit, htake, hdrop]
    rfl

/-- The integer part is known to what follows it, or it is known to be too great. -/
theorem unsigned_integerPart (hw : IntegerPart w) (hl : ∀ b ∈ l.head?, isDigit b = false)
    (positive : Bool) : ∃ significand raised,
      unsigned positive (Utf8.encode w ++ l) = tail positive significand raised l ∧
      (Nat.ofDigitChars 10 w 0 < limit → significand = Nat.ofDigitChars 10 w 0 ∧ raised = 0) ∧
      (limit ≤ Nat.ofDigitChars 10 w 0 → raised ≠ 0) := by
  cases hw with
  | zero =>
    refine ⟨0, 0, ?_, fun _ => ⟨rfl, rfl⟩, fun hlimit => absurd hlimit (by decide)⟩
    show (if (l.head?.map isDigit).getD false then _ else tail positive 0 0 l) = _
    cases hhead : l.head? with
    | none => rfl
    | some b =>
      rw [Option.map_some, hl b hhead]
      rfl
  | @digits c w hc hzero hw =>
    obtain ⟨hroom, hleft⟩ := gather_encode (x := c :: w) (List.forall_mem_cons.2 ⟨hc, hw⟩) 0
    refine ⟨_, _, unsigned_digits hc hzero hw hl positive, fun hlimit => ?_, hleft (by decide)⟩
    rw [hroom hlimit]
    exact ⟨rfl, rfl⟩

/-- Only zero spells zero. -/
theorem eq_zero_of_ofDigitChars (hw : IntegerPart w) (h : Nat.ofDigitChars 10 w 0 = 0) :
    w = ['0'] := by
  cases hw with
  | zero => rfl
  | @digits c w hc hzero hw =>
    have hle := le_ofDigitChars w (10 * 0 + (c.toNat - '0'.toNat))
    have hfirst : '0'.toNat = 0x30 := rfl
    have hbounds := hc.bounds
    have hne : c.toNat ≠ 0x30 := fun hno => hzero (Char.toNat_inj.1 hno)
    rw [Nat.ofDigitChars_cons] at h
    omega

end IntegerPart

/-- A fraction and an exponent, each of which may be missing. -/
def IsAfter (y : List Char) : Prop := ∃ f e, y = f ++ e ∧ Fraction f ∧ Exponent e

/-- The lexeme of a number, with its sign, its integer part and what follows it. -/
inductive Lexeme : Bool → List Char → List Char → List Char → Prop
  | unsigned {w y : List Char} (hw : IntegerPart w) (hy : IsAfter y) : Lexeme true w y (w ++ y)
  | signed {w y : List Char} (hw : IntegerPart w) (hy : IsAfter y) :
    Lexeme false w y ('-' :: (w ++ y))

section Lexeme

variable {positive : Bool} {w x y : List Char} {n : Number}

theorem exists_lexeme (hx : numeral.expr.Matches x) : ∃ positive w y, Lexeme positive w y x := by
  obtain @⟨m, w, f, e, hm, hw, hf, he⟩ := conforms_of_matches_numeral hx
  have hy : IsAfter (f ++ e) := ⟨f, e, rfl, hf, he⟩
  rcases hm with rfl | rfl
  · exact ⟨true, w, f ++ e, .unsigned hw hy⟩
  · exact ⟨false, w, f ++ e, .signed hw hy⟩

theorem Lexeme.integerPart (h : Lexeme positive w y x) : IntegerPart w := by
  cases h with
  | unsigned hw _ => exact hw
  | signed hw _ => exact hw

theorem Lexeme.isAfter (h : Lexeme positive w y x) : IsAfter y := by
  cases h with
  | unsigned _ hy => exact hy
  | signed _ hy => exact hy

/-- What follows the integer part is nothing, or begins with a point or a letter. -/
theorem Lexeme.after_cases (h : Lexeme positive w y x) :
    y = [] ∨ ∃ c z, y = c :: z ∧ (c = '.' ∨ c = 'e' ∨ c = 'E') := by
  obtain ⟨f, e, rfl, hf, he⟩ := h.isAfter
  cases hf with
  | none =>
    cases he with
    | none => exact .inl rfl
    | some hletter => exact .inr ⟨_, _, rfl, .inr hletter⟩
  | some => exact .inr ⟨'.', _, rfl, .inl rfl⟩

/-- The lexeme spells an integer if nothing follows the integer part. -/
theorem Lexeme.isInteger_iff (h : Lexeme positive w y x) : IsInteger x ↔ y = [] := by
  have hdigits : ∀ c ∈ w, c ≠ '.' ∧ c ≠ 'e' ∧ c ≠ 'E' := by
    intro c hc
    have hdigit := h.integerPart.exists_head.1 c hc
    refine ⟨?_, ?_, ?_⟩ <;> rintro rfl <;> exact absurd hdigit (by decide)
  have hmem : ∀ c ∈ y, c ∈ x := by
    intro c hc
    cases h with
    | unsigned => exact List.mem_append_right w hc
    | signed => exact List.mem_cons_of_mem _ (List.mem_append_right w hc)
  constructor
  · intro hx
    rcases h.after_cases with hy | ⟨c, z, rfl, hc⟩
    · exact hy
    · obtain ⟨hpoint, hsmall, hgreat⟩ := hx c (hmem c List.mem_cons_self)
      rcases hc with hc | hc | hc
      · exact absurd hc hpoint
      · exact absurd hc hsmall
      · exact absurd hc hgreat
  · rintro rfl
    cases h with
    | unsigned => simpa [IsInteger] using hdigits
    | signed => simpa [IsInteger] using hdigits

theorem Lexeme.spelledInteger_eq (h : Lexeme positive w [] x) : spelledInteger x =
    if positive then (Nat.ofDigitChars 10 w 0 : Int) else -(Nat.ofDigitChars 10 w 0 : Int) := by
  obtain ⟨-, c, z, hcons, hc⟩ := h.integerPart.exists_head
  have hminus : c ≠ '-' := by
    rintro rfl
    exact absurd hc (by decide)
  cases h with
  | unsigned =>
    rw [List.append_nil, if_pos rfl, hcons]
    unfold spelledInteger
    split
    · rename_i heq
      exact absurd (List.cons.inj heq).1 hminus
    · rfl
  | signed =>
    rw [List.append_nil, if_neg Bool.false_ne_true]
    rfl

/-! ### Reading a lexeme -/

/-- What comes next is no digit. -/
theorem Lexeme.not_isDigit_after (h : Lexeme positive w y x) :
    ∀ b ∈ (Utf8.encode y).head?, isDigit b = false := by
  rcases h.after_cases with rfl | ⟨c, z, rfl, rfl | rfl | rfl⟩
  · exact fun b hb => by cases hb
  all_goals
    rintro b hb
    cases hb
    rfl

theorem Lexeme.read_eq (h : Lexeme positive w y x) :
    read (Utf8.encode x) = Number.unsigned positive (Utf8.encode w ++ Utf8.encode y) := by
  obtain ⟨-, c, z, hcons, hc⟩ := h.integerPart.exists_head
  obtain ⟨hchar, hbyte⟩ := toNat_byte_of_digit hc
  have hbounds := hc.bounds
  cases h with
  | unsigned =>
    rw [Utf8.encode_append, hcons, Utf8.encode_cons, hchar]
    unfold read
    split
    · rename_i heq
      have heq := congrArg UInt8.toNat (List.cons.inj heq).1
      rw [hbyte] at heq
      have hminus : (0x2D : UInt8).toNat = 0x2D := rfl
      omega
    · rfl
  | signed =>
    rw [Utf8.encode_cons, Utf8.encode_append]
    rfl

/-- A number is read from its whole lexeme, and from nothing else. -/
theorem Lexeme.ofText_iff (h : Lexeme positive w y x) :
    ofText (String.ofList x) = .ok n ↔ read (Utf8.encode x) = .ok (n, []) := by
  have hbegins : ∃ b l, Utf8.encode x = b :: l ∧ (b == 0x2D || isDigit b) = true := by
    obtain ⟨-, c, z, hcons, hc⟩ := h.integerPart.exists_head
    cases h with
    | unsigned =>
      refine ⟨UInt8.ofNat c.toNat, Utf8.encode (z ++ y), ?_, ?_⟩
      · rw [hcons, List.cons_append, Utf8.encode_cons, (toNat_byte_of_digit hc).1,
          List.singleton_append]
      · rw [isDigit_byte hc, Bool.or_true]
    | signed => exact ⟨0x2D, Utf8.encode (w ++ y), rfl, rfl⟩
  obtain ⟨b, l, hencode, hb⟩ := hbegins
  unfold ofText
  simp only [Utf8.bytes_ofList, hencode, if_pos hb]
  rcases read (b :: l) with stop | ⟨n', rest⟩
  · simp only [reduceCtorEq, iff_false]
    split <;> exact nofun
  · simp only [List.isEmpty_iff, Except.ok.injEq, Prod.mk.injEq]
    by_cases hrest : rest = []
    · simp [hrest]
    · simp [hrest]

/-- The sign and the integer part are known to what follows them. -/
theorem Lexeme.exists_tail (h : Lexeme positive w y x) : ∃ significand raised,
    read (Utf8.encode x) = tail positive significand raised (Utf8.encode y) ∧
    (Nat.ofDigitChars 10 w 0 < limit → significand = Nat.ofDigitChars 10 w 0 ∧ raised = 0) ∧
    (limit ≤ Nat.ofDigitChars 10 w 0 → raised ≠ 0) := by
  rw [h.read_eq]
  exact unsigned_integerPart h.integerPart h.not_isDigit_after positive

/-- What the lexeme of an integer is read as. -/
theorem Lexeme.read_integer (h : Lexeme positive w [] x)
    (hlimit : Nat.ofDigitChars 10 w 0 < limit) :
    read (Utf8.encode x) = tail positive (Nat.ofDigitChars 10 w 0) 0 [] := by
  obtain ⟨significand, raised, hread, hroom, -⟩ := h.exists_tail
  obtain ⟨rfl, rfl⟩ := hroom hlimit
  exact hread

end Lexeme

section Reading

variable {x : List Char}

theorem tail_positive (n : Nat) : tail true n 0 [] = .ok (integer n, []) := rfl

theorem tail_negative {n : Nat} (hpos : n ≠ 0) (hlimit : n ≤ 2 ^ 63) :
    tail false n 0 [] = .ok (integer (-(n : Int)), []) := by
  unfold tail
  simp only [ne_eq, not_true_eq_false, if_false, Bool.false_eq_true]
  rw [if_neg (by omega)]

/-- Zero with a sign, and what there is no room for with a sign, is floating. -/
theorem isFloating_tail_negative {n : Nat} (h : n = 0 ∨ 2 ^ 63 < n) :
    IsFloating (tail false n 0 []) := by
  unfold tail
  simp only [ne_eq, not_true_eq_false, if_false, Bool.false_eq_true]
  rw [if_pos (by omega)]
  exact isFloating_signed false _ _

/-- An integer for which there is room is read as what it is, unless it is zero with a sign. -/
theorem ofText_eq_integer (hx : numeral.expr.Matches x) (hinteger : IsInteger x)
    (hrange : InRange (spelledInteger x)) (hzero : x ≠ negativeZero) :
    ofText (String.ofList x) = .ok (integer (spelledInteger x)) := by
  obtain ⟨positive, w, y, h⟩ := exists_lexeme hx
  obtain rfl := h.isInteger_iff.1 hinteger
  rw [h.spelledInteger_eq] at hrange ⊢
  obtain ⟨hlow, hhigh⟩ := hrange
  have hlimit : limit = 2 ^ 64 := rfl
  cases positive with
  | true =>
    rw [if_pos rfl] at hhigh ⊢
    rw [h.ofText_iff, h.read_integer (by omega), tail_positive]
  | false =>
    rw [if_neg Bool.false_ne_true] at hlow ⊢
    have hpos : Nat.ofDigitChars 10 w 0 ≠ 0 := by
      intro hno
      obtain rfl := eq_zero_of_ofDigitChars h.integerPart hno
      cases h with
      | signed => exact hzero rfl
    rw [h.ofText_iff, h.read_integer (by omega), tail_negative hpos (by omega)]

/-- What is no integer, or an integer for which there is no room, is not read as an integer. -/
theorem ofText_ne_integer (hx : numeral.expr.Matches x)
    (h : ¬(IsInteger x ∧ InRange (spelledInteger x))) (n : Int) :
    ofText (String.ofList x) ≠ .ok (integer n) := by
  obtain ⟨positive, w, y, hlexeme⟩ := exists_lexeme hx
  obtain ⟨significand, raised, hread, hroom, hgreat⟩ := hlexeme.exists_tail
  have hfloating : IsFloating (read (Utf8.encode x)) := by
    rw [hread]
    rcases hlexeme.after_cases with rfl | ⟨c, z, rfl, hc⟩
    · have hrange : ¬InRange (spelledInteger x) := fun hrange =>
        h ⟨hlexeme.isInteger_iff.2 rfl, hrange⟩
      rw [hlexeme.spelledInteger_eq] at hrange
      unfold InRange at hrange
      have hlimit : limit = 2 ^ 64 := rfl
      by_cases hfits : Nat.ofDigitChars 10 w 0 < limit
      · obtain ⟨rfl, rfl⟩ := hroom hfits
        cases positive with
        | true =>
          rw [if_pos rfl] at hrange
          omega
        | false =>
          rw [if_neg Bool.false_ne_true] at hrange
          exact isFloating_tail_negative (by omega)
      · exact isFloating_tail positive _ (.inl ⟨hgreat (Nat.le_of_not_lt hfits), rfl⟩)
    · refine isFloating_tail positive _ (.inr ?_)
      rcases hc with rfl | rfl | rfl
      · exact ⟨0x2E, rfl, .inl rfl⟩
      · exact ⟨0x65, rfl, .inr (.inl rfl)⟩
      · exact ⟨0x45, rfl, .inr (.inr rfl)⟩
  intro hno
  obtain ⟨f, hf⟩ := hfloating _ _ (hlexeme.ofText_iff.1 hno)
  cases hf

theorem ofText_negativeZero : ofText (String.ofList negativeZero) = .ok (float (-0.0)) := rfl

end Reading

end Number

/-! ### The grammar of numbers -/

open Grammar Session Number

/-- What the lexeme of a number comes to: the integer that it spells if there is room for it, except
that zero with a sign is floating; and if it spells no integer or there is no room for it, then a
floating number or a failure. -/
structure ComesTo (x : List Char) (r : Except ParseError Value) : Prop where
  integer : IsInteger x → InRange (spelledInteger x) → x ≠ negativeZero →
    r = .ok (.number (.integer (spelledInteger x)))
  negativeZero : x = negativeZero → r = .ok (.number (.float (-0.0)))
  other : ¬(IsInteger x ∧ InRange (spelledInteger x)) →
    (∃ f, r = .ok (.number (.float f))) ∨ ∃ e, r = .error e

section Grammar

variable {ω ρ ν α : Type} [Input ω] {x : List Char}

/-- A transaction has the outcome of its contents, up to what it tells about a failure. -/
theorem exists_of_transacting {y : Action ω ν α} {s s₁ : Session ω ν} {r : Except ParseError α}
    (h : y s.transacting = some (r, s₁)) : ∃ r' s', Action.transaction y s = some (r', s') ∧
      (∀ a, r = .ok a → r' = .ok a) ∧ ∀ e, r = .error e → ∃ e', r' = .error e' := by
  unfold transacting at h
  rw [Action.transaction_eq]
  by_cases htrying : Input.isTrying s.input = true
  · rw [if_pos htrying] at h ⊢
    exact ⟨r, s₁, h, fun _ => id, fun e he => ⟨e, he⟩⟩
  · rw [if_neg htrying] at h ⊢
    rw [Action.attempt_eq, h]
    cases r with
    | ok a => exact ⟨_, _, rfl, fun _ => id, nofun⟩
    | error e => exact ⟨_, _, rfl, nofun, fun _ _ => ⟨_, rfl⟩⟩

/-- So it has the outcome of its last part. -/
theorem exists_of_transacting_bind {β : Type} {y : Action ω ν β} {f : β → Action ω ν α}
    {s s₁ : Session ω ν} {a : β} {r : Except ParseError α}
    (hy : y s.transacting = some (.ok a, s₁)) (hf : f a s₁ = some (r, s₁)) :
    ∃ r' s', Action.transaction (Action.bind y f) s = some (r', s') ∧
      (∀ b, r = .ok b → r' = .ok b) ∧ ∀ e, r = .error e → ∃ e', r' = .error e' :=
  exists_of_transacting ((Action.bind_of_ok hy f).trans hf)

/-- A lexeme whose token was read is converted or refused. -/
theorem readLexeme_of_token (p : Pattern) (read : String → Except Fault α)
    (refusal : String → Fault → String) {s s₁ : Session ω ν} {t : String}
    (hread : readToken p s.transacting = some (.ok t, s₁)) :
    ∃ r s', readLexeme p read refusal s = some (r, s') ∧ (∀ a, read t = .ok a → r = .ok a) ∧
      ∀ e, read t = .error e → ∃ e', r = .error e' := by
  cases hn : read t with
  | ok a =>
    have hread : ∃ r s', readLexeme p read refusal s = some (r, s') ∧ _ :=
      exists_of_transacting_bind (r := .ok a) hread (by rw [hn]; rfl)
    obtain ⟨r, s', hr, hok, -⟩ := hread
    exact ⟨r, s', hr, fun _ ha => hok _ (congrArg Except.ok (Except.ok.inj ha)), nofun⟩
  | error e =>
    have hread : ∃ r s', readLexeme p read refusal s = some (r, s') ∧ _ :=
      exists_of_transacting_bind (r := .error (.failure (refusal t e))) hread (by rw [hn]; rfl)
    obtain ⟨r, s', hr, -, herror⟩ := hread
    exact ⟨r, s', hr, nofun, fun _ _ => herror _ rfl⟩

/-- What a lexeme is read as is what it comes to. -/
theorem comesTo_of_ofText (hx : numeral.expr.Matches x) {r : Except ParseError Value}
    (hok : ∀ n, Number.ofText (String.ofList x) = .ok n → r = .ok (.number n))
    (herror : ∀ e, Number.ofText (String.ofList x) = .error e → ∃ e', r = .error e') :
    ComesTo x r where
  integer hinteger hrange hzero := hok _ (ofText_eq_integer hx hinteger hrange hzero)
  negativeZero hzero := hok _ (hzero ▸ ofText_negativeZero)
  other h := by
    cases hn : Number.ofText (String.ofList x) with
    | error e => exact .inr (herror e hn)
    | ok n =>
      cases n with
      | integer n => exact absurd hn (ofText_ne_integer hx h n)
      | float f => exact .inl ⟨f, hok _ hn⟩

/-- A lexeme is read over a cursor wherever it stands, behind white space and before what belongs to
no number. -/
theorem token_number_cursor (hx : numeral.expr.Matches x) (rules : ρ → Action Cursor ν Value)
    (bound : Nat) {w : List Char} (hw : IsBlank w) {l : List UInt8} {n n' : Nat}
    (hs : Spans l n (w ++ x) n') (hn' : n' ≤ l.length) (hrest : Delimited (l.drop n'))
    (journal : List ν) :
    (token numberPattern : Grammar ρ Value ν String).action rules bound
      (place journal l n).transacting = some (.ok (String.ofList x), place journal l n') := by
  obtain ⟨b, hhead, hlow, hhigh⟩ := head?_of_matches_numeral hx
  obtain ⟨n₁, hfinds, hlexeme⟩ := exists_finds hw hs hhead (refuses_of_digit hlow hhigh).1
  have htells := (isLexeme_numeral hx).tells (p := numeral) rfl hrest
  rw [← hlexeme.drop_eq] at htells
  rw [action_token bound numberPattern_eq]
  exact Action.readToken_cursor (p := numeral) rfl hfinds hlexeme hn' htells

/-- **Integers stay integers.**  Let a lexeme be a word of the pattern of numbers.  Whatever the
input is, where the token of numbers is this lexeme, the grammar of numbers comes to what the lexeme
comes to.  And over a cursor it is so wherever the lexeme stands, behind white space and before what
belongs to no number. -/
theorem number_keeps_integers (hx : numeral.expr.Matches x) :
    (∀ {ω ρ ν : Type} [Input ω] (rules : ρ → Action ω ν Value) (bound : Nat) (s s₁ : Session ω ν),
      (token numberPattern : Grammar ρ Value ν String).action rules bound s.transacting =
          some (.ok (String.ofList x), s₁) →
        ∃ r s', (number : Grammar ρ Value ν Value).action rules bound s = some (r, s') ∧
          ComesTo x r) ∧
    (∀ {ρ ν : Type} (rules : ρ → Action Cursor ν Value) (bound : Nat) (w : List Char)
      (l : List UInt8) (n n' : Nat) (journal : List ν), IsBlank w → Spans l n (w ++ x) n' →
        n' ≤ l.length → Delimited (l.drop n') →
          ∃ r s', (number : Grammar ρ Value ν Value).action rules bound (place journal l n) =
            some (r, s') ∧ ComesTo x r) := by
  have hall : ∀ {ω ρ ν : Type} [Input ω] (rules : ρ → Action ω ν Value) (bound : Nat)
      (s s₁ : Session ω ν), (token numberPattern : Grammar ρ Value ν String).action rules bound
        s.transacting = some (.ok (String.ofList x), s₁) →
      ∃ r s', (number : Grammar ρ Value ν Value).action rules bound s = some (r, s') ∧
        ComesTo x r := by
    intro ω ρ ν _ rules bound s s₁ hread
    rw [action_token bound numberPattern_eq] at hread
    obtain ⟨r, s', hr, hok, herror⟩ := readLexeme_of_token numeral
      (fun t => (Number.ofText t).map Value.number)
      (fun t e => "invalid number `" ++ t ++ "`: " ++ e.message) hread
    rw [action_number]
    exact ⟨r, s', hr, comesTo_of_ofText hx (fun n hn => hok _ (by rw [hn]; rfl))
      fun e he => herror e (by rw [he]; rfl)⟩
  exact ⟨hall, fun rules bound w l n n' journal hw hs hn' hrest =>
    hall rules bound _ _ (token_number_cursor hx rules bound hw hs hn' hrest journal)⟩

/-- The greatest integer for which there is room. -/
def greatest : List Char := "18446744073709551615".toList

/-- Digits are a word of the pattern of digits. -/
theorem matches_moreDigits {w : List Char} (hw : Digits w) : moreDigits.Matches w := by
  induction w with
  | nil => exact .enough
  | cons c w ih =>
    obtain ⟨hc, hw⟩ := List.forall_mem_cons.1 hw
    exact .again (x := [c]) nofun (.chars (CodePoints.contains_range_iff.2 hc.bounds)) (ih hw)

theorem matches_greatest : numeral.expr.Matches greatest := by
  have hdigits : Digits "8446744073709551615".toList := by decide
  exact .seq .enough (.seq (.second (.seq (x := ['1']) (.chars rfl) (matches_moreDigits hdigits)))
    (.seq .enough .enough))

/-- It is read from its text. -/
theorem greatest_is_kept : numeral.expr.Matches greatest ∧
    ∃ s', (number : Grammar Empty Value Empty Value).action Empty.elim 1
      (place [] (Utf8.encode greatest) 0) =
        some (.ok (.number (.integer 18446744073709551615)), s') := by
  obtain ⟨-, hcursor⟩ := number_keeps_integers matches_greatest
  have hspans : Spans (Utf8.encode greatest) 0 ([] ++ greatest) (Utf8.encode greatest).length :=
    ⟨by simp, by simp⟩
  obtain ⟨r, s', hr, hcomes⟩ := hcursor Empty.elim 1 [] (Utf8.encode greatest) 0 _ []
    (fun c hc => absurd hc List.not_mem_nil) hspans (Nat.le_refl _)
    (fun b hb => by rw [List.drop_length] at hb; cases hb)
  obtain rfl := hcomes.integer (by decide) (by decide) (by decide)
  exact ⟨matches_greatest, s', hr⟩

/-- Zero with a sign spells an integer for which there is room, but it is read as a floating number
and not as this integer. -/
theorem negativeZero_is_floating : numeral.expr.Matches negativeZero ∧ IsInteger negativeZero ∧
    InRange (spelledInteger negativeZero) ∧
    (number : Grammar Empty Value Empty Value).action Empty.elim 1
      (place [] (Utf8.encode negativeZero) 0) =
        some (.ok (.number (.float (-0.0))), place [] (Utf8.encode negativeZero) 2) ∧
    ¬∃ s', (number : Grammar Empty Value Empty Value).action Empty.elim 1
      (place [] (Utf8.encode negativeZero) 0) =
        some (.ok (.number (.integer (spelledInteger negativeZero))), s') := by
  have hmatches : numeral.expr.Matches negativeZero :=
    .seq (x := ['-']) (.again (x := ['-']) nofun (.chars rfl) .enough)
      (.seq (x := ['0']) (.first (.chars rfl)) (.seq .enough .enough))
  have hread : (number : Grammar Empty Value Empty Value).action Empty.elim 1
      (place [] (Utf8.encode negativeZero) 0) =
        some (.ok (.number (.float (-0.0))), place [] (Utf8.encode negativeZero) 2) := rfl
  refine ⟨hmatches, by decide, by decide, hread, ?_⟩
  rintro ⟨s', h⟩
  rw [hread] at h
  cases h

end Grammar

end StreamParser.Json
