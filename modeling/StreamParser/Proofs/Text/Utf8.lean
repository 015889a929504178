import Mathlib.Algebra.Group.Nat.Defs
import StreamParser.Text.Utf8

/-!
# Characters and their bytes

`Utf8.encode x` are the bytes of the characters `x`.

* `Spells pending l c` says that the bytes `l` go on after `pending` to the character `c`, and that
  each lead on the way leaves `c` possible.  The bytes of every character spell it (`spells_char`),
  and no others do (`Spells.unique`): there is one byte to go on with (`Admits.unique`).
* So what is encoded can be decoded: `chars?_encode`, `text?_encode`.
-/

namespace StreamParser.Utf8

/-- What is decided for one character after the other holds of all. -/
theorem forall_of_all {P : Char → Prop} [DecidablePred P] {x : List Char}
    (h : x.all (fun c => decide (P c)) = true) : ∀ c ∈ x, P c :=
  fun c hc => of_decide_eq_true (List.all_eq_true.1 h c hc)

/-- The encoding of characters. -/
def encode (x : List Char) : List UInt8 := x.flatMap String.utf8EncodeChar

@[simp] theorem encode_nil : encode [] = [] := rfl

@[simp] theorem encode_cons (c : Char) (x : List Char) :
    encode (c :: x) = String.utf8EncodeChar c ++ encode x := rfl

@[simp] theorem encode_append (x y : List Char) : encode (x ++ y) = encode x ++ encode y :=
  List.flatMap_append

/-- Every character takes a byte. -/
theorem length_le_length_encode (x : List Char) : x.length ≤ (encode x).length := by
  induction x with
  | nil => exact Nat.le_refl 0
  | cons c x ih =>
    have hpos : 0 < (String.utf8EncodeChar c).length :=
      List.length_pos_iff.2 String.utf8EncodeChar_ne_nil
    rw [encode_cons, List.length_append, List.length_cons]
    omega

theorem bytes_eq_encode (t : String) : bytes t = encode t.toList := rfl

@[simp] theorem bytes_ofList (x : List Char) : bytes (String.ofList x) = encode x := by
  rw [bytes_eq_encode, String.toList_ofList]

/-- The bytes go on after `pending` to a character, which stays possible on the way. -/
inductive Spells : Option Lead → List UInt8 → Char → Prop
  /-- The last byte. -/
  | last {pending : Option Lead} {b : UInt8} {c : Char} (h : read pending b = .char c) :
    Spells pending [b] c
  /-- A byte before others. -/
  | more {pending : Option Lead} {b : UInt8} {lead : Lead} {l : List UInt8} {c : Char}
    (h : read pending b = .lead lead) (hlow : lead.low ≤ c.toNat) (hhigh : c.toNat ≤ lead.high)
    (hs : Spells (some lead) l c) : Spells pending (b :: l) c

/-- A continuation byte gives six more bits. -/
theorem extend_continuation {lead : Lead} {n : Nat} (hn : n < 64) :
    lead.extend (UInt8.ofNat (n + 0x80)) =
      if lead.missing ≤ 1 then
        if lead.least ≤ lead.value * 64 + n ∧ (lead.value * 64 + n).isValidChar then
          .char (Char.ofNat (lead.value * 64 + n))
        else .invalid
      else .lead ⟨lead.value * 64 + n, lead.missing - 1, lead.least⟩ := by
  have hb : (UInt8.ofNat (n + 0x80)).toNat = n + 0x80 := by
    rw [UInt8.toNat_ofNat']
    omega
  have hcontinues : ((UInt8.ofNat (n + 0x80) < 0x80 || 0xC0 ≤ UInt8.ofNat (n + 0x80)) : Bool) =
      false := by
    simp only [UInt8.lt_iff_toNat_lt, UInt8.le_iff_toNat_le, hb, UInt8.reduceToNat,
      Bool.or_eq_false_iff, decide_eq_false_iff_not]
    omega
  unfold Lead.extend
  simp only [hcontinues, Bool.false_eq_true, if_false, hb, Nat.add_sub_cancel]

/-- The lead that knows all of the code point `v` but the last `missing` bytes. -/
def upTo (v missing least : Nat) : Lead := ⟨v / 64 ^ missing, missing, least⟩

/-- It leaves `v` possible. -/
theorem upTo_bounds {v least : Nat} (missing : Nat) (h : least ≤ v) :
    (upTo v missing least).low ≤ v ∧ v ≤ (upTo v missing least).high := by
  have hpos : 0 < 64 ^ missing := Nat.pow_pos (by decide)
  have hmod := Nat.mod_lt v hpos
  have hdiv := Nat.div_add_mod' v (64 ^ missing)
  constructor
  · show max (v / 64 ^ missing * 64 ^ missing) least ≤ v
    omega
  · show v ≤ v / 64 ^ missing * 64 ^ missing + (64 ^ missing - 1)
    omega

/-- The last bytes of the encoding of the code point `v`. -/
def continuation (v : Nat) : Nat → List UInt8
  | 0 => []
  | missing + 1 => UInt8.ofNat (v / 64 ^ missing % 64 + 0x80) :: continuation v missing

theorem spells_continuation {c : Char} {least : Nat} (h : least ≤ c.toNat) (missing : Nat) :
    Spells (some (upTo c.toNat (missing + 1) least)) (continuation c.toNat (missing + 1)) c := by
  induction missing with
  | zero =>
    have hvalue : c.toNat / 64 ^ 1 * 64 + c.toNat / 64 ^ 0 % 64 = c.toNat := by omega
    refine .last ?_
    show Lead.extend _ _ = _
    rw [extend_continuation (Nat.mod_lt _ (by decide))]
    simp only [upTo, hvalue, Nat.zero_add, Nat.le_refl, if_true]
    rw [if_pos ⟨h, c.valid⟩, Char.ofNat_toNat]
  | succ missing ih =>
    have hvalue : c.toNat / 64 ^ (missing + 2) * 64 + c.toNat / 64 ^ (missing + 1) % 64 =
        c.toNat / 64 ^ (missing + 1) := by
      rw [Nat.pow_succ 64 (missing + 1), ← Nat.div_div_eq_div_mul]
      omega
    obtain ⟨hlow, hhigh⟩ := upTo_bounds (missing + 1) h
    refine .more ?_ hlow hhigh ih
    show Lead.extend _ _ = _
    rw [extend_continuation (Nat.mod_lt _ (by decide))]
    have hmore : ¬ missing + 1 + 1 ≤ 1 := by omega
    simp only [upTo, hvalue, if_neg hmore, Nat.add_sub_cancel]

/-- What the first byte of an encoding that has more than one byte tells. -/
theorem begin_two : ∀ n < 32, 2 ≤ n → begin (UInt8.ofNat (n + 0xC0)) = .lead ⟨n, 1, 0x80⟩ := by
  decide

theorem begin_three : ∀ n < 16, begin (UInt8.ofNat (n + 0xE0)) = .lead ⟨n, 2, 0x800⟩ := by decide

theorem begin_four : ∀ n < 5, begin (UInt8.ofNat (n + 0xF0)) = .lead ⟨n, 3, 0x10000⟩ := by decide

theorem toNat_lt (c : Char) : c.toNat < 0x110000 := by
  rcases c.valid with h | h
  · exact Nat.lt_trans h (by decide)
  · exact h.2

/-- The bytes of a character spell it. -/
theorem spells_char (c : Char) : Spells none (String.utf8EncodeChar c) c := by
  have hgreatest := toNat_lt c
  -- after the first byte the continuation spells the character
  have hmore : ∀ b missing least l, least ≤ c.toNat →
      begin b = .lead (upTo c.toNat (missing + 1) least) →
      l = continuation c.toNat (missing + 1) → Spells none (b :: l) c := by
    rintro b missing least l hleast hb rfl
    obtain ⟨hlow, hhigh⟩ := upTo_bounds (missing + 1) hleast
    exact .more hb hlow hhigh (spells_continuation hleast missing)
  have hval : c.val.toNat = c.toNat := rfl
  unfold String.utf8EncodeChar
  simp only [hval]
  split
  · refine .last ?_
    have hb : (UInt8.ofNat c.toNat).toNat = c.toNat := by
      rw [UInt8.toNat_ofNat']
      omega
    show begin _ = _
    unfold begin
    rw [if_pos (by simp only [UInt8.lt_iff_toNat_lt, hb, UInt8.reduceToNat]; omega), hb,
      Char.ofNat_toNat]
  · split
    · have hfirst : c.toNat / 64 % 32 = c.toNat / 64 := by omega
      refine hmore _ 0 0x80 _ (by omega) ?_ (by simp [continuation])
      rw [hfirst, begin_two _ (by omega) (by omega)]
      rfl
    · split
      · have hfirst : c.toNat / 4096 % 16 = c.toNat / 4096 := by omega
        refine hmore _ 1 0x800 _ (by omega) ?_ (by simp [continuation])
        rw [hfirst, begin_three _ (by omega)]
        rfl
      · have hfirst : c.toNat / 262144 % 8 = c.toNat / 262144 := by omega
        refine hmore _ 2 0x10000 _ (by omega) ?_ (by simp [continuation])
        rw [hfirst, begin_four _ (by omega)]
        rfl

/-! ### ASCII -/

/-- A byte of ASCII is a character by itself. -/
theorem begin_of_lt {b : UInt8} (hb : b < 0x80) : begin b = .char (Char.ofNat b.toNat) := by
  unfold begin
  rw [if_pos hb]

theorem toNat_of_lt {b : UInt8} (hb : b < 0x80) : (Char.ofNat b.toNat).toNat = b.toNat := by
  have hlt : b.toNat < 0x80 := UInt8.lt_iff_toNat_lt.1 hb
  have hvalid : b.toNat.isValidChar := .inl (by omega)
  rw [Char.ofNat, dif_pos hvalid]
  rfl

/-- A character of ASCII is encoded by one byte. -/
theorem char_of_lt {c : Char} (hc : c.toNat < 0x80) :
    String.utf8EncodeChar c = [UInt8.ofNat c.toNat] := by
  unfold String.utf8EncodeChar
  exact if_pos (Nat.le_of_lt_succ hc)

theorem toNat_ofNat_of_lt {n : Nat} (hn : n < 0x80) : (UInt8.ofNat n).toNat = n := by
  rw [UInt8.toNat_ofNat']
  omega

/-- It does not belong to a character beyond ASCII. -/
theorem Spells.le {pending : Option Lead} {l : List UInt8} {c : Char} (h : Spells pending l c)
    (hc : 0x80 ≤ c.toNat) : ∀ b ∈ l, 0x80 ≤ b := by
  have hread : ∀ (pending : Option Lead) {b : UInt8}, b < 0x80 →
      read pending b = .char (Char.ofNat b.toNat) ∨ read pending b = .invalid := by
    intro pending b hb
    cases pending with
    | none => exact .inl (begin_of_lt hb)
    | some lead =>
      refine .inr ?_
      show lead.extend b = _
      unfold Lead.extend
      rw [if_pos (by rw [decide_eq_true hb]; rfl)]
  induction h with
  | @last pending b c h =>
    intro d hd
    rw [List.mem_singleton.1 hd]
    refine UInt8.not_lt.1 fun hlt => ?_
    rcases hread pending hlt with hb | hb <;> rw [h] at hb <;> cases hb
    rw [toNat_of_lt hlt] at hc
    have hlt : b.toNat < 0x80 := UInt8.lt_iff_toNat_lt.1 hlt
    omega
  | @more pending b lead l c h _ _ _ ih =>
    refine List.forall_mem_cons.2 ⟨UInt8.not_lt.1 fun hlt => ?_, ih hc⟩
    rcases hread pending hlt with hb | hb <;> rw [h] at hb <;> cases hb

/-- The encoding of a text that begins with a byte of ASCII is that of a text that begins with a
character. -/
theorem exists_of_encode_eq_cons {x : List Char} {b : UInt8} {l : List UInt8}
    (h : encode x = b :: l) (hb : b < 0x80) :
    ∃ c y, x = c :: y ∧ c.toNat = b.toNat ∧ l = encode y := by
  cases x with
  | nil => cases h
  | cons c y =>
    have hspells := spells_char c
    rw [encode_cons] at h
    revert hspells h
    generalize String.utf8EncodeChar c = m
    intro h hspells
    have hread : read none b = _ := begin_of_lt hb
    cases hspells with
    | last hc =>
      cases h
      rw [hread] at hc
      cases hc
      exact ⟨_, y, rfl, toNat_of_lt hb, rfl⟩
    | more hlead =>
      cases h
      rw [hread] at hlead
      cases hlead

/-! ### The way to a character -/

/-- What begins with a byte. -/
theorem begin_cases (b : UInt8) :
    b.toNat < 0x80 ∧ begin b = .char (Char.ofNat b.toNat) ∨ begin b = .invalid ∨
      ∃ lead, begin b = .lead lead ∧
        (0xC2 ≤ b.toNat ∧ b.toNat < 0xE0 ∧ lead = ⟨b.toNat - 0xC0, 1, 0x80⟩ ∨
          0xE0 ≤ b.toNat ∧ b.toNat < 0xF0 ∧ lead = ⟨b.toNat - 0xE0, 2, 0x800⟩ ∨
          0xF0 ≤ b.toNat ∧ b.toNat < 0xF5 ∧ lead = ⟨b.toNat - 0xF0, 3, 0x10000⟩) := by
  unfold begin
  simp only [UInt8.lt_iff_toNat_lt, UInt8.reduceToNat]
  split
  · exact .inl ⟨‹_›, rfl⟩
  split
  · exact .inr (.inl rfl)
  split
  · exact .inr (.inr ⟨_, rfl, .inl ⟨by omega, by omega, rfl⟩⟩)
  split
  · exact .inr (.inr ⟨_, rfl, .inr (.inl ⟨by omega, by omega, rfl⟩)⟩)
  split
  · exact .inr (.inr ⟨_, rfl, .inr (.inr ⟨by omega, by omega, rfl⟩)⟩)
  · exact .inr (.inl rfl)

/-- What a byte makes of a lead. -/
theorem extend_cases (lead : Lead) (b : UInt8) :
    lead.extend b = .invalid ∨ 0x80 ≤ b.toNat ∧ b.toNat < 0xC0 ∧
      (lead.missing ≤ 1 ∧ lead.least ≤ lead.value * 64 + (b.toNat - 0x80) ∧
          (∃ c : Char, c.toNat = lead.value * 64 + (b.toNat - 0x80) ∧ lead.extend b = .char c) ∨
        1 < lead.missing ∧ lead.extend b =
          .lead ⟨lead.value * 64 + (b.toNat - 0x80), lead.missing - 1, lead.least⟩) := by
  unfold Lead.extend
  split
  · exact .inl rfl
  rename_i hb
  simp only [Bool.or_eq_true, decide_eq_true_eq, UInt8.lt_iff_toNat_lt, UInt8.le_iff_toNat_le,
    UInt8.reduceToNat] at hb
  simp only
  split
  · split
    · rename_i hvalue
      refine .inr ⟨by omega, by omega, .inl ⟨‹_›, hvalue.1, _, ?_, rfl⟩⟩
      rw [Char.ofNat, dif_pos hvalue.2]
      rfl
    · exact .inl rfl
  · exact .inr ⟨by omega, by omega, .inr ⟨by omega, rfl⟩⟩

/-- The byte is on the way to the character: it is its last one, or it leaves it possible. -/
def Admits (pending : Option Lead) (b : UInt8) (c : Char) : Prop :=
  read pending b = .char c ∨
    ∃ lead, read pending b = .lead lead ∧ lead.low ≤ c.toNat ∧ c.toNat ≤ lead.high

/-- A lead that leaves a code point possible is what that begins with. -/
theorem Lead.value_eq {lead : Lead} {v : Nat} (hlow : lead.low ≤ v) (hhigh : v ≤ lead.high) :
    lead.value = v / 64 ^ lead.missing := by
  have hle : lead.value * 64 ^ lead.missing ≤ v := Nat.le_trans (Nat.le_max_left _ _) hlow
  have hlt : v < (lead.value + 1) * 64 ^ lead.missing := by
    have hpos : 0 < 64 ^ lead.missing := Nat.pow_pos (by decide)
    have : v ≤ lead.value * 64 ^ lead.missing + (64 ^ lead.missing - 1) := hhigh
    rw [Nat.add_mul]
    omega
  exact (Nat.div_eq_of_lt_le hle hlt).symm

/-- The first byte on the way to a character. -/
theorem toNat_of_admits_none {b : UInt8} {c : Char} (h : Admits none b c) :
    b.toNat =
      if c.toNat < 0x80 then c.toNat
      else if c.toNat < 0x800 then c.toNat / 64 + 0xC0
      else if c.toNat < 0x10000 then c.toNat / 4096 + 0xE0
      else c.toNat / 262144 + 0xF0 := by
  have hread : read none b = begin b := rfl
  unfold Admits at h
  rw [hread] at h
  rcases begin_cases b with ⟨hlt, hb⟩ | hb | ⟨lead, hb, hlead⟩ <;> rw [hb] at h
  · rcases h with h | ⟨lead, h, -⟩
    · rw [← Progress.char.inj h, toNat_of_lt (UInt8.lt_iff_toNat_lt.2 hlt), if_pos hlt]
    · cases h
  · rcases h with h | ⟨lead, h, -⟩ <;> cases h
  · rcases h with h | ⟨_, h, hlow, hhigh⟩
    · cases h
    cases h
    have hvalue := lead.value_eq hlow hhigh
    have hleast : lead.least ≤ c.toNat := Nat.le_trans (Nat.le_max_right _ _) hlow
    rcases hlead with ⟨_, _, rfl⟩ | ⟨_, _, rfl⟩ | ⟨_, _, rfl⟩
    all_goals
      clear hlow hhigh
      simp only [Nat.reducePow] at hvalue hleast
      repeat' split
      all_goals omega

/-- A byte that continues a character gives the next six bits of each that it is on the way to. -/
theorem bits_of_admits_some {lead : Lead} {b : UInt8} {c : Char} (h : Admits (some lead) b c) :
    0x80 ≤ b.toNat ∧ b.toNat < 0xC0 ∧ lead.least ≤ c.toNat ∧
      lead.value * 64 + (b.toNat - 0x80) = c.toNat / 64 ^ (lead.missing - 1) := by
  have hread : read (some lead) b = lead.extend b := rfl
  unfold Admits at h
  rw [hread] at h
  rcases extend_cases lead b with
    hb | ⟨hle, hlt, ⟨hmissing, hleast, d, hd, hb⟩ | ⟨-, hb⟩⟩ <;> rw [hb] at h
  · rcases h with h | ⟨lead', h, -⟩ <;> cases h
  · rcases h with h | ⟨lead', h, -⟩
    · have hone : lead.missing - 1 = 0 := by omega
      rw [hone, Nat.pow_zero, Nat.div_one, ← Progress.char.inj h, hd]
      exact ⟨hle, hlt, hleast, rfl⟩
    · cases h
  · rcases h with h | ⟨lead', h, hlow, hhigh⟩
    · cases h
    · have hvalue := Lead.value_eq hlow hhigh
      have hleast : lead'.least ≤ c.toNat := Nat.le_trans (Nat.le_max_right _ _) hlow
      rw [← Progress.lead.inj h] at hvalue hleast
      exact ⟨hle, hlt, hleast, hvalue⟩

/-- There is one way to go on to a character. -/
theorem Admits.unique {pending : Option Lead} {b b' : UInt8} {c : Char} (h : Admits pending b c)
    (h' : Admits pending b' c) : b = b' := by
  refine UInt8.toNat_inj.1 ?_
  cases pending with
  | none => rw [toNat_of_admits_none h, toNat_of_admits_none h']
  | some lead =>
    obtain ⟨hb, -, -, heq⟩ := bits_of_admits_some h
    obtain ⟨hb', -, -, heq'⟩ := bits_of_admits_some h'
    omega

theorem Spells.admits {pending : Option Lead} {b : UInt8} {l : List UInt8} {c : Char}
    (h : Spells pending (b :: l) c) : Admits pending b c := by
  cases h with
  | last h => exact .inl h
  | more h hlow hhigh _ => exact .inr ⟨_, h, hlow, hhigh⟩

/-- What spells a character is told by the character. -/
theorem Spells.unique {pending : Option Lead} {l l' : List UInt8} {c : Char}
    (h : Spells pending l c) (h' : Spells pending l' c) : l = l' := by
  induction h generalizing l' with
  | @last pending b c h =>
    cases h' with
    | last h' => rw [(Admits.unique (.inl h) (.inl h') : b = _)]
    | more h' hlow hhigh _ =>
      rw [Admits.unique (.inl h) (.inr ⟨_, h', hlow, hhigh⟩), h'] at h
      cases h
  | @more pending b lead l c h hlow hhigh hs ih =>
    cases h' with
    | last h' =>
      rw [Admits.unique (.inr ⟨_, h, hlow, hhigh⟩) (.inl h'), h'] at h
      cases h
    | more h' hlow' hhigh' hs' =>
      obtain rfl := Admits.unique (.inr ⟨_, h, hlow, hhigh⟩) (.inr ⟨_, h', hlow', hhigh'⟩)
      rw [h] at h'
      cases h'
      rw [ih hs']

/-- The bytes of a character are the only ones that spell it. -/
theorem spells_none_iff {l : List UInt8} {c : Char} :
    Spells none l c ↔ l = String.utf8EncodeChar c :=
  ⟨fun h => h.unique (spells_char c), fun h => h ▸ spells_char c⟩

/-- Bytes that spell two characters after one lead spell the same. -/
theorem Spells.char_unique {pending : Option Lead} {l l' m m' : List UInt8} {c c' : Char}
    (h : Spells pending l c) (h' : Spells pending l' c') (hm : l ++ m = l' ++ m') : c = c' := by
  induction h generalizing l' with
  | last h =>
    cases h' with
    | last h' =>
      cases (List.cons.inj hm).1
      exact Progress.char.inj (h.symm.trans h')
    | more h' _ _ _ =>
      cases (List.cons.inj hm).1
      cases h.symm.trans h'
  | more h _ _ _ ih =>
    cases h' with
    | last h' =>
      cases (List.cons.inj hm).1
      cases h.symm.trans h'
    | more h' _ _ hs' =>
      obtain ⟨hb, hrest⟩ := List.cons.inj hm
      subst hb
      cases h.symm.trans h'
      exact ih hs' hrest

/-- A lead leaves every character possible that is spelled behind it. -/
theorem Spells.bounds {lead : Lead} {l : List UInt8} {c : Char} (h : Spells (some lead) l c)
    (hmissing : lead.missing ≠ 0) : lead.low ≤ c.toNat ∧ c.toNat ≤ lead.high := by
  cases l with
  | nil => cases h
  | cons b l =>
    obtain ⟨hle, hlt, hleast, hbits⟩ := bits_of_admits_some h.admits
    have hsucc : lead.missing - 1 + 1 = lead.missing := Nat.succ_pred hmissing
    have hvalue : lead = upTo c.toNat lead.missing lead.least := by
      have : lead.value = c.toNat / 64 ^ lead.missing := by
        rw [← hsucc, Nat.pow_succ, ← Nat.div_div_eq_div_mul, ← hbits]
        omega
      unfold upTo
      rw [← this]
    rw [hvalue]
    exact upTo_bounds _ hleast

/-- A lead misses some byte. -/
theorem missing_of_read {pending : Option Lead} {b : UInt8} {lead : Lead}
    (h : read pending b = .lead lead) : lead.missing ≠ 0 := by
  cases pending with
  | none =>
    have h : begin b = .lead lead := h
    rcases begin_cases b with ⟨-, hb⟩ | hb | ⟨lead', hb, hlead⟩ <;> rw [hb] at h
    · cases h
    · cases h
    · cases h
      rcases hlead with ⟨-, -, rfl⟩ | ⟨-, -, rfl⟩ | ⟨-, -, rfl⟩ <;> exact Nat.succ_ne_zero _
  | some l =>
    have h : l.extend b = .lead lead := h
    rcases extend_cases l b with hb | ⟨-, -, ⟨-, -, d, -, hb⟩ | ⟨hlt, hb⟩⟩ <;> rw [hb] at h
    · cases h
    · cases h
    · rw [← Progress.lead.inj h]
      exact Nat.sub_ne_zero_of_lt hlt

/-- What spells a character after a lead that has been read does so before that. -/
theorem Spells.cons {pending : Option Lead} {b : UInt8} {lead : Lead} {l : List UInt8} {c : Char}
    (h : read pending b = .lead lead) (hs : Spells (some lead) l c) : Spells pending (b :: l) c :=
  have hbounds := hs.bounds (missing_of_read h)
  .more h hbounds.1 hbounds.2 hs

/-! ### Decoding -/

theorem chars?_cons (pending : Option Lead) (b : UInt8) (l : List UInt8) :
    chars? pending (b :: l) =
      match read pending b with
      | .char c => (chars? none l).map (c :: ·)
      | .lead lead => chars? (some lead) l
      | .invalid => none := by
  cases pending <;> rfl

theorem chars?_of_spells {pending : Option Lead} {l : List UInt8} {c : Char}
    (h : Spells pending l c) (m : List UInt8) :
    chars? pending (l ++ m) = (chars? none m).map (c :: ·) := by
  induction h with
  | last h => simp only [List.cons_append, List.nil_append, chars?_cons, h]
  | more h _ _ _ ih => simp only [List.cons_append, chars?_cons, h, ih]

theorem chars?_encode (x : List Char) : chars? none (encode x) = some x := by
  induction x with
  | nil => rfl
  | cons c x ih => rw [encode_cons, chars?_of_spells (spells_char c), ih, Option.map_some]

theorem text?_encode (x : List Char) : text? (encode x) = some (String.ofList x) := by
  unfold text?
  rw [chars?_encode, Option.map_some]

/-- What follows an encoded text is decoded by itself. -/
theorem chars?_append {pending : Option Lead} {l : List UInt8} {x : List Char}
    (h : chars? pending l = some x) (m : List UInt8) :
    chars? pending (l ++ m) = (chars? none m).map (x ++ ·) := by
  induction l generalizing pending x with
  | nil =>
    cases pending with
    | none =>
      cases h
      simp
    | some lead => cases h
  | cons b l ih =>
    rw [chars?_cons] at h
    rw [List.cons_append, chars?_cons]
    cases hb : read pending b with
    | char c =>
      rw [hb] at h
      obtain ⟨y, hy, rfl⟩ := Option.map_eq_some_iff.1 h
      simp only [ih hy, Option.map_map]
      rfl
    | lead lead =>
      rw [hb] at h
      exact ih h
    | invalid =>
      rw [hb] at h
      cases h

end StreamParser.Utf8
