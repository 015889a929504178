import Mathlib.Data.List.TakeWhile
import StreamParser.Json.StringLiteral
import StreamParser.Proofs.Json.Lexemes
import StreamParser.Proofs.Json.Standard

/-!
# String literals

`StringLiteral.ofText` reads bytes, and knows nothing of patterns.  What it takes, from one quote to
another, is nevertheless a string of the standard (`literal_of_ofText`), and so it is a word of the
pattern of strings (`matches_of_ofText`): the pattern never ends a string too early or too late.
-/

namespace StreamParser.Json

open StreamParser.Expr

/-- Any number of units. -/
def units : Expr := rep true 0 none unit

theorem matches_units_cons {x y : List Char} (hx : unit.Matches x) (hy : units.Matches y) :
    units.Matches (x ++ y) := .again (by simp) hx hy

theorem matches_units_append {x y : List Char} (hx : units.Matches x) (hy : units.Matches y) :
    units.Matches (x ++ y) :=
  matches_many hx (P := fun x => units.Matches (x ++ y)) hy fun z₁ z₂ h₁ h₂ => by
    rw [List.append_assoc]
    exact matches_units_cons h₁ h₂

/-- A reader that goes on after another one succeeds if both do. -/
theorem exists_of_bind_eq_ok {ε α β : Type} {r : Except ε α} {f : α → Except ε β} {b : β}
    (h : r.bind f = .ok b) : ∃ a, r = .ok a ∧ f a = .ok b := by
  cases r with
  | error e => cases h
  | ok a => exact ⟨a, rfl, h⟩

namespace StringLiteral

variable {x y : List Char} {b : UInt8} {l rest v : List UInt8} {n : Nat}

/-- A character that is no quote and no backslash stands for itself. -/
theorem plain_of_ne {c : Char} (hquote : c.toNat ≠ 0x22) (hslash : c.toNat ≠ 0x5C) :
    plain.contains c.toNat = true := by
  have hlt := Utf8.toNat_lt c
  simp only [CodePoints.contains, plain, List.any_cons, List.any_nil, Bool.or_false,
    Bool.or_eq_true, Bool.and_eq_true, decide_eq_true_eq]
  omega

theorem matches_plain {c : Char} (hquote : c ≠ '"') (hslash : c ≠ '\\') : unit.Matches [c] :=
  .first (.chars (plain_of_ne (fun h => hquote (Char.toNat_inj.1 h))
    fun h => hslash (Char.toNat_inj.1 h)))

/-- A backslash and the character after it. -/
theorem matches_escape {c : Char} (hc : c.toNat ≠ 0x0A) : unit.Matches ['\\', c] := by
  have hlt := Utf8.toNat_lt c
  have hescaped : escaped.contains c.toNat = true := by
    simp only [CodePoints.contains, escaped, List.any_cons, List.any_nil, Bool.or_false,
      Bool.or_eq_true, Bool.and_eq_true, decide_eq_true_eq]
    omega
  exact .second (.seq (x := ['\\']) (.chars rfl) (.chars hescaped))

/-- A character of a string is one unit or, if it is written by its code point, several. -/
theorem matches_units_of_stringChar (hx : Standard.StringChar x) : units.Matches x := by
  have hhex : ∀ {c : Char}, Standard.IsHex c → unit.Matches [c] := by
    intro c hc
    refine matches_plain ?_ ?_ <;> rintro rfl <;> exact absurd hc (by decide)
  have hone : ∀ {x : List Char}, unit.Matches x → units.Matches x := by
    intro x hx
    have h := matches_units_cons hx .enough
    rwa [List.append_nil] at h
  cases hx with
  | plain _ hquote hslash => exact hone (matches_plain hquote hslash)
  | @escape c hc =>
    refine hone (matches_escape ?_)
    have hall : ∀ c ∈ ['"', '\\', '/', 'b', 'f', 'n', 'r', 't'], c.toNat ≠ 0x0A :=
      Utf8.forall_of_all (by decide)
    exact hall c hc
  | unicode ha hb hc hd =>
    exact matches_units_cons (matches_escape (c := 'u') (by decide)) (matches_units_cons (hhex ha)
      (matches_units_cons (hhex hb) (matches_units_cons (hhex hc) (hone (hhex hd)))))

theorem matches_units_of_contents (hx : Standard.Contents x) : units.Matches x := by
  induction hx with
  | nil => exact .enough
  | cons hx _ ih => exact matches_units_append (matches_units_of_stringChar hx) ih

/-- The character of a hexadecimal digit. -/
theorem exists_of_hexDigit? {m : Nat} (hx : Utf8.encode x = b :: l) (hb : hexDigit? b = some m) :
    ∃ c y, x = c :: y ∧ Standard.IsHex c ∧ l = Utf8.encode y := by
  have hdigits : ∀ n < 256, (hexDigit? (UInt8.ofNat n)).isSome = true →
      n < 0x80 ∧ Standard.IsHex (Char.ofNat n) := by decide +kernel
  obtain ⟨hlt, hhex⟩ := hdigits b.toNat b.toNat_lt (by rw [UInt8.ofNat_toNat, hb]; rfl)
  obtain ⟨c, y, rfl, hc, rfl⟩ := Utf8.exists_of_encode_eq_cons hx (UInt8.lt_iff_toNat_lt.2 hlt)
  rw [← hc, Char.ofNat_toNat] at hhex
  exact ⟨c, y, rfl, hhex, rfl⟩

/-- Four hexadecimal digits. -/
theorem exists_of_hex4 {m : Nat} (h : hex4 (Utf8.encode x) = .ok (m, rest)) :
    ∃ y z, x = y ++ z ∧ Standard.Contents ('\\' :: 'u' :: y) ∧ rest = Utf8.encode z := by
  unfold hex4 at h
  split at h
  · rename_i b₁ b₂ b₃ b₄ l hx
    split at h
    · rename_i m₁ m₂ m₃ m₄ h₁ h₂ h₃ h₄
      cases h
      obtain ⟨c₁, y₁, rfl, hc₁, hl⟩ := exists_of_hexDigit? hx h₁
      obtain ⟨c₂, y₂, rfl, hc₂, hl⟩ := exists_of_hexDigit? hl.symm h₂
      obtain ⟨c₃, y₃, rfl, hc₃, hl⟩ := exists_of_hexDigit? hl.symm h₃
      obtain ⟨c₄, y₄, rfl, hc₄, hl⟩ := exists_of_hexDigit? hl.symm h₄
      exact ⟨[c₁, c₂, c₃, c₄], y₄, rfl, .cons (.unicode hc₁ hc₂ hc₃ hc₄) .nil, hl⟩
    · cases h
  · cases h

theorem exists_of_expectByte (hb : b < 0x80) (h : expectByte b (Utf8.encode x) = .ok ((), rest)) :
    ∃ y, x = Char.ofNat b.toNat :: y ∧ rest = Utf8.encode y := by
  unfold expectByte at h
  split at h
  · cases h
  · rename_i c l hx
    split at h
    · rename_i hc
      cases h
      rw [hc] at hx
      obtain ⟨c, y, rfl, hc, rfl⟩ := Utf8.exists_of_encode_eq_cons hx hb
      exact ⟨y, by rw [← hc, Char.ofNat_toNat], rfl⟩
    · cases h

/-- What follows the letter of an escape by code point. -/
theorem exists_of_unicodeEscape (h : unicodeEscape (Utf8.encode x) = .ok (v, rest)) :
    ∃ y z, x = y ++ z ∧ Standard.Contents ('\\' :: 'u' :: y) ∧ rest = Utf8.encode z := by
  obtain ⟨⟨n, l⟩, hfirst, h⟩ := exists_of_bind_eq_ok h
  obtain ⟨y, z, rfl, hy, rfl⟩ := exists_of_hex4 hfirst
  simp only at h
  split at h
  · cases h
  · split at h
    · cases h
      exact ⟨y, z, rfl, hy, rfl⟩
    · -- the second half of a surrogate pair is an escape of its own
      obtain ⟨⟨⟨⟩, l⟩, hslash, h⟩ := exists_of_bind_eq_ok h
      obtain ⟨z, rfl, rfl⟩ := exists_of_expectByte (by decide) hslash
      obtain ⟨⟨⟨⟩, l⟩, hletter, h⟩ := exists_of_bind_eq_ok h
      obtain ⟨z, rfl, rfl⟩ := exists_of_expectByte (by decide) hletter
      obtain ⟨⟨m, l⟩, hsecond, h⟩ := exists_of_bind_eq_ok h
      obtain ⟨y', z, rfl, hy', rfl⟩ := exists_of_hex4 hsecond
      simp only at h
      split at h
      · exact ⟨y ++ '\\' :: 'u' :: y', z, by simp, hy.append hy',
          (Prod.mk.inj (Except.ok.inj h)).2.symm⟩
      · cases h

/-- An escape after its backslash. -/
theorem exists_of_escape (h : escape (Utf8.encode x) = .ok (v, rest)) :
    ∃ y z, x = y ++ z ∧ Standard.Contents ('\\' :: y) ∧ rest = Utf8.encode z := by
  unfold escape at h
  split at h
  · cases h
  · rename_i l hx
    obtain ⟨d, y, rfl, hd, rfl⟩ := Utf8.exists_of_encode_eq_cons hx (by decide)
    obtain rfl : d = 'u' := Char.toNat_inj.1 hd
    obtain ⟨y', z, rfl, hy', rfl⟩ := exists_of_unicodeEscape h
    exact ⟨'u' :: y', z, rfl, hy', rfl⟩
  · rename_i b l _ hx
    have hsimple : ∀ n < 256, (simpleEscape? (UInt8.ofNat n)).isSome = true →
        n < 0x80 ∧ Char.ofNat n ∈ ['"', '\\', '/', 'b', 'f', 'n', 'r', 't'] := by decide +kernel
    split at h
    · rename_i d hd
      obtain ⟨hlt, hmem⟩ := hsimple b.toNat b.toNat_lt (by rw [UInt8.ofNat_toNat, hd]; rfl)
      obtain ⟨c, y, rfl, hc, rfl⟩ :=
        Utf8.exists_of_encode_eq_cons hx (UInt8.lt_iff_toNat_lt.2 hlt)
      rw [← hc, Char.ofNat_toNat] at hmem
      cases h
      exact ⟨[c], y, rfl, .cons (.escape hmem) .nil, rfl⟩
    · cases h

theorem body_nil_ne_ok : body n [] ≠ .ok (v, rest) := by
  cases n <;> exact fun h => by cases h

/-- A string goes on with its closing quote, with an escape or with a byte that stands for itself. -/
theorem body_cons_cases (h : body n (b :: l) = .ok (v, rest)) :
    (b = 0x22 ∧ rest = l) ∨
    (b = 0x5C ∧ ∃ first l' n' others, escape l = .ok (first, l') ∧
      body n' l' = .ok (others, rest)) ∨
    (b ≠ 0x22 ∧ b ≠ 0x5C ∧ 0x20 ≤ b ∧ ∃ n' others, body n' l = .ok (others, rest)) := by
  unfold body at h
  split at h
  · cases h
  · cases ‹b :: l = []›
  · obtain ⟨rfl, rfl⟩ := List.cons.inj ‹b :: l = _›
    cases h
    exact .inl ⟨rfl, rfl⟩
  · obtain ⟨rfl, rfl⟩ := List.cons.inj ‹b :: l = _›
    obtain ⟨⟨first, l'⟩, hescape, h⟩ := exists_of_bind_eq_ok h
    obtain ⟨⟨others, l''⟩, hothers, h⟩ := exists_of_bind_eq_ok h
    cases h
    exact .inr (.inl ⟨rfl, first, l', _, others, hescape, hothers⟩)
  · rename_i hquote hslash hx
    obtain ⟨rfl, rfl⟩ := List.cons.inj hx
    split at h
    · cases h
    · rename_i hlow
      obtain ⟨⟨others, l'⟩, hothers, h⟩ := exists_of_bind_eq_ok h
      cases h
      exact .inr (.inr ⟨hquote, hslash, UInt8.not_lt.1 hlow, _, others, hothers⟩)

/-- Bytes beyond ASCII are taken one by one. -/
theorem exists_of_body_append (hl : ∀ b ∈ l, 0x80 ≤ b) {m : List UInt8}
    (h : body n (l ++ m) = .ok (v, rest)) : ∃ n' v', body n' m = .ok (v', rest) := by
  induction l generalizing n v with
  | nil => exact ⟨n, v, h⟩
  | cons b l ih =>
    obtain ⟨hb, hl⟩ := List.forall_mem_cons.1 hl
    rcases body_cons_cases h with ⟨rfl, -⟩ | ⟨rfl, -⟩ | ⟨-, -, -, n', others, h⟩
    · exact absurd hb (by decide)
    · exact absurd hb (by decide)
    · exact ih hl h

/-- What is read up to the closing quote is what the standard allows there. -/
theorem exists_of_body (h : body n (Utf8.encode x) = .ok (v, rest)) :
    ∃ y z, x = y ++ '"' :: z ∧ Standard.Contents y ∧ rest = Utf8.encode z := by
  induction hk : x.length using Nat.strongRecOn generalizing x n v with
  | _ k ih =>
    subst hk
    cases x with
    | nil => exact absurd h body_nil_ne_ok
    | cons c x =>
      -- a character that stands for itself comes before the others
      have hplain : 0x20 ≤ c.toNat → c ≠ '"' → c ≠ '\\' →
          (∃ n' v', body n' (Utf8.encode x) = .ok (v', rest)) →
          ∃ y z, c :: x = y ++ '"' :: z ∧ Standard.Contents y ∧ rest = Utf8.encode z := by
        rintro hlow hquote hslash ⟨n', v', h⟩
        obtain ⟨y, z, rfl, hy, rfl⟩ := ih _ (Nat.lt_succ_self _) h rfl
        exact ⟨c :: y, z, rfl, .cons (.plain hlow hquote hslash) hy, rfl⟩
      by_cases hc : 0x80 ≤ c.toNat
      · have hne : ∀ {d : Char}, d.toNat < 0x80 → c ≠ d := by
          rintro d hd rfl
          omega
        rw [Utf8.encode_cons] at h
        exact hplain (by omega) (hne (by decide)) (hne (by decide))
          (exists_of_body_append ((Utf8.spells_char c).le hc) h)
      · have hbyte := Utf8.toNat_ofNat_of_lt (Nat.lt_of_not_le hc)
        rw [Utf8.encode_cons, Utf8.char_of_lt (Nat.lt_of_not_le hc), List.singleton_append] at h
        rcases body_cons_cases h with ⟨hb, rfl⟩ | ⟨hb, first, l, n', others, hescape, hothers⟩ |
          ⟨hquote, hslash, hlow, hothers⟩
        · rw [hb] at hbyte
          obtain rfl : c = '"' := Char.toNat_inj.1 hbyte.symm
          exact ⟨[], x, rfl, .nil, rfl⟩
        · rw [hb] at hbyte
          obtain rfl : c = '\\' := Char.toNat_inj.1 hbyte.symm
          obtain ⟨y, z, rfl, hy, rfl⟩ := exists_of_escape hescape
          have hshorter : z.length < ('\\' :: (y ++ z)).length := by
            rw [List.length_cons, List.length_append]
            omega
          obtain ⟨y', z, rfl, hy', rfl⟩ := ih _ hshorter hothers rfl
          exact ⟨'\\' :: y ++ y', z, by simp, hy.append hy', rfl⟩
        · refine hplain ?_ ?_ ?_ hothers
          · rw [UInt8.le_iff_toNat_le, hbyte] at hlow
            exact hlow
          · rintro rfl
            exact hquote rfl
          · rintro rfl
            exact hslash rfl

/-- A string that can be read has nothing but blanks behind its closing quote. -/
theorem exists_of_ofText {s : String} (h : ofText (String.ofList ('"' :: y)) = .ok s) :
    ∃ n v rest, body n (Utf8.encode y) = .ok (v, rest) ∧ skipBlanks rest = [] := by
  have hbytes : Utf8.bytes (String.ofList ('"' :: y)) = 0x22 :: Utf8.encode y :=
    Utf8.bytes_ofList _
  have hstart : skipBlanks (0x22 :: Utf8.encode y) = 0x22 :: Utf8.encode y := rfl
  unfold ofText at h
  simp only [hbytes, hstart] at h
  split at h
  · rename_i s' hresult
    obtain ⟨⟨t, l⟩, hread, hend⟩ := exists_of_bind_eq_ok hresult
    obtain ⟨⟨bytes, l'⟩, hbody, hread⟩ := exists_of_bind_eq_ok hread
    cases hread
    refine ⟨_, bytes, _, hbody, ?_⟩
    simp only at hend
    split at hend
    · exact List.isEmpty_iff.1 ‹_›
    · cases hend
  · cases h

/-- A text that begins and ends with a quote and can be read is a string of the standard. -/
theorem literal_of_ofText {s : String} (hfirst : x.head? = some '"') (hlast : x.getLast? = some '"')
    (h : ofText (String.ofList x) = .ok s) : Standard.Literal x := by
  obtain ⟨y, rfl⟩ : ∃ y, x = '"' :: y := by
    cases x with
    | nil => cases hfirst
    | cons c y =>
      cases hfirst
      exact ⟨y, rfl⟩
  obtain ⟨n, v, rest, hbody, hend⟩ := exists_of_ofText h
  obtain ⟨contents, z, rfl, hcontents, rfl⟩ := exists_of_body hbody
  -- behind the closing quote there is nothing: the text ends with a quote, which is no blank
  rcases List.eq_nil_or_concat z with rfl | ⟨z', e, rfl⟩
  · exact .mk hcontents
  · have hsplit : '"' :: (contents ++ '"' :: z'.concat e) =
        '"' :: (contents ++ '"' :: z') ++ [e] := by simp
    rw [hsplit, List.getLast?_concat] at hlast
    obtain rfl : e = '"' := Option.some.inj hlast
    have hquote : (0x22 : UInt8) ∈ Utf8.encode (z'.concat '"') := by
      rw [List.concat_eq_append, Utf8.encode_append]
      exact List.mem_append_right _ (List.mem_singleton.2 rfl)
    exact absurd (List.dropWhile_eq_nil_iff.1 hend 0x22 hquote) (by decide)

/-- So it is a word of the pattern of strings. -/
theorem matches_of_ofText {s : String} (hfirst : x.head? = some '"') (hlast : x.getLast? = some '"')
    (h : ofText (String.ofList x) = .ok s) : quoted.expr.Matches x := by
  obtain ⟨hy⟩ := literal_of_ofText hfirst hlast h
  exact .seq (x := ['"']) (.chars rfl) (.seq (matches_units_of_contents hy) (.chars rfl))

end StringLiteral

end StreamParser.Json
