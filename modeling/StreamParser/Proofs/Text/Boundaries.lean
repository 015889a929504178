import StreamParser.Proofs.Text.Utf8

/-!
# Where characters begin

Bytes that can be decoded are the encoding of what they are decoded to (`Utf8.encode_of_chars?`).  So a
part of the bytes of a text that can be decoded, and begins where a character begins, ends where one
begins: `Utf8.exists_of_encode_eq_append`.

`Utf8.IsText l` says that the bytes are those of some text.
-/

namespace StreamParser.Utf8

/-! ### Texts and their bytes -/

@[simp] theorem bytes_append (s t : String) : bytes (s ++ t) = bytes s ++ bytes t := by
  rw [bytes_eq_encode, bytes_eq_encode, bytes_eq_encode, String.toList_append, encode_append]

/-- The bytes of texts put together. -/
theorem bytes_join (l : List String) : bytes (String.join l) = l.flatMap bytes := by
  induction l with
  | nil => rfl
  | cons t l ih =>
    have hjoin : (String.join (t :: l)).toList = t.toList ++ (String.join l).toList := by
      simp [String.toList_join]
    rw [List.flatMap_cons, ← ih, bytes_eq_encode, hjoin, encode_append]
    rfl

theorem text?_bytes (t : String) : text? (bytes t) = some t := by
  rw [bytes_eq_encode, text?_encode, String.ofList_toList]

/-- Bytes that can be decoded are those of nothing at all, or those of a character before others that
can be decoded. -/
theorem chars?_cases {pending : Option Lead} {l : List UInt8} {x : List Char}
    (h : chars? pending l = some x) :
    (pending = none ∧ l = [] ∧ x = []) ∨
      ∃ c y l₁ l₂, x = c :: y ∧ l = l₁ ++ l₂ ∧ Spells pending l₁ c ∧ chars? none l₂ = some y := by
  induction l generalizing pending with
  | nil =>
    cases pending with
    | none =>
      cases h
      exact .inl ⟨rfl, rfl, rfl⟩
    | some lead => cases h
  | cons b l ih =>
    rw [chars?_cons] at h
    cases hb : read pending b with
    | char c =>
      rw [hb] at h
      obtain ⟨y, hy, rfl⟩ := Option.map_eq_some_iff.1 h
      exact .inr ⟨c, y, [b], l, rfl, rfl, .last hb, hy⟩
    | lead lead =>
      rw [hb] at h
      obtain ⟨hno, -⟩ | ⟨c, y, l₁, l₂, rfl, rfl, hspells, hy⟩ := ih h
      · cases hno
      · exact .inr ⟨c, y, b :: l₁, l₂, rfl, rfl, hspells.cons hb, hy⟩
    | invalid =>
      rw [hb] at h
      cases h

/-- Bytes that can be decoded are the encoding of what they are decoded to. -/
theorem encode_of_chars? {l : List UInt8} {x : List Char} (h : chars? none l = some x) :
    encode x = l := by
  induction x generalizing l with
  | nil =>
    obtain ⟨-, rfl, -⟩ | ⟨c, y, l₁, l₂, hno, -⟩ := chars?_cases h
    · rfl
    · cases hno
  | cons c x ih =>
    obtain ⟨-, -, hno⟩ | ⟨c, y, l₁, l₂, hx, rfl, hspells, hy⟩ := chars?_cases h
    · cases hno
    · cases hx
      rw [encode_cons, ih hy, spells_none_iff.1 hspells]

theorem bytes_of_text? {l : List UInt8} {t : String} (h : text? l = some t) : bytes t = l := by
  obtain ⟨x, hx, rfl⟩ := Option.map_eq_some_iff.1 h
  rw [bytes_ofList, encode_of_chars? hx]

/-- If a text begins with the bytes of some characters, it begins with these characters. -/
theorem exists_of_encode_eq_append {x z : List Char} {l : List UInt8}
    (h : encode x = encode z ++ l) : ∃ y, x = z ++ y ∧ l = encode y := by
  have hx := chars?_encode x
  rw [h, chars?_append (chars?_encode z)] at hx
  obtain ⟨y, hy, rfl⟩ := Option.map_eq_some_iff.1 hx
  exact ⟨y, rfl, (encode_of_chars? hy).symm⟩

/-! ### Bytes of a text -/

/-- The bytes are those of a text. -/
def IsText (l : List UInt8) : Prop := ∃ t, text? l = some t

theorem isText_bytes (t : String) : IsText (bytes t) := ⟨t, text?_bytes t⟩

theorem isText_nil : IsText [] := isText_bytes ""

theorem IsText.append {l m : List UInt8} (h : IsText l) (h' : IsText m) : IsText (l ++ m) := by
  obtain ⟨s, hs⟩ := h
  obtain ⟨t, ht⟩ := h'
  rw [← bytes_of_text? hs, ← bytes_of_text? ht, ← bytes_append]
  exact isText_bytes _

end StreamParser.Utf8
