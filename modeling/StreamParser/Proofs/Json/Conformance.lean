import StreamParser.Proofs.Json.Document

/-!
# What is read conforms to the standard

A text that can be read is a text of the standard syntax, but for its white space: where the
standard allows four characters, the grammar allows all of the white space that patterns know.

* `conforms_of_matches_numeral`: the words of the pattern of numbers are numbers of the standard.
* `conforms_text`: what is a text of a value or of a list is derived in the standard syntax, with
  the white space that patterns know.
* `parseText_conforms`: a text that was read is one of the standard, white space included, exactly
  if there is no other white space outside of its strings.
-/

namespace StreamParser.Json

open StreamParser.Expr Standard

/-! ### Numbers -/

theorem isDigit_of_contains {c : Char} (hc : digits.contains c.toNat = true) : IsDigit c := by
  obtain ⟨hlow, hhigh⟩ := CodePoints.contains_range_iff.1 hc
  exact ⟨UInt32.le_iff_toNat_le.2 hlow, UInt32.le_iff_toNat_le.2 hhigh⟩

theorem conforms_someDigits {x : List Char} (hx : (rep true 1 none (chars digits)).Matches x) :
    Digits x ∧ x ≠ [] := by
  obtain ⟨c, y, rfl, hc, hy⟩ := matches_someDigits hx
  refine ⟨List.forall_mem_cons.2 ⟨isDigit_of_contains hc, fun d hd => ?_⟩, List.cons_ne_nil c y⟩
  exact isDigit_of_contains (hy d hd)

theorem conforms_whole {x : List Char} (hx : whole.Matches x) : IntegerPart x := by
  rcases matches_alt hx with hx | hx
  · obtain ⟨c, rfl, hc⟩ := matches_chars hx
    rw [CodePoints.contains_single_iff.1 hc]
    exact .zero
  · obtain ⟨y, z, rfl, hy, hz⟩ := matches_seq hx
    obtain ⟨c, rfl, hc⟩ := matches_chars hy
    obtain ⟨hlow, hhigh⟩ := CodePoints.contains_range_iff.1 hc
    refine .digits (isDigit_of_contains (CodePoints.contains_range_iff.2 ⟨by omega, hhigh⟩)) ?_
      fun d hd => isDigit_of_contains (matches_digits hz d hd)
    rintro rfl
    exact absurd hlow (by decide)

theorem conforms_fraction {x : List Char} (hx : (rep true 0 (some 1) fraction).Matches x) :
    Fraction x := by
  rcases matches_optional hx with rfl | hx
  · exact .none
  · obtain ⟨y, z, rfl, hy, hz⟩ := matches_seq hx
    obtain ⟨c, rfl, hc⟩ := matches_chars hy
    obtain ⟨hz, hne⟩ := conforms_someDigits hz
    rw [CodePoints.contains_single_iff.1 hc]
    exact .some hz hne

/-- A set of two characters. -/
theorem eq_or_eq_of_contains {c d e : Char}
    (hc : CodePoints.contains ⟨[(d.toNat, d.toNat), (e.toNat, e.toNat)]⟩ c.toNat = true) :
    c = d ∨ c = e := by
  simp only [CodePoints.contains, List.any_cons, List.any_nil, Bool.or_false, Bool.or_eq_true,
    Bool.and_eq_true, decide_eq_true_eq] at hc
  rcases hc with hc | hc
  · exact .inl (Char.toNat_inj.1 (Nat.le_antisymm hc.2 hc.1))
  · exact .inr (Char.toNat_inj.1 (Nat.le_antisymm hc.2 hc.1))

theorem conforms_exponent {x : List Char} (hx : (rep true 0 (some 1) exponent).Matches x) :
    Exponent x := by
  rcases matches_optional hx with rfl | hx
  · exact .none
  · obtain ⟨y, z, rfl, hy, hz⟩ := matches_seq hx
    obtain ⟨c, rfl, hc⟩ := matches_chars hy
    obtain ⟨s, z, rfl, hs, hz⟩ := matches_seq hz
    obtain ⟨hz, hne⟩ := conforms_someDigits hz
    have hletter : c = 'E' ∨ c = 'e' := eq_or_eq_of_contains hc
    have hsign : s = [] ∨ s = ['+'] ∨ s = ['-'] := by
      rcases matches_optional hs with rfl | hs
      · exact .inl rfl
      · obtain ⟨d, rfl, hd⟩ := matches_chars hs
        rcases (eq_or_eq_of_contains hd : d = '+' ∨ d = '-') with rfl | rfl
        · exact .inr (.inl rfl)
        · exact .inr (.inr rfl)
    exact .some (s := s) (x := z) hletter.symm hsign hz hne

/-- The words of the pattern of numbers are numbers of the standard. -/
theorem conforms_of_matches_numeral {x : List Char} (hx : numeral.expr.Matches x) : Numeral x := by
  obtain ⟨m, y, rfl, hm, hy⟩ := matches_seq hx
  obtain ⟨w, z, rfl, hw, hz⟩ := matches_seq hy
  obtain ⟨f, e, rfl, hf, he⟩ := matches_seq hz
  refine .mk ?_ (conforms_whole hw) (conforms_fraction hf) (conforms_exponent he)
  rcases matches_optional hm with rfl | hm
  · exact .inl rfl
  · obtain ⟨c, rfl, hc⟩ := matches_chars hm
    exact .inr (by rw [CodePoints.contains_single_iff.1 hc])

/-! ### Texts -/

/-- The white space that patterns know. -/
def IsSpace (c : Char) : Prop := CodePoints.space.contains c.toNat = true

instance (c : Char) : Decidable (IsSpace c) := inferInstanceAs (Decidable (_ = _))

/-- A part of a text, and white space before it. -/
def Led (part : Part) (x : List Char) : Prop :=
  ∃ w y, x = w ++ y ∧ Json.IsBlank w ∧ Derives IsSpace part y

/-- How a text of the shape is derived.  White space before the first element of a list belongs to
the bracket that comes before. -/
def Conforms : Shape → List Char → Prop
  | .value _ => Led (.one .value)
  | .items true _ => Led (.list .value)
  | .items false _ => Derives IsSpace (.more .value)
  | .members true _ => Led (.list .member)
  | .members false _ => Derives IsSpace (.more .member)

theorem isBlank_nil : Json.IsBlank [] := fun _ hc => absurd hc List.not_mem_nil

theorem conforms_scalar {x : List Char} {v : Value} (hx : Scalar x v) :
    Derives IsSpace (.one .value) x := by
  cases hx with
  | null => exact .null
  | true => exact .true
  | false => exact .false
  | number hx _ => exact .number (conforms_of_matches_numeral hx)
  | string hx => exact .string (StringLiteral.literal_of_ofText hx.head_eq hx.last_eq hx.read_eq)

/-- The white space before the first element stands behind the opening bracket. -/
theorem Led.enclosed {e : Element} (w : List Char) {y w' : List Char} (c d : Char)
    (hy : Led (.list e) y) (hw' : Json.IsBlank w') :
    ∃ o x z, w ++ [c] ++ (y ++ (w' ++ [d])) = w ++ (o ++ x ++ z) ∧ Structural IsSpace c o ∧
      Derives IsSpace (.list e) x ∧ Structural IsSpace d z := by
  obtain ⟨v, x, rfl, hv, hx⟩ := hy
  refine ⟨[c] ++ v, x, w' ++ [d], by simp, ⟨[], v, by simp, isBlank_nil, hv⟩, hx,
    ⟨w', [], by simp, hw', isBlank_nil⟩⟩

/-- An element that begins a list, or comes behind a comma. -/
theorem conforms_element {e : Element} (first : Bool) {w y z : List Char} (hw : Json.IsBlank w)
    (hy : Led (.one e) y) (hz : Derives IsSpace (.more e) z) :
    if first then Led (.list e) (separator first w ++ y ++ z)
    else Derives IsSpace (.more e) (separator first w ++ y ++ z) := by
  obtain ⟨v, x, rfl, hv, hx⟩ := hy
  cases first with
  | true =>
    rw [if_pos rfl]
    exact ⟨v, x ++ z, by simp [separator], hv, .list hx hz⟩
  | false =>
    rw [if_neg Bool.false_ne_true]
    have hcomma : Structural IsSpace ',' (w ++ [','] ++ v) := ⟨w, v, rfl, hw, hv⟩
    have hmore := Derives.more hcomma hx hz
    simpa [separator] using hmore

/-- What is a text in one sense is a text in the other. -/
theorem conforms_text {shape : Shape} {x : List Char} (h : Text shape x) : Conforms shape x := by
  induction h with
  | scalar hw hx => exact ⟨_, _, rfl, hw, conforms_scalar hx⟩
  | array hw _ hw' ih =>
    obtain ⟨o, x, z, heq, ho, hx, hz⟩ := Led.enclosed _ '[' ']' ih hw'
    exact ⟨_, _, heq, hw, .array ho hx hz⟩
  | object hw _ _ hw' ih =>
    obtain ⟨o, x, z, heq, ho, hx, hz⟩ := Led.enclosed _ '\x7b' '\x7d' ih hw'
    exact ⟨_, _, heq, hw, .object ho hx hz⟩
  | @noItems first =>
    cases first with
    | true => exact ⟨[], [], rfl, isBlank_nil, .empty⟩
    | false => exact .enough
  | @item first w y z v l hw _ _ ihv ihl =>
    have h := conforms_element first hw ihv ihl
    cases first <;> exact h
  | @noMembers first =>
    cases first with
    | true => exact ⟨[], [], rfl, isBlank_nil, .empty⟩
    | false => exact .enough
  | @member first w w₁ x w₂ y z key v l hw hw₁ hx hw₂ _ _ ihv ihl =>
    obtain ⟨w₃, y', rfl, hw₃, hy'⟩ := ihv
    have hkey := StringLiteral.literal_of_ofText hx.head_eq hx.last_eq hx.read_eq
    have hcolon : Structural IsSpace ':' (w₂ ++ [':'] ++ w₃) := ⟨w₂, w₃, rfl, hw₂, hw₃⟩
    have hmember : Led (.one .member) (w₁ ++ x ++ (w₂ ++ [':']) ++ (w₃ ++ y')) :=
      ⟨w₁, x ++ (w₂ ++ [':'] ++ w₃) ++ y', by simp, hw₁, .member hkey hcolon hy'⟩
    have h := conforms_element first hw hmember ihl
    rw [← List.append_assoc] at h
    cases first <;> exact h

theorem isText_of_document {v : Value} {x : List Char} (h : Document v x) : IsText IsSpace x := by
  obtain ⟨y, w', rfl, hy, hw'⟩ := h
  obtain ⟨w, z, rfl, hw, hz⟩ := conforms_text hy
  exact ⟨w, z, w', rfl, hw, hz, hw'⟩

/-- White space cannot be seen. -/
theorem not_visible_of_isSpace (c : Char) (hc : IsSpace c) : ¬Visible c := by
  rintro ⟨hlow, hhigh⟩
  have hall : ∀ n < 0x7F, 0x21 ≤ n → CodePoints.space.contains n = false := by decide
  have hno := hall c.toNat (Nat.lt_succ_of_le hhigh) hlow
  exact Bool.false_ne_true (hno.symm.trans hc)

/-- **Only JSON is read.**  A text that can be read is a text of the standard syntax, whose white
space may be any that patterns know.  It is a text of the standard, white space included, if and
only if all the white space outside of its strings is white space of the standard. -/
theorem parseText_conforms {t : String} {v : Value} (h : parseText t = some (.ok v)) :
    IsText IsSpace t.toList ∧ (IsText Standard.IsBlank t.toList ↔
      ∀ c ∈ outside t.toList, IsSpace c → Standard.IsBlank c) := by
  obtain ⟨r, hr, hok⟩ := parseText_ends t
  rw [hr] at h
  have htext := isText_of_document (hok v (Option.some.inj h))
  exact ⟨htext, htext.iff_outside not_visible_of_isSpace (by decide)⟩

/-- The list of a truth value and the null value is a text of the standard. -/
theorem spacedList_conforms : parseText spacedList = some (.ok (.array [.boolean true, .null])) ∧
    IsText Standard.IsBlank spacedList.toList := by
  have hparse : parseText spacedList = some (.ok (.array [.boolean true, .null])) :=
    parseText_of_document (document_of_cut documentCut_spacedList)
  exact ⟨hparse, (parseText_conforms hparse).2.2 (Utf8.forall_of_all (by decide))⟩

/-- The null value behind a vertical tab. -/
def tabbedNull : String := "\x0Bnull"

/-- It is read, but in the standard a vertical tab is no white space. -/
theorem tabbedNull_is_read :
    parseText tabbedNull = some (.ok .null) ∧ ¬IsText Standard.IsBlank tabbedNull.toList := by
  have hblank : Json.IsBlank ['\x0B'] := List.forall_mem_singleton.2 (by decide)
  have hdocument : Document .null tabbedNull.toList :=
    ⟨tabbedNull.toList, [], rfl, .scalar hblank .null, isBlank_nil⟩
  refine ⟨parseText_of_document hdocument, fun hno => ?_⟩
  have hvisible : Restricts Standard.IsBlank Standard.IsBlank tabbedNull.toList
      (IsText Standard.IsBlank tabbedNull.toList) := hno.restricts (by decide)
  exact absurd (hvisible.visible '\x0B' (by decide)) (by decide)

end StreamParser.Json
