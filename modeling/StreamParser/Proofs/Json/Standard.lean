import StreamParser.Proofs.Text.Utf8

/-!
# The standard syntax of JSON

The grammar of JSON texts, as the standard states it, over any notion of white space.  It knows
nothing of patterns, and nothing of values.

* `Standard.Numeral` and `Standard.Literal`: numbers and strings.
* `Standard.Derives blank part x`: the characters `x` are a part of a text, if `blank` tells white
  space.  It stands around the structural characters, which are the brackets, the braces, the comma
  and the colon.
* `Standard.IsText blank x`: the characters are a text.
* `Standard.outside x`: the characters that are not within strings.

White space within a string belongs to the string.  `Standard.IsText.iff_outside` says that a text
is also one for another notion of white space if all its white space outside of strings is of that
kind.
-/

namespace StreamParser.Json.Standard

/-! ### Numbers -/

/-- A digit. -/
def IsDigit (c : Char) : Prop := '0' ≤ c ∧ c ≤ '9'

instance (c : Char) : Decidable (IsDigit c) := inferInstanceAs (Decidable (_ ∧ _))

theorem IsDigit.bounds {c : Char} (hc : IsDigit c) : 0x30 ≤ c.toNat ∧ c.toNat ≤ 0x39 :=
  ⟨UInt32.le_iff_toNat_le.1 hc.1, UInt32.le_iff_toNat_le.1 hc.2⟩

/-- Any number of digits. -/
def Digits (x : List Char) : Prop := ∀ c ∈ x, IsDigit c

instance (x : List Char) : Decidable (Digits x) := List.decidableBAll IsDigit x

/-- The integer part of a number: zero, or digits of which the first is not zero. -/
inductive IntegerPart : List Char → Prop
  | zero : IntegerPart ['0']
  | digits {c : Char} {x : List Char} (hc : IsDigit c) (hzero : c ≠ '0') (hx : Digits x) :
    IntegerPart (c :: x)

/-- A fraction, or none. -/
inductive Fraction : List Char → Prop
  | none : Fraction []
  | some {x : List Char} (hx : Digits x) (hne : x ≠ []) : Fraction ('.' :: x)

/-- An exponent, or none. -/
inductive Exponent : List Char → Prop
  | none : Exponent []
  | some {e : Char} {s x : List Char} (he : e = 'e' ∨ e = 'E') (hs : s = [] ∨ s = ['+'] ∨ s = ['-'])
    (hx : Digits x) (hne : x ≠ []) : Exponent (e :: (s ++ x))

/-- A number. -/
inductive Numeral : List Char → Prop
  | mk {m w f e : List Char} (hm : m = [] ∨ m = ['-']) (hw : IntegerPart w) (hf : Fraction f)
    (he : Exponent e) : Numeral (m ++ (w ++ (f ++ e)))

/-- The integer part is made of digits, of which there is a first one. -/
theorem IntegerPart.exists_head {w : List Char} (hw : IntegerPart w) :
    Digits w ∧ ∃ c z, w = c :: z ∧ IsDigit c := by
  cases hw with
  | zero => exact ⟨List.forall_mem_singleton.2 (by decide), '0', [], rfl, by decide⟩
  | @digits c z hc _ hz => exact ⟨List.forall_mem_cons.2 ⟨hc, hz⟩, c, z, rfl, hc⟩

/-! ### Strings -/

/-- A digit in base sixteen. -/
def IsHex (c : Char) : Prop := IsDigit c ∨ ('a' ≤ c ∧ c ≤ 'f') ∨ ('A' ≤ c ∧ c ≤ 'F')

instance (c : Char) : Decidable (IsHex c) := inferInstanceAs (Decidable (_ ∨ _))

/-- A character of a string, as it is written. -/
inductive StringChar : List Char → Prop
  | plain {c : Char} (hlow : 0x20 ≤ c.toNat) (hquote : c ≠ '"') (hslash : c ≠ '\\') : StringChar [c]
  | escape {c : Char} (hc : c ∈ ['"', '\\', '/', 'b', 'f', 'n', 'r', 't']) : StringChar ['\\', c]
  | unicode {a b c d : Char} (ha : IsHex a) (hb : IsHex b) (hc : IsHex c) (hd : IsHex d) :
    StringChar ['\\', 'u', a, b, c, d]

/-- What stands between the quotes of a string. -/
inductive Contents : List Char → Prop
  | nil : Contents []
  | cons {x y : List Char} (hx : StringChar x) (hy : Contents y) : Contents (x ++ y)

/-- A string with its quotes. -/
inductive Literal : List Char → Prop
  | mk {y : List Char} (hy : Contents y) : Literal ('"' :: (y ++ ['"']))

theorem Contents.append {x y : List Char} (hx : Contents x) (hy : Contents y) :
    Contents (x ++ y) := by
  induction hx with
  | nil => exact hy
  | cons hz _ ih =>
    rw [List.append_assoc]
    exact .cons hz ih

/-! ### Texts -/

/-- White space of the standard. -/
def IsBlank (c : Char) : Prop := c = ' ' ∨ c = '\t' ∨ c = '\n' ∨ c = '\r'

instance (c : Char) : Decidable (IsBlank c) := inferInstanceAs (Decidable (_ ∨ _))

/-- A structural character, and white space around it. -/
def Structural (blank : Char → Prop) (c : Char) (x : List Char) : Prop :=
  ∃ w w', x = w ++ [c] ++ w' ∧ (∀ d ∈ w, blank d) ∧ ∀ d ∈ w', blank d

/-- What an array or an object is made of. -/
inductive Element
  | value
  | member

/-- The parts of a text: an element, the elements between two brackets, or those behind the first,
each of which has a comma before it. -/
inductive Part
  | one (e : Element)
  | list (e : Element)
  | more (e : Element)

/-- The characters are a part of a text. -/
inductive Derives (blank : Char → Prop) : Part → List Char → Prop
  | null : Derives blank (.one .value) "null".toList
  | true : Derives blank (.one .value) "true".toList
  | false : Derives blank (.one .value) "false".toList
  | number {x : List Char} (hx : Numeral x) : Derives blank (.one .value) x
  | string {x : List Char} (hx : Literal x) : Derives blank (.one .value) x
  | array {o x c : List Char} (ho : Structural blank '[' o) (hx : Derives blank (.list .value) x)
    (hc : Structural blank ']' c) : Derives blank (.one .value) (o ++ x ++ c)
  | object {o x c : List Char} (ho : Structural blank '\x7b' o)
    (hx : Derives blank (.list .member) x) (hc : Structural blank '\x7d' c) :
    Derives blank (.one .value) (o ++ x ++ c)
  | member {x s y : List Char} (hx : Literal x) (hs : Structural blank ':' s)
    (hy : Derives blank (.one .value) y) : Derives blank (.one .member) (x ++ s ++ y)
  | empty {e : Element} : Derives blank (.list e) []
  | list {e : Element} {x y : List Char} (hx : Derives blank (.one e) x)
    (hy : Derives blank (.more e) y) : Derives blank (.list e) (x ++ y)
  | enough {e : Element} : Derives blank (.more e) []
  | more {e : Element} {s x y : List Char} (hs : Structural blank ',' s)
    (hx : Derives blank (.one e) x) (hy : Derives blank (.more e) y) :
    Derives blank (.more e) (s ++ x ++ y)

/-- The characters are a value with white space around it. -/
def IsText (blank : Char → Prop) (x : List Char) : Prop :=
  ∃ w y w', x = w ++ y ++ w' ∧ (∀ d ∈ w, blank d) ∧ Derives blank (.one .value) y ∧
    ∀ d ∈ w', blank d

/-! ### Outside of strings -/

/-- Where a character stands. -/
inductive Place
  /-- Between the strings. -/
  | between
  /-- Within a string. -/
  | within
  /-- Behind a backslash, within a string. -/
  | escaped
  deriving DecidableEq

/-- The place behind a character. -/
def Place.next : Place → Char → Place
  | between, c => if c = '"' then within else between
  | within, c => if c = '"' then between else if c = '\\' then escaped else within
  | escaped, _ => within

/-- The characters that are not within strings, where the first one stands at the place. -/
def outsideFrom : Place → List Char → List Char
  | _, [] => []
  | place, c :: x =>
    if place = .between then c :: outsideFrom (place.next c) x else outsideFrom (place.next c) x

/-- The characters that are not within strings. -/
def outside (x : List Char) : List Char := outsideFrom .between x

/-- Behind the characters one is between strings again. -/
def Settled (x : List Char) : Prop := ∀ z, outside (x ++ z) = outside x ++ outside z

theorem outside_of_quoteless {x : List Char} (hx : ∀ c ∈ x, c ≠ '"') (z : List Char) :
    outside (x ++ z) = x ++ outside z := by
  induction x with
  | nil => rfl
  | cons c x ih =>
    obtain ⟨hc, hx⟩ := List.forall_mem_cons.1 hx
    have hnext : Place.between.next c = .between := if_neg hc
    show c :: outsideFrom (Place.between.next c) (x ++ z) = _
    rw [hnext]
    exact congrArg (c :: ·) (ih hx)

/-- A character of a string is passed, and one is still within the string. -/
theorem StringChar.outsideFrom_append {x : List Char} (hx : StringChar x) (z : List Char) :
    outsideFrom .within (x ++ z) = outsideFrom .within z := by
  have hhex : ∀ c, IsHex c → c ≠ '"' ∧ c ≠ '\\' := by
    intro c hc
    constructor <;> rintro rfl <;> exact absurd hc (by decide)
  have hplain : ∀ {c : Char}, c ≠ '"' ∧ c ≠ '\\' → ∀ z, outsideFrom .within (c :: z) =
      outsideFrom .within z := by
    rintro c ⟨hquote, hslash⟩ z
    have hnext : Place.within.next c = .within := by
      unfold Place.next
      simp only [if_neg hquote, if_neg hslash]
    rw [outsideFrom, if_neg nofun, hnext]
  cases hx with
  | plain _ hquote hslash => exact hplain ⟨hquote, hslash⟩ z
  | escape _ => rfl
  | unicode ha hb hc hd =>
    show outsideFrom .within (_ :: _ :: _ :: _ :: z) = _
    rw [hplain (hhex _ ha), hplain (hhex _ hb), hplain (hhex _ hc), hplain (hhex _ hd)]

theorem Contents.outsideFrom_append {x : List Char} (hx : Contents x) (z : List Char) :
    outsideFrom .within (x ++ z) = outsideFrom .within z := by
  induction hx with
  | nil => rfl
  | cons hx _ ih => rw [List.append_assoc, hx.outsideFrom_append, ih]

/-- Of a string the opening quote is left. -/
theorem Literal.outside_append {x : List Char} (hx : Literal x) (z : List Char) :
    outside (x ++ z) = '"' :: outside z := by
  obtain ⟨hy⟩ := hx
  rw [List.cons_append, List.append_assoc]
  show '"' :: outsideFrom .within _ = _
  rw [hy.outsideFrom_append]
  rfl

/-! ### Other white space -/

/-- The character is seen. -/
def Visible (c : Char) : Prop := 0x21 ≤ c.toNat ∧ c.toNat ≤ 0x7E

instance (c : Char) : Decidable (Visible c) := inferInstanceAs (Decidable (_ ∧ _))

/-- The characters `x` leave one between strings, what is outside of their strings is white space or
can be seen, and if all this white space is of another kind, then `P`. -/
structure Restricts (blank other : Char → Prop) (x : List Char) (P : Prop) : Prop where
  settled : Settled x
  visible : ∀ c ∈ outside x, blank c ∨ Visible c
  restrict : (∀ c ∈ outside x, blank c → other c) → P

section Restricts

variable {blank other : Char → Prop} {x y : List Char} {P Q : Prop}

theorem Restricts.imp (h : Restricts blank other x P) (hPQ : P → Q) : Restricts blank other x Q :=
  ⟨h.settled, h.visible, fun hx => hPQ (h.restrict hx)⟩

theorem Restricts.append (hx : Restricts blank other x P) (hy : Restricts blank other y Q) :
    Restricts blank other (x ++ y) (P ∧ Q) where
  settled z := by
    rw [List.append_assoc, hx.settled, hy.settled, hx.settled, List.append_assoc]
  visible c hc := by
    rw [hx.settled] at hc
    rcases List.mem_append.1 hc with hc | hc
    · exact hx.visible c hc
    · exact hy.visible c hc
  restrict h := by
    rw [hx.settled] at h
    exact ⟨hx.restrict fun c hc => h c (List.mem_append_left _ hc),
      hy.restrict fun c hc => h c (List.mem_append_right _ hc)⟩

theorem outside_eq_of_append (h : ∀ z, outside (x ++ z) = y ++ outside z) : outside x = y := by
  have hnil := h []
  rwa [List.append_nil, show outside [] = [] from rfl, List.append_nil] at hnil

/-- What has no quotes is outside of strings. -/
theorem restricts_quoteless (hquote : ∀ c ∈ x, c ≠ '"') (hx : ∀ c ∈ x, blank c ∨ Visible c)
    (hP : (∀ c ∈ x, blank c → other c) → P) : Restricts blank other x P := by
  have houtside : outside x = x := outside_eq_of_append (outside_of_quoteless hquote)
  exact ⟨fun z => by rw [outside_of_quoteless hquote, houtside], by rwa [houtside],
    by rwa [houtside]⟩

theorem restricts_visible (hx : ∀ c ∈ x, Visible c ∧ c ≠ '"') (hP : P) :
    Restricts blank other x P :=
  restricts_quoteless (fun c hc => (hx c hc).2) (fun c hc => .inr (hx c hc).1) fun _ => hP

theorem restricts_literal (hx : Literal x) : Restricts blank other x (Literal x) := by
  have houtside : outside x = ['"'] := outside_eq_of_append hx.outside_append
  refine ⟨fun z => by rw [hx.outside_append, houtside]; rfl, ?_, fun _ => hx⟩
  rw [houtside]
  exact List.forall_mem_singleton.2 (.inr (by decide))

theorem restricts_blanks (hblank : ¬blank '"') (hx : ∀ c ∈ x, blank c) :
    Restricts blank other x (∀ c ∈ x, other c) := by
  refine restricts_quoteless ?_ (fun c hc => .inl (hx c hc)) fun h c hc => h c hc (hx c hc)
  rintro c hc rfl
  exact hblank (hx '"' hc)

theorem restricts_structural (hblank : ¬blank '"') {c : Char} (hc : Visible c ∧ c ≠ '"')
    (hx : Structural blank c x) : Restricts blank other x (Structural other c x) := by
  obtain ⟨w, w', rfl, hw, hw'⟩ := hx
  have hsign : Restricts blank other [c] True :=
    restricts_visible (List.forall_mem_singleton.2 hc) trivial
  refine (((restricts_blanks hblank hw).append hsign).append (restricts_blanks hblank hw')).imp ?_
  rintro ⟨⟨hw, -⟩, hw'⟩
  exact ⟨w, w', rfl, hw, hw'⟩

theorem visible_of_isDigit {c : Char} (hc : IsDigit c) : Visible c ∧ c ≠ '"' := by
  obtain ⟨hlow, hhigh⟩ := hc.bounds
  refine ⟨⟨by omega, by omega⟩, ?_⟩
  rintro rfl
  exact absurd hlow (by decide)

/-- The characters of a number can be seen. -/
theorem Numeral.visible (hx : Numeral x) : ∀ c ∈ x, Visible c ∧ c ≠ '"' := by
  have hdigits : ∀ {x : List Char}, Digits x → ∀ c ∈ x, Visible c ∧ c ≠ '"' :=
    fun hx c hc => visible_of_isDigit (hx c hc)
  have hcharacter : ∀ {c : Char}, c ∈ ['-', '+', '.', 'e', 'E', '0'] → Visible c ∧ c ≠ '"' := by
    intro c hc
    simp only [List.mem_cons, List.not_mem_nil, or_false] at hc
    rcases hc with rfl | rfl | rfl | rfl | rfl | rfl <;> decide
  obtain ⟨hm, hw, hf, he⟩ := hx
  intro c hc
  rcases List.mem_append.1 hc with hc | hc
  · rcases hm with rfl | rfl
    · exact absurd hc List.not_mem_nil
    · exact hcharacter (by rw [List.mem_singleton.1 hc]; decide)
  rcases List.mem_append.1 hc with hc | hc
  · cases hw with
    | zero => exact hcharacter (by rw [List.mem_singleton.1 hc]; decide)
    | digits hfirst _ hx =>
      rcases List.mem_cons.1 hc with rfl | hc
      · exact visible_of_isDigit hfirst
      · exact hdigits hx c hc
  rcases List.mem_append.1 hc with hc | hc
  · cases hf with
    | none => exact absurd hc List.not_mem_nil
    | some hx _ =>
      rcases List.mem_cons.1 hc with rfl | hc
      · exact hcharacter (by decide)
      · exact hdigits hx c hc
  · cases he with
    | none => exact absurd hc List.not_mem_nil
    | some hletter hs hx _ =>
      rcases List.mem_cons.1 hc with rfl | hc
      · rcases hletter with rfl | rfl <;> exact hcharacter (by decide)
      rcases List.mem_append.1 hc with hc | hc
      · rcases hs with rfl | rfl | rfl
        · exact absurd hc List.not_mem_nil
        · exact hcharacter (by rw [List.mem_singleton.1 hc]; decide)
        · exact hcharacter (by rw [List.mem_singleton.1 hc]; decide)
      · exact hdigits hx c hc

/-- A part of a text is one with other white space, if there is no more outside of strings. -/
theorem Derives.restricts (hblank : ¬blank '"') {part : Part} (hx : Derives blank part x) :
    Restricts blank other x (Derives other part x) := by
  have hnil : ∀ {P : Prop}, P → Restricts blank other [] P :=
    fun hP => restricts_visible (fun c hc => absurd hc List.not_mem_nil) hP
  have hsign : ∀ {c : Char} {x : List Char}, Visible c ∧ c ≠ '"' → Structural blank c x →
      Restricts blank other x (Structural other c x) := fun hc => restricts_structural hblank hc
  induction hx with
  | null => exact restricts_visible (Utf8.forall_of_all (by decide)) .null
  | true => exact restricts_visible (Utf8.forall_of_all (by decide)) .true
  | false => exact restricts_visible (Utf8.forall_of_all (by decide)) .false
  | number hx => exact restricts_visible hx.visible (.number hx)
  | string hx => exact (restricts_literal hx).imp .string
  | array ho _ hc ih =>
    have ho := hsign (by decide) ho
    have hc := hsign (by decide) hc
    exact ((ho.append ih).append hc).imp fun ⟨⟨ho, hx⟩, hc⟩ => .array ho hx hc
  | object ho _ hc ih =>
    have ho := hsign (by decide) ho
    have hc := hsign (by decide) hc
    exact ((ho.append ih).append hc).imp fun ⟨⟨ho, hx⟩, hc⟩ => .object ho hx hc
  | member hx hs _ ih =>
    have hs := hsign (by decide) hs
    exact (((restricts_literal hx).append hs).append ih).imp fun ⟨⟨hx, hs⟩, hy⟩ => .member hx hs hy
  | empty => exact hnil .empty
  | list _ _ ihx ihy => exact (ihx.append ihy).imp fun ⟨hx, hy⟩ => .list hx hy
  | enough => exact hnil .enough
  | more hs _ _ ihx ihy =>
    have hs := hsign (by decide) hs
    exact ((hs.append ihx).append ihy).imp fun ⟨⟨hs, hx⟩, hy⟩ => .more hs hx hy

theorem IsText.restricts (hblank : ¬blank '"') (hx : IsText blank x) :
    Restricts blank other x (IsText other x) := by
  obtain ⟨w, y, w', rfl, hw, hy, hw'⟩ := hx
  exact (((restricts_blanks hblank hw).append (hy.restricts hblank)).append
    (restricts_blanks hblank hw')).imp fun ⟨⟨hw, hy⟩, hw'⟩ => ⟨w, y, w', rfl, hw, hy, hw'⟩

/-- If white space cannot be seen, a text is one with other white space exactly if there is no more
outside of strings. -/
theorem IsText.iff_outside (hunseen : ∀ c, blank c → ¬Visible c) (hquote : ¬other '"')
    (hx : IsText blank x) : IsText other x ↔ ∀ c ∈ outside x, blank c → other c := by
  have hblank : ¬blank '"' := fun h => hunseen '"' h (by decide)
  constructor
  · intro hx' c hc hspace
    have hvisible : Restricts other other x (IsText other x) := hx'.restricts hquote
    rcases hvisible.visible c hc with hc | hc
    · exact hc
    · exact absurd hc (hunseen c hspace)
  · exact (hx.restricts hblank).restrict

end Restricts

end StreamParser.Json.Standard
