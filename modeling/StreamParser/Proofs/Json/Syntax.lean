import Mathlib.Data.String.Basic
import StreamParser.Json.Value
import StreamParser.Proofs.Json.StringLiteral

/-!
# The syntax of JSON

* `Scalar x v`: the lexeme `x` is the value `v`, which is neither an array nor an object.
* `Text shape x`: the characters `x` are a value, or the items of an array, or the members of an
  object.  White space may stand before every lexeme.
* `Document v x`: the characters are the value `v`, with white space around it.

A document is cut into pieces where a reader may forget what it has read (`Cut`, `DocumentCut`).  A
piece is an item of an array or a member of an object with all that stands before it, up to the end
of a scalar value or up to the opening bracket of another value; the opening bracket of the document
with the white space before it; a closing bracket with the white space before it; the white space
behind the last closing bracket; or a whole document that is a scalar.  `text_of_cut` and `exists_cut`
say that what can be cut is what is a text.
-/

namespace StreamParser.Json

open StreamParser.Expr

/-! ### Objects -/

/-- The members `m` are those of the list `l`, in the order of their keys.  Of several with the same
key the last one counts. -/
structure IsObjectOf (l m : List (String × Value)) : Prop where
  sorted : m.Pairwise fun a b => a.1 < b.1
  lookup_eq : ∀ k, m.lookup k = l.reverse.lookup k

namespace Value

variable {key k : String} {v : Value} {m l : List (String × Value)}

theorem lookup_cons (k : String) (a : String × Value) (m : List (String × Value)) :
    (a :: m).lookup k = if k = a.1 then some a.2 else m.lookup k := by
  obtain ⟨j, v⟩ := a
  by_cases hk : k = j
  · simp [hk]
  · rw [List.lookup_cons, beq_false_of_ne hk, if_neg hk]

theorem mem_insert {a : String × Value} (h : a ∈ insert key v m) : a = (key, v) ∨ a ∈ m := by
  induction m with
  | nil => exact .inl (List.mem_singleton.1 h)
  | cons b m ih =>
    obtain ⟨k, w⟩ := b
    unfold insert at h
    split at h
    · exact List.mem_cons.1 h
    · split at h
      · exact (List.mem_cons.1 h).imp id (List.mem_cons_of_mem _)
      · rcases List.mem_cons.1 h with h | h
        · exact .inr (h ▸ List.mem_cons_self)
        · exact (ih h).imp id (List.mem_cons_of_mem _)

/-- To put a member in its place keeps the order. -/
theorem sorted_insert (key : String) (v : Value) (h : m.Pairwise fun a b => a.1 < b.1) :
    (insert key v m).Pairwise fun a b => a.1 < b.1 := by
  induction m with
  | nil => exact List.pairwise_singleton _ _
  | cons b m ih =>
    obtain ⟨k, w⟩ := b
    obtain ⟨hb, hm⟩ := List.pairwise_cons.1 h
    unfold insert
    split
    · rename_i hlt
      exact List.pairwise_cons.2 ⟨List.forall_mem_cons.2 ⟨hlt, fun a ha => hlt.trans (hb a ha)⟩, h⟩
    · rename_i hnlt
      split
      · rename_i heq
        exact List.pairwise_cons.2 ⟨fun a ha => heq ▸ hb a ha, hm⟩
      · rename_i hne
        refine List.pairwise_cons.2 ⟨fun a ha => ?_, ih hm⟩
        rcases mem_insert ha with rfl | ha
        · exact lt_of_le_of_ne (not_lt.1 hnlt) (Ne.symm hne)
        · exact hb a ha

/-- It is found under its key, and what is found under other keys stays. -/
theorem lookup_insert (h : m.Pairwise fun a b => a.1 < b.1) :
    (insert key v m).lookup k = if k = key then some v else m.lookup k := by
  induction m with
  | nil => exact lookup_cons k (key, v) []
  | cons b m ih =>
    obtain ⟨j, w⟩ := b
    obtain ⟨hb, hm⟩ := List.pairwise_cons.1 h
    unfold insert
    split
    · exact lookup_cons k (key, v) _
    · split
      · rename_i heq
        subst heq
        rw [lookup_cons, lookup_cons]
        split <;> rfl
      · rename_i hne
        rw [lookup_cons, lookup_cons, ih hm]
        by_cases hj : k = j
        · subst hj
          rw [if_pos rfl, if_pos rfl, if_neg (Ne.symm hne)]
        · rw [if_neg hj, if_neg hj]

theorem foldl_insert (h : m.Pairwise fun a b => a.1 < b.1) (l : List (String × Value)) :
    (l.foldl (fun m a => insert a.1 a.2 m) m).Pairwise (fun a b => a.1 < b.1) ∧
      ∀ k, (l.foldl (fun m a => insert a.1 a.2 m) m).lookup k =
        (l.reverse.lookup k).or (m.lookup k) := by
  induction l generalizing m with
  | nil => exact ⟨h, fun k => rfl⟩
  | cons a l ih =>
    obtain ⟨hsorted, hlookup⟩ := ih (sorted_insert a.1 a.2 h)
    refine ⟨hsorted, fun k => ?_⟩
    rw [List.foldl_cons, hlookup, lookup_insert h, List.reverse_cons, List.lookup_append,
      Option.or_assoc, lookup_cons]
    split <;> rfl

/-- Nothing is found under a key before all others. -/
theorem lookup_eq_none_of_lt (h : ∀ a ∈ m, k < a.1) : m.lookup k = none := by
  refine List.lookup_eq_none_iff.2 fun a ha => ?_
  exact bne_iff_ne.2 (ne_of_lt (h a ha))

/-- An ordered list is known by what is found in it. -/
theorem eq_of_lookup_eq (h : m.Pairwise fun a b => a.1 < b.1) (h' : l.Pairwise fun a b => a.1 < b.1)
    (hlookup : ∀ k, m.lookup k = l.lookup k) : m = l := by
  induction m generalizing l with
  | nil =>
    cases l with
    | nil => rfl
    | cons b l =>
      have := hlookup b.1
      rw [lookup_cons, if_pos rfl] at this
      cases this
  | cons a m ih =>
    obtain ⟨ha, hm⟩ := List.pairwise_cons.1 h
    cases l with
    | nil =>
      have := hlookup a.1
      rw [lookup_cons, if_pos rfl] at this
      cases this
    | cons b l =>
      obtain ⟨hb, hl⟩ := List.pairwise_cons.1 h'
      -- each list has the first key of the other
      have hkeys : a.1 = b.1 := by
        rcases lt_trichotomy a.1 b.1 with hlt | heq | hlt
        · have hnone := lookup_eq_none_of_lt (k := a.1) (m := b :: l)
            (List.forall_mem_cons.2 ⟨hlt, fun c hc => hlt.trans (hb c hc)⟩)
          rw [← hlookup, lookup_cons, if_pos rfl] at hnone
          cases hnone
        · exact heq
        · have hnone := lookup_eq_none_of_lt (k := b.1) (m := a :: m)
            (List.forall_mem_cons.2 ⟨hlt, fun c hc => hlt.trans (ha c hc)⟩)
          rw [hlookup, lookup_cons, if_pos rfl] at hnone
          cases hnone
      have hvalues := hlookup a.1
      rw [lookup_cons, lookup_cons, if_pos rfl, if_pos hkeys] at hvalues
      have htails : m = l := ih hm hl fun k => by
        by_cases hk : k = a.1
        · rw [lookup_eq_none_of_lt (hk ▸ ha), lookup_eq_none_of_lt (hk ▸ hkeys ▸ hb)]
        · have := hlookup k
          rwa [lookup_cons, lookup_cons, if_neg hk, if_neg (hkeys ▸ hk)] at this
      rw [htails, Prod.ext hkeys (Option.some.inj hvalues)]

/-- The object with some members has exactly those that count. -/
theorem ofMembers_eq_iff {l m : List (String × Value)} :
    ofMembers l = .object m ↔ IsObjectOf l m := by
  obtain ⟨hsorted, hlookup⟩ := foldl_insert (m := []) List.Pairwise.nil l
  have hlookup : ∀ k, (l.foldl (fun m a => insert a.1 a.2 m) []).lookup k = l.reverse.lookup k :=
    fun k => by rw [hlookup, List.lookup_nil, Option.or_none]
  constructor
  · intro h
    obtain rfl : l.foldl (fun m a => insert a.1 a.2 m) [] = m := object.inj h
    exact ⟨hsorted, hlookup⟩
  · intro h
    exact congrArg object (eq_of_lookup_eq hsorted h.sorted fun k =>
      (hlookup k).trans (h.lookup_eq k).symm)

/-- The value is an array or an object. -/
def isEnclosed : Value → Bool
  | array _ => true
  | object _ => true
  | _ => false

end Value

/-! ### Lexemes with values -/

/-- The lexeme of a string: it begins and ends with a quote, and stands for `s`. -/
structure IsString (x : List Char) (s : String) : Prop where
  head_eq : x.head? = some '"'
  last_eq : x.getLast? = some '"'
  read_eq : StringLiteral.ofText (String.ofList x) = .ok s

theorem IsString.matches_quoted {x : List Char} {s : String} (h : IsString x s) :
    quoted.expr.Matches x :=
  StringLiteral.matches_of_ofText h.head_eq h.last_eq h.read_eq

theorem IsString.head?_encode {x : List Char} {s : String} (h : IsString x s) :
    (Utf8.encode x).head? = some 0x22 := by
  have hhead := h.head_eq
  cases x with
  | nil => cases hhead
  | cons c x =>
    cases hhead
    rfl

/-- The lexeme of a value that is neither an array nor an object. -/
inductive Scalar : List Char → Value → Prop
  | null : Scalar "null".toList .null
  | true : Scalar "true".toList (.boolean true)
  | false : Scalar "false".toList (.boolean false)
  | number {x : List Char} {n : Number} (hx : numeral.expr.Matches x)
    (hn : Number.ofText (String.ofList x) = .ok n) : Scalar x (.number n)
  | string {x : List Char} {s : String} (hx : IsString x s) : Scalar x (.string s)

theorem Scalar.ne_nil {x : List Char} {v : Value} (h : Scalar x v) : x ≠ [] := by
  rintro rfl
  generalize hx : ([] : List Char) = x at h
  cases h with
  | number h hn =>
    subst hx
    obtain ⟨b, hb, -⟩ := head?_of_matches_numeral h
    cases hb
  | string h =>
    subst hx
    cases h.head_eq
  | _ => cases hx

/-! ### Texts -/

/-- What a text may stand for: a value, or items of an array or members of an object, of which those
behind the first have a comma before them. -/
inductive Shape
  | value (v : Value)
  | items (first : Bool) (l : List Value)
  | members (first : Bool) (l : List (String × Value))

/-- What separates an item or a member from the one before it. -/
def separator (first : Bool) (blank : List Char) : List Char :=
  if first then [] else blank ++ [',']

/-- The characters are a text of the shape. -/
inductive Text : Shape → List Char → Prop
  | scalar {w x : List Char} {v : Value} (hw : IsBlank w) (hx : Scalar x v) :
    Text (.value v) (w ++ x)
  | array {w y w' : List Char} {l : List Value} (hw : IsBlank w) (hl : Text (.items true l) y)
    (hw' : IsBlank w') : Text (.value (.array l)) (w ++ ['['] ++ (y ++ (w' ++ [']'])))
  | object {w y w' : List Char} {l m : List (String × Value)} (hw : IsBlank w)
    (hl : Text (.members true l) y) (hm : IsObjectOf l m) (hw' : IsBlank w') :
    Text (.value (.object m)) (w ++ ['\x7b'] ++ (y ++ (w' ++ ['\x7d'])))
  | noItems {first : Bool} : Text (.items first []) []
  | item {first : Bool} {w y z : List Char} {v : Value} {l : List Value} (hw : IsBlank w)
    (hv : Text (.value v) y) (hl : Text (.items false l) z) :
    Text (.items first (v :: l)) (separator first w ++ y ++ z)
  | noMembers {first : Bool} : Text (.members first []) []
  | member {first : Bool} {w w₁ x w₂ y z : List Char} {key : String} {v : Value}
    {l : List (String × Value)} (hw : IsBlank w) (hw₁ : IsBlank w₁) (hx : IsString x key)
    (hw₂ : IsBlank w₂) (hv : Text (.value v) y) (hl : Text (.members false l) z) :
    Text (.members first ((key, v) :: l))
      (separator first w ++ (w₁ ++ x ++ (w₂ ++ [':'])) ++ y ++ z)

/-- The characters are a value with white space around it. -/
def Document (v : Value) (x : List Char) : Prop :=
  ∃ y w, x = y ++ w ∧ Text (.value v) y ∧ IsBlank w

/-! ### Pieces -/

/-- The first piece is put behind `x`. -/
def putBehind (x : List Char) : List (List Char) → List (List Char)
  | [] => [x]
  | piece :: pieces => (x ++ piece) :: pieces

/-- The pieces are those of a text of the shape. -/
inductive Cut : Shape → List (List Char) → Prop
  | scalar {w x : List Char} {v : Value} (hw : IsBlank w) (hx : Scalar x v) :
    Cut (.value v) [w ++ x]
  | array {w w' : List Char} {l : List Value} {pieces : List (List Char)} (hw : IsBlank w)
    (hl : Cut (.items true l) pieces) (hw' : IsBlank w') :
    Cut (.value (.array l)) ((w ++ ['[']) :: (pieces ++ [w' ++ [']']]))
  | object {w w' : List Char} {l m : List (String × Value)} {pieces : List (List Char)}
    (hw : IsBlank w) (hl : Cut (.members true l) pieces) (hm : IsObjectOf l m)
    (hw' : IsBlank w') :
    Cut (.value (.object m)) ((w ++ ['\x7b']) :: (pieces ++ [w' ++ ['\x7d']]))
  | noItems {first : Bool} : Cut (.items first []) []
  | item {first : Bool} {w : List Char} {v : Value} {l : List Value}
    {pieces pieces' : List (List Char)} (hw : IsBlank w) (hv : Cut (.value v) pieces)
    (hl : Cut (.items false l) pieces') :
    Cut (.items first (v :: l)) (putBehind (separator first w) pieces ++ pieces')
  | noMembers {first : Bool} : Cut (.members first []) []
  | member {first : Bool} {w w₁ w₂ x : List Char} {key : String} {v : Value}
    {l : List (String × Value)} {pieces pieces' : List (List Char)} (hw : IsBlank w)
    (hw₁ : IsBlank w₁) (hx : IsString x key) (hw₂ : IsBlank w₂) (hv : Cut (.value v) pieces)
    (hl : Cut (.members false l) pieces') :
    Cut (.members first ((key, v) :: l))
      (putBehind (separator first w ++ (w₁ ++ x ++ (w₂ ++ [':']))) pieces ++ pieces')

/-- The pieces are those of a document of the value.  A scalar is one piece with the white space
around it. -/
inductive DocumentCut : Value → List (List Char) → Prop
  | scalar {w x w' : List Char} {v : Value} (hw : IsBlank w) (hx : Scalar x v) (hw' : IsBlank w') :
    DocumentCut v [w ++ x ++ w']
  | enclosed {w' : List Char} {v : Value} {pieces : List (List Char)}
    (hv : Cut (.value v) pieces) (henclosed : v.isEnclosed = true) (hw' : IsBlank w') :
    DocumentCut v (pieces ++ [w'])

section Cut

variable {shape : Shape} {v : Value} {x : List Char} {pieces : List (List Char)}

theorem putBehind_eq (x : List Char) (pieces : List (List Char)) :
    putBehind x pieces = (x ++ pieces.headD []) :: pieces.tail := by
  cases pieces with
  | nil => simp [putBehind]
  | cons piece pieces => rfl

theorem putBehind_append (x y : List Char) (pieces : List (List Char)) :
    putBehind (x ++ y) pieces = putBehind x (putBehind y pieces) := by
  simp only [putBehind_eq, List.headD_cons, List.tail_cons, List.append_assoc]

theorem flatten_putBehind (x : List Char) (pieces : List (List Char)) :
    (putBehind x pieces).flatten = x ++ pieces.flatten := by
  cases pieces with
  | nil => simp [putBehind]
  | cons piece pieces => simp [putBehind]

/-- Pieces are put together to a text. -/
theorem text_of_cut (h : Cut shape pieces) : Text shape pieces.flatten := by
  induction h with
  | scalar hw hx =>
    rw [List.flatten_singleton]
    exact .scalar hw hx
  | array hw _ hw' ih =>
    rw [List.flatten_cons, List.flatten_append, List.flatten_singleton]
    exact .array hw ih hw'
  | object hw _ hm hw' ih =>
    rw [List.flatten_cons, List.flatten_append, List.flatten_singleton]
    exact .object hw ih hm hw'
  | noItems => exact .noItems
  | item hw _ _ ihv ihl =>
    rw [List.flatten_append, flatten_putBehind]
    exact .item hw ihv ihl
  | noMembers => exact .noMembers
  | member hw hw₁ hx hw₂ _ _ ihv ihl =>
    rw [List.flatten_append, flatten_putBehind]
    exact .member hw hw₁ hx hw₂ ihv ihl

/-- Every text can be cut. -/
theorem exists_cut (h : Text shape x) : ∃ pieces, Cut shape pieces ∧ pieces.flatten = x := by
  induction h with
  | scalar hw hx => exact ⟨_, .scalar hw hx, List.flatten_singleton⟩
  | array hw _ hw' ih =>
    obtain ⟨pieces, hpieces, rfl⟩ := ih
    refine ⟨_, .array hw hpieces hw', ?_⟩
    rw [List.flatten_cons, List.flatten_append, List.flatten_singleton]
  | object hw _ hm hw' ih =>
    obtain ⟨pieces, hpieces, rfl⟩ := ih
    refine ⟨_, .object hw hpieces hm hw', ?_⟩
    rw [List.flatten_cons, List.flatten_append, List.flatten_singleton]
  | noItems => exact ⟨[], .noItems, rfl⟩
  | item hw _ _ ihv ihl =>
    obtain ⟨pieces, hpieces, rfl⟩ := ihv
    obtain ⟨pieces', hpieces', rfl⟩ := ihl
    exact ⟨_, .item hw hpieces hpieces', by rw [List.flatten_append, flatten_putBehind]⟩
  | noMembers => exact ⟨[], .noMembers, rfl⟩
  | member hw hw₁ hx hw₂ _ _ ihv ihl =>
    obtain ⟨pieces, hpieces, rfl⟩ := ihv
    obtain ⟨pieces', hpieces', rfl⟩ := ihl
    exact ⟨_, .member hw hw₁ hx hw₂ hpieces hpieces',
      by rw [List.flatten_append, flatten_putBehind]⟩

theorem document_of_cut (h : DocumentCut v pieces) : Document v pieces.flatten := by
  cases h with
  | scalar hw hx hw' => exact ⟨_, _, List.flatten_singleton, .scalar hw hx, hw'⟩
  | enclosed hv _ hw' =>
    exact ⟨_, _, by rw [List.flatten_append, List.flatten_singleton], text_of_cut hv, hw'⟩

theorem exists_documentCut (h : Document v x) :
    ∃ pieces, DocumentCut v pieces ∧ pieces.flatten = x := by
  obtain ⟨y, w', rfl, hy, hw'⟩ := h
  obtain ⟨pieces, hpieces, rfl⟩ := exists_cut hy
  have henclosed : v.isEnclosed = true →
      ∃ pieces', DocumentCut v pieces' ∧ pieces'.flatten = pieces.flatten ++ w' :=
    fun hv => ⟨_, .enclosed hpieces hv hw', by rw [List.flatten_append, List.flatten_singleton]⟩
  cases hpieces with
  | scalar hw hx => exact ⟨_, .scalar hw hx hw', by simp only [List.flatten_singleton]⟩
  | array => exact henclosed rfl
  | object => exact henclosed rfl

end Cut

end StreamParser.Json
