import StreamParser.Proofs.Grammar.Consumption
import StreamParser.Proofs.Json.Steps
import StreamParser.Proofs.Json.Syntax

/-!
# What is read is JSON

Each step of the grammar of JSON ends, and what it consumes has the syntax of what it returns.  For
values that follows by induction on the depth (`gives_readNested`): behind a bracket there are fewer
characters than before it, so the depth is never used up.

`parseText_ends` puts this together: reading a text ends, and if it yields a value, the text is a
document of that value.
-/

namespace StreamParser.Json

open StreamParser.Action Grammar StreamParser.Expr

variable {ν α β : Type} {n m : Nat}

/-! ### Words of the tokens -/

theorem isBlank_of_matches {y : List Char} (h : spaces.expr.Matches y) : IsBlank y := by
  refine matches_many h (P := IsBlank) (fun c hc => absurd hc List.not_mem_nil) fun y z hy hz => ?_
  obtain ⟨c, rfl, hc⟩ := matches_chars hy
  exact List.forall_mem_cons.2 ⟨hc, hz⟩

theorem eq_of_matches_sign {source : String} {c : Char} {y : List Char}
    (h : (sign source c).expr.Matches y) : y = [c] := by
  obtain ⟨d, rfl, hd⟩ := matches_chars h
  rw [CodePoints.contains_single_iff.1 hd]

/-- A word that is spelled out matches itself alone. -/
theorem eq_of_matches_sequence {x y : List Char}
    (h : (sequence (x.map fun c => chars (.single c))).Matches y) : y = x := by
  induction x generalizing y with
  | nil =>
    cases h
    rfl
  | cons c x ih =>
    cases x with
    | nil =>
      obtain ⟨d, rfl, hd⟩ := matches_chars h
      rw [CodePoints.contains_single_iff.1 hd]
    | cons c' x =>
      obtain ⟨y₁, y₂, rfl, h₁, h₂⟩ := matches_seq h
      obtain ⟨d, rfl, hd⟩ := matches_chars h₁
      rw [CodePoints.contains_single_iff.1 hd, ih h₂]
      rfl

theorem isString_of_matches {x : List Char} {s : String} (hx : quoted.expr.Matches x)
    (hs : StringLiteral.ofText (String.ofList x) = .ok s) : IsString x s := by
  obtain ⟨y, z, rfl, hy, hz⟩ := matches_seq hx
  obtain ⟨c, rfl, hc⟩ := matches_chars hy
  obtain ⟨z₁, z₂, rfl, -, hend⟩ := matches_seq hz
  obtain ⟨d, rfl, hd⟩ := matches_chars hend
  obtain rfl := CodePoints.contains_single_iff.1 hc
  obtain rfl := CodePoints.contains_single_iff.1 hd
  refine ⟨rfl, ?_, hs⟩
  rw [← List.append_assoc, List.getLast?_concat]

/-! ### Tokens -/

/-- The text is a lexeme of which `P` holds, with white space before it. -/
def Spaced (P : List Char → Prop) (y : List Char) : Prop :=
  ∃ w x, y = w ++ x ∧ IsBlank w ∧ P x

theorem gives_readToken (p : Pattern) : Gives n (fun t y => Spaced (fun x =>
    t = String.ofList x ∧ p.expr.Matches x) y) (readToken p : Action Cursor ν String) := by
  refine ((gives_matchPattern spaces).bind (fun _ => gives_matchPattern p) ?_).transaction
  rintro w t y x ⟨-, hy⟩ ⟨rfl, hx⟩
  exact ⟨y, x, rfl, isBlank_of_matches hy, rfl, hx⟩

theorem gives_readSign (source : String) (c : Char) :
    Gives n (fun _ y => ∃ w, y = w ++ [c] ∧ IsBlank w)
      (readToken (sign source c) : Action Cursor ν String) := by
  refine (gives_readToken _).mono (Nat.le_refl _) ?_
  rintro t y ⟨w, x, rfl, hw, -, hx⟩
  exact ⟨w, by rw [eq_of_matches_sign hx], hw⟩

theorem gives_readLexeme (p : Pattern) (read : String → Except Fault α)
    (refusal : String → Fault → String) : Gives n (fun a y => Spaced (fun x =>
      p.expr.Matches x ∧ read (String.ofList x) = .ok a) y)
      (readLexeme p read refusal : Action Cursor ν α) := by
  refine ((gives_readToken p).bind (R := fun t a z => read t = .ok a ∧ z = []) (fun t => ?_)
    ?_).transaction
  · cases read t with
    | ok a => exact gives_pure ⟨rfl, rfl⟩
    | error e => exact gives_fail _
  · rintro t a y z ⟨w, x, rfl, hw, rfl, hx⟩ ⟨ha, rfl⟩
    exact ⟨w, x, by rw [List.append_nil], hw, hx, ha⟩

theorem gives_readString : Gives n (fun s y => Spaced (IsString · s) y)
    (readString : Action Cursor ν String) := by
  refine (gives_readLexeme _ _ _).mono (Nat.le_refl _) ?_
  rintro s y ⟨w, x, rfl, hw, hx, hs⟩
  exact ⟨w, x, rfl, hw, isString_of_matches hx hs⟩

theorem gives_readNumber : Gives n (fun v y => Spaced (Scalar · v) y)
    (readNumber : Action Cursor ν Value) := by
  refine (gives_readLexeme _ _ _).mono (Nat.le_refl _) ?_
  rintro v y ⟨w, x, rfl, hw, hx, hv⟩
  refine ⟨w, x, rfl, hw, ?_⟩
  cases hn : Number.ofText (String.ofList x) with
  | error e =>
    rw [hn] at hv
    cases hv
  | ok k =>
    rw [hn] at hv
    cases hv
    exact .number hx hn

/-! ### Lists -/

/-- Things with separators between them. -/
inductive Separated (Q : α → List Char → Prop) : Bool → List α → List Char → Prop
  | nil {first : Bool} : Separated Q first [] []
  | cons {first : Bool} {w y z : List Char} {a : α} {l : List α} (hw : IsBlank w) (h : Q a y)
    (hl : Separated Q false l z) : Separated Q first (a :: l) (separator first w ++ y ++ z)

variable {Q : α → List Char → Prop} {x : Action Cursor ν α}

theorem separated_of_inRow {l : List α} {y : List Char}
    (h : InRow (fun a y => ∃ w z, y = w ++ [','] ++ z ∧ IsBlank w ∧ Q a z) l y) :
    Separated Q false l y := by
  induction h with
  | nil => exact .nil
  | cons h _ ih =>
    obtain ⟨w, z, rfl, hw, hz⟩ := h
    exact .cons hw hz ih

/-- What is read behind the first thing, if there is one. -/
inductive Continued (Q : α → List Char → Prop) : Option α → List α → List Char → Prop
  | some {a : α} {l : List α} {y : List Char} (h : Separated Q false l y) :
    Continued Q (some a) (a :: l) y
  | none : Continued Q none [] []

theorem gives_separated (hx : Gives n Q x) (hn : n ≤ m) :
    Gives n (Separated Q true) (separated x (readToken (sign "," ',')) m) := by
  have hfirst : Gives n (fun o y => (∃ a, o = some a ∧ Q a y) ∨ o = none ∧ y = [])
      (orElse (bind x fun a => pure (some a)) (pure none)) := by
    refine Gives.orElse (hx.map some fun a y hQ => .inl ⟨a, rfl, hQ⟩) (gives_pure (.inr ⟨rfl, rfl⟩))
  have hnext : Gives n (fun a y => ∃ w z, y = w ++ [','] ++ z ∧ IsBlank w ∧ Q a z)
      (transaction (bind (readToken (sign "," ',')) fun _ => x)) := by
    refine ((gives_readSign _ _).bind (fun _ => hx) ?_).transaction
    rintro t a y z ⟨w, rfl, hw⟩ hz
    exact ⟨w, z, rfl, hw, hz⟩
  have hne : ∀ (a : α) (y : List Char), (∃ w z, y = w ++ [','] ++ z ∧ IsBlank w ∧ Q a z) →
      y ≠ [] := by
    rintro a y ⟨w, z, rfl, -⟩
    simp
  refine hfirst.bind (R := Continued Q) (fun o => ?_) ?_
  · cases o with
    | none => exact gives_pure .none
    | some a =>
      exact (hnext.many hne hn).map (a :: ·) fun l y hl => .some (separated_of_inRow hl)
  · rintro o l y z (⟨a, rfl, hQ⟩ | ⟨rfl, rfl⟩) hl
    · cases hl with
      | some hl => exact .cons (w := []) (fun c hc => absurd hc List.not_mem_nil) hQ hl
    · cases hl with
      | none => exact .nil

/-- Behind the opening bracket there are fewer characters than before it. -/
theorem gives_enclosed (opening closing : String) (c d : Char) (hx : Gives n Q x) :
    Gives (n + 1) (fun a y => ∃ w y' w', y = w ++ [c] ++ (y' ++ (w' ++ [d])) ∧ IsBlank w ∧
      Q a y' ∧ IsBlank w') (enclosed (sign opening c) (sign closing d) x) := by
  have hcontents : Gives n (fun a y => ∃ y' w', y = y' ++ (w' ++ [d]) ∧ Q a y' ∧ IsBlank w')
      (bind x fun a => bind (readToken (sign closing d)) fun _ => pure a) := by
    refine hx.bind (R := fun a b z => b = a ∧ ∃ w', z = w' ++ [d] ∧ IsBlank w') (fun a => ?_) ?_
    · exact (gives_readSign _ _).map (fun _ => a) fun _ y hy => ⟨rfl, hy⟩
    · rintro a b y z hQ ⟨rfl, w', rfl, hw'⟩
      exact ⟨y, w', rfl, hQ, hw'⟩
  refine ((gives_readSign _ _).bind_of_le (m := n) (fun _ => hcontents.transaction.commit) ?_
    ?_).transaction
  · rintro _ y ⟨w, rfl, -⟩
    rw [List.length_append, List.length_singleton]
    omega
  · rintro _ a y z ⟨w, rfl, hw⟩ ⟨y', w', rfl, hQ, hw'⟩
    exact ⟨w, y', w', rfl, hw, hQ, hw'⟩

/-! ### Values -/

theorem text_items {first : Bool} {l : List Value} {y : List Char}
    (h : Separated (fun v => Text (.value v)) first l y) : Text (.items first l) y := by
  induction h with
  | nil => exact .noItems
  | cons hw h _ ih => exact .item hw h ih

/-- The text of a member. -/
def IsMember (a : String × Value) (y : List Char) : Prop :=
  ∃ w₁ x w₂ z, y = w₁ ++ x ++ (w₂ ++ [':']) ++ z ∧ IsBlank w₁ ∧ IsString x a.1 ∧ IsBlank w₂ ∧
    Text (.value a.2) z

theorem text_members {first : Bool} {l : List (String × Value)} {y : List Char}
    (h : Separated IsMember first l y) : Text (.members first l) y := by
  induction h with
  | nil => exact .noMembers
  | cons hw h _ ih =>
    obtain ⟨w₁, x, w₂, z, rfl, hw₁, hx, hw₂, hv⟩ := h
    rw [← List.append_assoc]
    exact .member hw hw₁ hx hw₂ hv ih

section

variable {x : Action Cursor ν Value} (hx : Gives n (fun v => Text (.value v)) x)

include hx

theorem gives_readMember : Gives n IsMember (readMember x) := by
  have hvalue : Gives n (fun v y => ∃ w z, y = w ++ [':'] ++ z ∧ IsBlank w ∧ Text (.value v) z)
      (transaction (bind (readToken (sign ":" ':')) fun _ => x)) := by
    refine ((gives_readSign _ _).bind (fun _ => hx) ?_).transaction
    rintro _ v y z ⟨w, rfl, hw⟩ hz
    exact ⟨w, z, rfl, hw, hz⟩
  refine (gives_readString.bind (R := fun k a y => a.1 = k ∧ ∃ w z,
    y = w ++ [':'] ++ z ∧ IsBlank w ∧ Text (.value a.2) z) (fun k => ?_) ?_).transaction
  · exact hvalue.map (fun v => (k, v)) fun v y hy => ⟨rfl, hy⟩
  · rintro k a y z ⟨w₁, x, rfl, hw₁, hx⟩ ⟨rfl, w₂, z, rfl, hw₂, hz⟩
    exact ⟨w₁, x, w₂, z, by simp only [List.append_assoc], hw₁, hx, hw₂, hz⟩

theorem gives_readArray (hn : n ≤ m) :
    Gives (n + 1) (fun v => Text (.value v)) (readArray x m) := by
  refine (gives_enclosed _ _ _ _ (gives_separated hx hn)).map Value.array ?_
  rintro l y ⟨w, y', w', rfl, hw, hl, hw'⟩
  exact .array hw (text_items hl) hw'

theorem gives_readObject (hn : n ≤ m) :
    Gives (n + 1) (fun v => Text (.value v)) (readObject x m) := by
  refine (gives_enclosed _ _ _ _ (gives_separated (gives_readMember hx) hn)).map Value.ofMembers ?_
  rintro l y ⟨w, y', w', rfl, hw, hl, hw'⟩
  exact .object hw (text_members hl) (Value.ofMembers_eq_iff.1 rfl) hw'

/-- If the values inside are read as they should be, so is a value of one more level. -/
theorem gives_readValue (hn : n ≤ m) :
    Gives (n + 1) (fun v => Text (.value v)) (readValue x m) := by
  have hscalar : ∀ {v : Value} {y : List Char}, Spaced (Scalar · v) y → Text (.value v) y := by
    rintro v y ⟨w, x, rfl, hw, hx⟩
    exact .scalar hw hx
  have hnull : Gives (n + 1) (fun v => Text (.value v))
      (bind (readToken nothing) fun _ => pure .null : Action Cursor ν Value) := by
    refine (gives_readToken nothing).map (fun _ => Value.null) ?_
    rintro t y ⟨w, x, rfl, hw, -, hx⟩
    obtain rfl := eq_of_matches_sequence hx
    exact hscalar ⟨w, _, rfl, hw, .null⟩
  have hboolean : Gives (n + 1) (fun v => Text (.value v))
      (bind (readToken truth) fun t => pure (.boolean (t == "true")) :
        Action Cursor ν Value) := by
    refine (gives_readToken truth).map (fun t => Value.boolean (t == "true")) ?_
    rintro t y ⟨w, x, rfl, hw, rfl, hx⟩
    rcases matches_alt hx with hx | hx
    · obtain rfl := eq_of_matches_sequence hx
      exact hscalar ⟨w, _, rfl, hw, .true⟩
    · obtain rfl := eq_of_matches_sequence hx
      exact hscalar ⟨w, _, rfl, hw, .false⟩
  have hstring : Gives (n + 1) (fun v => Text (.value v))
      (bind readString fun s => pure (.string s) : Action Cursor ν Value) := by
    refine gives_readString.map Value.string ?_
    rintro s y ⟨w, x, rfl, hw, hx⟩
    exact hscalar ⟨w, x, rfl, hw, .string hx⟩
  have hnumber := (gives_readNumber (n := n + 1) (ν := ν)).mono (Nat.le_refl _)
    fun v y h => hscalar h
  exact ((((hnull.orElse hboolean).orElse hnumber).orElse hstring).orElse
    (gives_readObject hx hn)).orElse (gives_readArray hx hn)

end

/-- A value of at most a given depth is read if there are fewer characters. -/
theorem gives_readNested (hn : n ≤ m + 1) :
    Gives n (fun v => Text (.value v)) (readNested m n : Action Cursor ν Value) := by
  induction n with
  | zero =>
    intro s w _ hw
    omega
  | succ n ih => exact gives_readValue (ih (by omega)) (by omega)

/-! ### Documents -/

theorem gives_readEnd : Gives n (fun _ y => IsBlank y) (readEnd : Action Cursor ν Unit) := by
  have hend : Gives n (fun _ y => y = [])
      (bind (matchPattern ending) fun _ => pure () : Action Cursor ν Unit) := by
    refine (gives_matchPattern ending).map (fun _ => ()) ?_
    rintro _ y ⟨-, hy⟩
    cases hy
    rfl
  refine ((gives_matchPattern spaces).bind (fun _ => hend) ?_).transaction
  rintro _ _ y z ⟨-, hy⟩ rfl
  rw [List.append_nil]
  exact isBlank_of_matches hy

/-- The end is only found at the end. -/
theorem isAtEnd_of_matchPattern {c : Cursor} (hc : c.position ≤ c.bytes.length) {t : String}
    (h : (c.matchPattern ending).1 = .ok t) : (c.matchPattern ending).2.isAtEnd = true := by
  have hmatch := Pattern.matchAt_of_textEnd (p := ending) rfl c.bytes hc true
  unfold Cursor.matchPattern at h ⊢
  rw [hmatch] at h ⊢
  by_cases hlt : c.position < c.bytes.length
  · simp only [if_pos hlt] at h
    cases h
  · simp only [if_neg hlt, if_true] at h ⊢
    split
    · exact decide_eq_true (Nat.le_refl _)
    · exact decide_eq_true (Nat.le_of_not_lt hlt)

theorem isAtEnd_of_readEnd {s s' : Session Cursor ν} {w : List Char} (hs : s.input.Before w)
    (h : readEnd s = some (.ok (), s')) : s'.input.isAtEnd = true := by
  obtain ⟨r, s₁, hspaces, -, hok⟩ :=
    gives_matchPattern (ν := ν) spaces s w hs (Nat.lt_succ_self w.length)
  have h : bind (matchPattern spaces) (fun _ => bind (matchPattern ending) fun _ => pure ()) s =
      some (.ok (), s') := h
  unfold Action.bind at h
  rw [hspaces] at h
  cases r with
  | error e => cases h
  | ok t =>
    obtain ⟨y, z, -, -, hz⟩ := hok t rfl
    have hend : matchPattern ending s₁ = some ((s₁.input.matchPattern ending).1,
        { s₁ with input := (s₁.input.matchPattern ending).2 }) := rfl
    simp only [hend] at h
    cases hr : (s₁.input.matchPattern ending).1 with
    | error e =>
      rw [hr] at h
      cases h
    | ok t' =>
      rw [hr] at h
      cases h
      exact isAtEnd_of_matchPattern hz.le hr

/-- At the end no characters are left. -/
theorem eq_nil_of_before {c : Cursor} {w : List Char} (h : c.Before w) (hend : c.isAtEnd = true) :
    w = [] := by
  have hchars := h.chars_eq
  rw [List.drop_of_length_le (of_decide_eq_true hend)] at hchars
  cases hchars
  rfl

/-- Reading a document ends, and if it yields a value, all that was there is a document of it. -/
theorem readDocument_ends (hn : n ≤ m + 1) {s : Session Cursor ν} {w : List Char}
    (hs : s.input.Before w) (hw : w.length < n) :
    ∃ r s', readDocument (readNested m n) s = some (r, s') ∧
      ∀ v, r = .ok v → Document v w := by
  obtain ⟨r, s₁, hr, -, hok⟩ := gives_readNested hn s w hs hw
  show ∃ r s', bind (readNested m n) (fun v => bind readEnd fun _ => pure v) s = some (r, s') ∧ _
  unfold Action.bind
  rw [hr]
  cases r with
  | error e => exact ⟨_, s₁, rfl, fun v hv => by cases hv⟩
  | ok v =>
    obtain ⟨y, z, rfl, hy, hz⟩ := hok v rfl
    obtain ⟨r, s', hr', -, hok'⟩ := gives_readEnd (ν := ν) s₁ z hz (Nat.lt_succ_self z.length)
    simp only [hr']
    cases r with
    | error e => exact ⟨_, s', rfl, fun v hv => by cases hv⟩
    | ok u =>
      refine ⟨_, s', rfl, fun v' hv' => ?_⟩
      cases hv'
      obtain ⟨w', z', rfl, hw', hz'⟩ := hok' u rfl
      obtain rfl := eq_nil_of_before hz' (isAtEnd_of_readEnd hz hr')
      exact ⟨y, w', by rw [List.append_nil], hy, hw'⟩

theorem before_start (t : String) : (Cursor.start t).Before t.toList := by
  refine ⟨?_, Nat.zero_le _⟩
  show Utf8.chars? none (Utf8.bytes t) = _
  rw [Utf8.bytes_eq_encode, Utf8.chars?_encode]

/-- Reading a text ends, and if it yields a value, the text is a document of that value. -/
theorem parseText_ends (t : String) : ∃ r, parseText t = some r ∧
    ∀ v, r = .ok v → Document v t.toList := by
  have hlength : t.toList.length ≤ (Utf8.bytes t).length := by
    rw [Utf8.bytes_eq_encode]
    exact Utf8.length_le_length_encode _
  obtain ⟨r, s', hr, hok⟩ := readDocument_ends (ν := Empty) (m := (Utf8.bytes t).length + 2)
    (n := (Utf8.bytes t).length + 3) (Nat.le_refl _) (s := ⟨Cursor.start t, []⟩) (before_start t)
    (by omega)
  exact ⟨r, by rw [parseText_eq, hr]; rfl, hok⟩

end StreamParser.Json
