import StreamParser.Grammar.Run
import StreamParser.Input.Cursor
import StreamParser.Proofs.Pattern.Language

/-!
# What a run over a cursor consumes

`Action.Gives n Q x` says that the part `x` of a run ends, from every place with less than `n`
characters after it, and that `Q` is true of an output and of the characters that were consumed for
it.  Each kind of step has a rule (`Gives.bind`, `Gives.orElse`, ...).  A repetition ends since every
turn consumes something (`Gives.many`).
-/

namespace StreamParser

/-- The cursor stands before the characters `x`. -/
structure Cursor.Before (c : Cursor) (x : List Char) : Prop where
  chars_eq : Utf8.chars? none (c.bytes.drop c.position) = some x
  le : c.position ≤ c.bytes.length

namespace Action

variable {ν α β : Type}

/-- From every place with less than `n` characters after it the part ends; `Q` is true of an output
and of what was consumed for it. -/
def Gives (n : Nat) (Q : α → List Char → Prop) (x : Action Cursor ν α) : Prop :=
  ∀ s w, s.input.Before w → w.length < n → ∃ r s', x s = some (r, s') ∧
    s'.input.bytes = s.input.bytes ∧
    ∀ a, r = .ok a → ∃ y z, w = y ++ z ∧ Q a y ∧ s'.input.Before z

variable {n m : Nat} {Q : α → List Char → Prop} {R : α → β → List Char → Prop}
  {x y : Action Cursor ν α}

theorem Gives.mono {Q' : α → List Char → Prop} (hx : Gives n Q x) (hm : m ≤ n)
    (h : ∀ a y, Q a y → Q' a y) : Gives m Q' x := by
  intro s w hs hw
  obtain ⟨r, s', hr, hbytes, hok⟩ := hx s w hs (Nat.lt_of_lt_of_le hw hm)
  refine ⟨r, s', hr, hbytes, fun a ha => ?_⟩
  obtain ⟨y, z, hyz, hQ, hz⟩ := hok a ha
  exact ⟨y, z, hyz, h a y hQ, hz⟩

theorem gives_pure {a : α} (h : Q a []) : Gives n Q (pure a : Action Cursor ν α) := by
  intro s w hs _
  refine ⟨_, s, rfl, rfl, fun b hb => ?_⟩
  cases hb
  exact ⟨[], w, rfl, h, hs⟩

theorem gives_fail (e : ParseError) : Gives n Q (fail e : Action Cursor ν α) := by
  intro s w _ _
  exact ⟨_, s, rfl, rfl, fun b hb => by cases hb⟩

/-- A token is a word of its pattern. -/
theorem gives_matchPattern (p : Pattern) :
    Gives n (fun t y => t = String.ofList y ∧ p.expr.Matches y)
      (matchPattern p : Action Cursor ν String) := by
  intro s w hs _
  refine ⟨_, _, rfl, ?_, ?_⟩
  · show (s.input.matchPattern p).2.bytes = _
    unfold Cursor.matchPattern
    split
    · rfl
    · split <;> rfl
    · rfl
  · intro t
    show (s.input.matchPattern p).1 = .ok t → ∃ y z, w = y ++ z ∧ _ ∧
      (s.input.matchPattern p).2.Before z
    unfold Cursor.matchPattern
    split
    · exact fun h => by cases h
    · rename_i stop hmatch
      split
      · rename_i t' htext
        intro h
        cases h
        obtain ⟨hstart, hstop⟩ := Pattern.matchAt_le hs.le hmatch
        obtain ⟨y, hy, hword⟩ := Pattern.word_of_matchAt hs.le hmatch
        have hsplit : s.input.bytes.drop s.input.position =
            (s.input.bytes.take stop).drop s.input.position ++ s.input.bytes.drop stop := by
          have hle : s.input.position ≤ (s.input.bytes.take stop).length := by
            rw [List.length_take]
            omega
          rw [← List.drop_append_of_le_length hle, List.take_append_drop]
        have hall := hs.chars_eq
        rw [hsplit, Utf8.chars?_append hy] at hall
        obtain ⟨z, hz, rfl⟩ := Option.map_eq_some_iff.1 hall
        unfold Utf8.text? at htext
        rw [hy] at htext
        cases htext
        exact ⟨y, z, rfl, ⟨rfl, hword⟩, hz, hstop⟩
      · exact fun h => by cases h
    · exact fun h => by cases h

/-- What is consumed by two parts in a row.  The second one has only what the first one leaves. -/
theorem Gives.bind_of_le {f : α → Action Cursor ν β} {S : β → List Char → Prop} (hx : Gives n Q x)
    (hf : ∀ a, Gives m (R a) (f a)) (hm : ∀ a y, Q a y → n ≤ m + y.length)
    (h : ∀ a b y z, Q a y → R a b z → S b (y ++ z)) : Gives n S (bind x f) := by
  intro s w hs hw
  obtain ⟨r, s₁, hr, hbytes, hok⟩ := hx s w hs hw
  unfold Action.bind
  rw [hr]
  cases r with
  | error e => exact ⟨_, s₁, rfl, hbytes, fun b hb => by cases hb⟩
  | ok a =>
    obtain ⟨y, z, rfl, hQ, hz⟩ := hok a rfl
    have hlength : z.length < m := by
      have := hm a y hQ
      rw [List.length_append] at hw
      omega
    obtain ⟨r', s', hr', hbytes', hok'⟩ := hf a s₁ z hz hlength
    refine ⟨r', s', hr', hbytes'.trans hbytes, fun b hb => ?_⟩
    obtain ⟨y', z', rfl, hR, hz'⟩ := hok' b hb
    exact ⟨y ++ y', z', (List.append_assoc _ _ _).symm, h a b y y' hQ hR, hz'⟩

theorem Gives.bind {f : α → Action Cursor ν β} {S : β → List Char → Prop} (hx : Gives n Q x)
    (hf : ∀ a, Gives n (R a) (f a)) (h : ∀ a b y z, Q a y → R a b z → S b (y ++ z)) :
    Gives n S (bind x f) :=
  hx.bind_of_le hf (fun _ _ _ => Nat.le_add_right _ _) h

/-- To change the output consumes nothing. -/
theorem Gives.map {S : β → List Char → Prop} (hx : Gives n Q x) (g : α → β)
    (h : ∀ a y, Q a y → S (g a) y) : Gives n S (Action.bind x fun a => pure (g a)) := by
  refine hx.bind (R := fun a b z => b = g a ∧ z = []) (fun _ => gives_pure ⟨rfl, rfl⟩) ?_
  rintro a b y z hQ ⟨rfl, rfl⟩
  rw [List.append_nil]
  exact h a y hQ

/-- An attempt that fails comes back. -/
theorem attempt_cases_cursor (hx : Gives n Q x) {s : Session Cursor ν} {w : List Char}
    (hs : s.input.Before w) (hw : w.length < n) :
    (∃ a s' y z, attempt x s = some (.ok a, s') ∧ s'.input.bytes = s.input.bytes ∧ w = y ++ z ∧
        Q a y ∧ s'.input.Before z) ∨
      ∃ e s', attempt x s = some (.error e, s') ∧ s'.input.bytes = s.input.bytes ∧
        s'.input.Before w := by
  obtain ⟨r, s₁, hr, hbytes, hok⟩ := hx s w hs hw
  have hr : x { s with input := (Input.begin s.input).2 } = some (r, s₁) := hr
  unfold Action.attempt
  cases r with
  | ok a =>
    obtain ⟨y, z, hyz, hQ, hz⟩ := hok a rfl
    simp only [hr]
    exact .inl ⟨a, s₁, y, z, rfl, hbytes, hyz, hQ, hz⟩
  | error e =>
    simp only [hr]
    refine .inr ⟨e, _, rfl, hbytes, ?_, ?_⟩
    · show Utf8.chars? none (s₁.input.bytes.drop s.input.position) = _
      rw [hbytes]
      exact hs.chars_eq
    · show s.input.position ≤ s₁.input.bytes.length
      rw [hbytes]
      exact hs.le

/-- Over a cursor a transaction is no more than what is in it. -/
theorem Gives.transaction (hx : Gives n Q x) : Gives n Q (transaction x) := hx

theorem Gives.orElse (hx : Gives n Q x) (hy : Gives n Q y) : Gives n Q (orElse x y) := by
  intro s w hs hw
  unfold Action.orElse
  rcases attempt_cases_cursor hx hs hw with ⟨a, s', y, z, hr, hbytes, hyz, hQ, hz⟩ |
    ⟨e, s₁, hr, hbytes, hs₁⟩
  · rw [hr]
    refine ⟨_, s', rfl, hbytes, fun b hb => ?_⟩
    cases hb
    exact ⟨y, z, hyz, hQ, hz⟩
  · rw [hr]
    cases he : e.isRecoverable with
    | true =>
      obtain ⟨r, s', hr', hbytes', hok⟩ := hy s₁ w hs₁ hw
      simp only [he, if_true]
      exact ⟨r, s', hr', hbytes'.trans hbytes, hok⟩
    | false =>
      simp only [he, Bool.false_eq_true, if_false]
      exact ⟨_, s₁, rfl, hbytes, fun b hb => by cases hb⟩

/-- Over a cursor a commit does no more than change errors. -/
theorem Gives.commit (hx : Gives n Q x) : Gives n Q (commit x) := by
  intro s w hs hw
  obtain ⟨r, s', hr, hbytes, hok⟩ := hx s w hs hw
  have hr : Action.letGo x s = some (r, s') := hr
  unfold Action.commit Action.mapError
  rw [hr]
  cases r with
  | ok a => exact ⟨_, s', rfl, hbytes, hok⟩
  | error e => exact ⟨_, s', rfl, hbytes, fun b hb => by cases hb⟩

/-- Outputs, and what was consumed for them one after the other. -/
inductive InRow (Q : α → List Char → Prop) : List α → List Char → Prop
  | nil : InRow Q [] []
  | cons {a : α} {l : List α} {y z : List Char} (h : Q a y) (hl : InRow Q l z) :
    InRow Q (a :: l) (y ++ z)

/-- A repetition of what consumes something ends. -/
theorem Gives.many (hx : Gives n Q x) (hne : ∀ a y, Q a y → y ≠ []) (hn : n ≤ m) :
    Gives n (InRow Q) (many x none m) := by
  induction m generalizing n with
  | zero =>
    intro s w _ hw
    omega
  | succ m ih =>
    intro s w hs hw
    unfold Action.many
    simp only [reduceCtorEq, if_false]
    rcases attempt_cases_cursor hx hs hw with ⟨a, s₁, y, z, hr, hbytes, rfl, hQ, hz⟩ |
      ⟨e, s₁, hr, hbytes, hs₁⟩
    · rw [hr]
      by_cases hstays : Input.position s₁.input = Input.position s.input
      · simp only [if_pos hstays]
        refine ⟨_, s₁, rfl, hbytes, fun l hl => ?_⟩
        cases hl
        refine ⟨y, z, rfl, ?_, hz⟩
        have := InRow.cons hQ (InRow.nil (Q := Q))
        rwa [List.append_nil] at this
      · simp only [if_neg hstays]
        have hlonger : 0 < y.length := List.length_pos_of_ne_nil (hne a y hQ)
        rw [List.length_append] at hw
        have hrest := ih (n := n - 1) (hx.mono (by omega) fun _ _ h => h) (by omega)
        have hcons : Gives (n - 1) (fun l z => ∃ l', l = a :: l' ∧ InRow Q l' z)
            (Action.bind (Action.many x none m) fun l => pure (a :: l) : Action Cursor ν (List α)) :=
          hrest.map (a :: ·) fun l z hl => ⟨l, rfl, hl⟩
        obtain ⟨r, s', hr', hbytes', hok⟩ := hcons s₁ z hz (by omega)
        refine ⟨r, s', hr', hbytes'.trans hbytes, fun l hl => ?_⟩
        obtain ⟨y', z', rfl, ⟨l', rfl, hl'⟩, hz'⟩ := hok l hl
        exact ⟨y ++ y', z', (List.append_assoc _ _ _).symm, .cons hQ hl', hz'⟩
    · rw [hr]
      cases he : e.isRecoverable with
      | true =>
        simp only [he, if_true]
        refine ⟨_, s₁, rfl, hbytes, fun l hl => ?_⟩
        cases hl
        exact ⟨[], w, rfl, .nil, hs₁⟩
      | false =>
        simp only [he, Bool.false_eq_true, if_false]
        exact ⟨_, s₁, rfl, hbytes, fun b hb => by cases hb⟩

end Action

end StreamParser
