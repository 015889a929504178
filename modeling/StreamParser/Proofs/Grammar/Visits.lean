import StreamParser.Input.Cursor
import StreamParser.Proofs.Grammar.Remarks
import StreamParser.Proofs.Pattern.Language
import StreamParser.Proofs.Pattern.Progress
import StreamParser.Proofs.Text.Boundaries

/-!
# The calls that a run makes

A rule that remarks when it is entered and when it is left tells of its calls, and of the calls
within them.

* `Grammar.calling g` is the grammar `g` with these remarks, and `Visit` is a call with the calls
  within it.  The remarks of a call are its `Visit.trace`, from which the call is known
  (`Visit.traces_injective`).
* `Visit.Ascends` says that every call within begins behind the place where the call itself begins,
  and `Visit.depth` counts how deep the calls are.
* `Action.Visits l D P Q x` says that the part `x` of a run over the text `l` ends, if it begins at
  a place in `D`, and that its calls have the property `P`.  Each kind of step has a rule
  (`Visits.bind`, `Visits.orElse`, ...).  A repetition ends since every turn reads something
  (`Visits.many`).
-/

namespace StreamParser

/-! ### Calls -/

/-- What is remarked about a call of a rule. -/
inductive CallMark
  /-- The rule is entered at the place. -/
  | enter (position : Nat)
  /-- The rule is left. -/
  | leave
  deriving DecidableEq, Repr

/-- A call of a rule: the place where it begins, and the calls within it, one after the other. -/
structure Visit where
  position : Nat
  inner : List Visit

namespace Visit

mutual

/-- The remarks about a call, in the order in which they are made. -/
def trace : Visit → List CallMark
  | ⟨n, l⟩ => .enter n :: (traces l ++ [.leave])

/-- The remarks about calls, one after the other. -/
def traces : List Visit → List CallMark
  | [] => []
  | v :: l => trace v ++ traces l

end

mutual

/-- The number of calls that are open at the same time. -/
def depth : Visit → Nat
  | ⟨_, l⟩ => depths l + 1

/-- The greatest depth of calls. -/
def depths : List Visit → Nat
  | [] => 0
  | v :: l => max (depth v) (depths l)

end

/-- Every call within begins behind the place where the call itself begins. -/
inductive Ascends : Visit → Prop
  | mk {n : Nat} {l : List Visit} (hbehind : ∀ v ∈ l, n < v.position)
    (hinner : ∀ v ∈ l, Ascends v) : Ascends ⟨n, l⟩

@[simp] theorem trace_mk (n : Nat) (l : List Visit) :
    trace ⟨n, l⟩ = .enter n :: (traces l ++ [.leave]) := rfl

@[simp] theorem traces_nil : traces [] = [] := rfl

@[simp] theorem traces_cons (v : Visit) (l : List Visit) :
    traces (v :: l) = trace v ++ traces l := rfl

theorem traces_append (l l' : List Visit) : traces (l ++ l') = traces l ++ traces l' := by
  induction l with
  | nil => rfl
  | cons v l ih => rw [List.cons_append, traces_cons, ih, traces_cons, List.append_assoc]

theorem depths_le {l : List Visit} {k : Nat} (h : ∀ v ∈ l, depth v ≤ k) : depths l ≤ k := by
  induction l with
  | nil => exact Nat.zero_le k
  | cons v l ih =>
    exact Nat.max_le.2 ⟨h v List.mem_cons_self, ih fun w hw => h w (List.mem_cons_of_mem v hw)⟩

/-- The calls within are known from the remarks up to where the call is left. -/
theorem eq_of_traces_append_leave (l l' : List Visit) {x y : List CallMark}
    (h : traces l ++ .leave :: x = traces l' ++ .leave :: y) : l = l' ∧ x = y := by
  match l, l' with
  | [], [] => exact ⟨rfl, (List.cons.inj h).2⟩
  | [], ⟨n, a⟩ :: l' => cases (List.cons.inj h).1
  | ⟨n, a⟩ :: l, [] => cases (List.cons.inj h).1
  | ⟨n, a⟩ :: l, ⟨m, b⟩ :: l' =>
    simp only [traces_cons, trace_mk, List.cons_append, List.append_assoc, List.nil_append,
      List.cons.injEq, CallMark.enter.injEq] at h
    obtain ⟨rfl, htail⟩ := h
    obtain ⟨rfl, hrest⟩ := eq_of_traces_append_leave a b htail
    obtain ⟨rfl, rfl⟩ := eq_of_traces_append_leave l l' hrest
    exact ⟨rfl, rfl⟩
termination_by sizeOf l

/-- Calls are known from the remarks about them. -/
theorem traces_injective {l l' : List Visit} (h : traces l = traces l') : l = l' :=
  (eq_of_traces_append_leave l l' (congrArg (· ++ [.leave]) h)).1

end Visit

/-- Remark when a grammar is entered, and when it is left. -/
def Grammar.calling {ρ υ α : Type} (g : Grammar ρ υ CallMark α) : Grammar ρ υ CallMark α :=
  .remark (fun | .entry, n => [.enter n] | _, _ => [.leave]) g

/-! ### What stands in a text -/

/-- From the place `n` of the text `l` up to `m` stands a word of the pattern. -/
def Pattern.Stands (p : Pattern) (l : List UInt8) (n m : Nat) : Prop :=
  ∃ t : String, p.expr.Matches t.toList ∧ m = n + (Utf8.bytes t).length ∧
    l.drop n = Utf8.bytes t ++ l.drop m

theorem Pattern.stands_of_matchAt {p : Pattern} {l : List UInt8} {n m : Nat} (hn : n ≤ l.length)
    (h : p.matchAt l n true = .ok (.matched m)) : p.Stands l n m := by
  obtain ⟨hle, hm⟩ := matchAt_le hn h
  obtain ⟨x, hx, hword⟩ := word_of_matchAt hn h
  have htext : Utf8.text? ((l.take m).drop n) = some (String.ofList x) := by
    unfold Utf8.text?
    rw [hx]
    rfl
  have hlength : (l.take m).length = m := List.length_take_of_le hm
  refine ⟨String.ofList x, by rwa [String.toList_ofList], ?_, ?_⟩
  · rw [Utf8.bytes_of_text? htext, List.length_drop, hlength]
    omega
  · rw [Utf8.bytes_of_text? htext, ← List.drop_append_of_le_length (hlength.symm ▸ hle),
      List.take_append_drop]

theorem Pattern.Stands.le {p : Pattern} {l : List UInt8} {n m : Nat} (h : p.Stands l n m) :
    n ≤ m := by
  obtain ⟨t, -, rfl, -⟩ := h
  exact Nat.le_add_right n _

/-! ### Parts of runs -/

namespace Action

open Visit

variable {α β : Type} {l : List UInt8} {D D' : Nat → Prop} {P P' : Nat → Visit → Prop}
  {Q Q' R : Nat → Nat → Prop} {x y : Action Cursor CallMark α}

/-- From every place of the text `l` that is in `D` the part ends.  The calls that it makes from the
place `n` are in `P n`, and an output leaves it at a place in `Q n`. -/
def Visits (l : List UInt8) (D : Nat → Prop) (P : Nat → Visit → Prop) (Q : Nat → Nat → Prop)
    (x : Action Cursor CallMark α) : Prop :=
  ∀ n j, n ≤ l.length → D n → ∃ r m vs,
    x ⟨⟨l, n⟩, j⟩ = some (r, ⟨⟨l, m⟩, (traces vs).reverse ++ j⟩) ∧ m ≤ l.length ∧
      (∀ v ∈ vs, P n v) ∧ ∀ a, r = .ok a → Q n m

theorem Visits.mono (hx : Visits l D P Q x) (hD : ∀ n, D' n → D n) (hP : ∀ n v, P n v → P' n v)
    (hQ : ∀ n m, Q n m → Q' n m) : Visits l D' P' Q' x := by
  intro n j hn hD'
  obtain ⟨r, m, vs, hr, hm, hvs, hok⟩ := hx n j hn (hD n hD')
  exact ⟨r, m, vs, hr, hm, fun v hv => hP n v (hvs v hv), fun a ha => hQ n m (hok a ha)⟩

/-- The part ends, and makes no call. -/
abbrev Calm (l : List UInt8) (Q : Nat → Nat → Prop) (x : Action Cursor CallMark α) : Prop :=
  Visits l (fun _ => True) (fun _ _ => False) Q x

/-- Less may be said of where an output leaves the part. -/
theorem Visits.weaken (hx : Visits l D P Q x) (hQ : ∀ n m, Q n m → Q' n m) : Visits l D P Q' x :=
  hx.mono (fun _ h => h) (fun _ _ h => h) hQ

/-- A part that makes no call may stand anywhere. -/
theorem Calm.visits (hx : Calm l Q x) : Visits l D P Q x :=
  hx.mono (fun _ _ => trivial) (fun _ _ h => h.elim) fun _ _ h => h

theorem visits_pure (a : α) (hQ : ∀ n, Q n n) :
    Visits l D P Q (pure a : Action Cursor CallMark α) :=
  fun n _ hn _ => ⟨.ok a, n, [], rfl, hn, List.forall_mem_nil _, fun _ _ => hQ n⟩

theorem visits_fail (e : ParseError) : Visits l D P Q (fail e : Action Cursor CallMark α) :=
  fun n _ hn _ => ⟨.error e, n, [], rfl, hn, List.forall_mem_nil _, fun _ ha => by cases ha⟩

/-- To match a pattern makes no call. -/
theorem visits_matchPattern (p : Pattern) :
    Visits l D P (p.Stands l) (matchPattern p : Action Cursor CallMark String) := by
  intro n j hn _
  show ∃ r m vs, some ((Cursor.matchPattern p ⟨l, n⟩).1,
    (⟨(Cursor.matchPattern p ⟨l, n⟩).2, j⟩ : Session Cursor CallMark)) = _ ∧ _
  unfold Cursor.matchPattern
  split
  · exact ⟨_, n, [], rfl, hn, List.forall_mem_nil _, fun _ ha => by cases ha⟩
  · rename_i m hmatch
    split
    · exact ⟨_, m, [], rfl, (Pattern.matchAt_le hn hmatch).2, List.forall_mem_nil _,
        fun _ _ => Pattern.stands_of_matchAt hn hmatch⟩
    · exact ⟨_, n, [], rfl, hn, List.forall_mem_nil _, fun _ ha => by cases ha⟩
  · exact ⟨_, n, [], rfl, hn, List.forall_mem_nil _, fun _ ha => by cases ha⟩

/-- The second part begins where the first one leaves off. -/
theorem Visits.bind {f : α → Action Cursor CallMark β} {S : Nat → Nat → Prop}
    (hx : Visits l D P Q x) (hf : ∀ a, Visits l D' P' R (f a)) (hD : ∀ n m, D n → Q n m → D' m)
    (hP : ∀ n m v, Q n m → P' m v → P n v) (hS : ∀ n m k, Q n m → R m k → S n k) :
    Visits l D P S (bind x f) := by
  intro n j hn hDn
  obtain ⟨r, m, vs, hr, hm, hvs, hok⟩ := hx n j hn hDn
  unfold Action.bind
  rw [hr]
  cases r with
  | error e => exact ⟨_, m, vs, rfl, hm, hvs, fun _ ha => by cases ha⟩
  | ok a =>
    have hQ : Q n m := hok a rfl
    obtain ⟨r', k, ws, hr', hk, hws, hok'⟩ :=
      hf a m ((traces vs).reverse ++ j) hm (hD n m hDn hQ)
    refine ⟨r', k, vs ++ ws, ?_, hk, ?_, fun b hb => hS n m k hQ (hok' b hb)⟩
    · simp only [hr', traces_append, List.reverse_append, List.append_assoc]
    · intro v hv
      rcases List.mem_append.1 hv with hv | hv
      · exact hvs v hv
      · exact hP n m v hQ (hws v hv)

theorem Calm.bind {f : α → Action Cursor CallMark β} {S : Nat → Nat → Prop} (hx : Calm l Q x)
    (hf : ∀ a, Calm l R (f a)) (hS : ∀ n m k, Q n m → R m k → S n k) : Calm l S (bind x f) :=
  Visits.bind hx hf (fun _ _ _ _ => trivial) (fun _ _ _ _ h => h) hS

/-- To change the output makes no call. -/
theorem Visits.map (hx : Visits l D P Q x) (g : α → β) :
    Visits l D P Q (Action.bind x fun a => pure (g a)) := by
  have hpure (a : α) : Calm l (fun m k => k = m) (pure (g a)) := visits_pure (g a) fun _ => rfl
  exact hx.bind hpure (fun _ _ _ _ => trivial) (fun _ _ _ _ h => h.elim)
    fun _ _ _ hQ hk => hk ▸ hQ

/-- Over a cursor a transaction is no more than what is in it. -/
theorem Visits.transaction (hx : Visits l D P Q x) : Visits l D P Q (transaction x) := hx

/-- Over a cursor a commit does no more than change errors. -/
theorem Visits.commit (hx : Visits l D P Q x) : Visits l D P Q (commit x) := by
  intro n j hn hD
  obtain ⟨r, m, vs, hr, hm, hvs, hok⟩ := hx n j hn hD
  have hr : Action.letGo x ⟨⟨l, n⟩, j⟩ = _ := hr
  unfold Action.commit Action.mapError
  rw [hr]
  cases r with
  | ok a => exact ⟨_, m, vs, rfl, hm, hvs, hok⟩
  | error e => exact ⟨_, m, vs, rfl, hm, hvs, fun _ ha => by cases ha⟩

/-- An attempt that fails comes back, and its calls were made all the same. -/
theorem Visits.attempt_cases (hx : Visits l D P Q x) {n : Nat} (j : List CallMark)
    (hn : n ≤ l.length) (hD : D n) : ∃ vs, (∀ v ∈ vs, P n v) ∧
      ((∃ a m, attempt x ⟨⟨l, n⟩, j⟩ = some (.ok a, ⟨⟨l, m⟩, (traces vs).reverse ++ j⟩) ∧
          m ≤ l.length ∧ Q n m) ∨
        ∃ e, attempt x ⟨⟨l, n⟩, j⟩ = some (.error e, ⟨⟨l, n⟩, (traces vs).reverse ++ j⟩)) := by
  obtain ⟨r, m, vs, hr, hm, hvs, hok⟩ := hx n j hn hD
  have hr : x ⟨(Input.begin (⟨l, n⟩ : Cursor)).2, j⟩ = _ := hr
  refine ⟨vs, hvs, ?_⟩
  unfold Action.attempt
  simp only [hr]
  cases r with
  | ok a => exact .inl ⟨a, m, rfl, hm, hok a rfl⟩
  | error e => exact .inr ⟨e, rfl⟩

theorem Visits.orElse (hx : Visits l D P Q x) (hy : Visits l D P Q y) :
    Visits l D P Q (orElse x y) := by
  intro n j hn hD
  obtain ⟨vs, hvs, ⟨a, m, hr, hm, hQ⟩ | ⟨e, hr⟩⟩ := hx.attempt_cases j hn hD
  · unfold Action.orElse
    rw [hr]
    exact ⟨_, m, vs, rfl, hm, hvs, fun _ _ => hQ⟩
  · unfold Action.orElse
    rw [hr]
    by_cases he : e.isRecoverable = true
    · obtain ⟨r, m, ws, hr', hm, hws, hok⟩ := hy n ((traces vs).reverse ++ j) hn hD
      simp only [if_pos he, hr']
      refine ⟨r, m, vs ++ ws, ?_, hm, ?_, hok⟩
      · rw [traces_append, List.reverse_append, List.append_assoc]
      · exact fun v hv => (List.mem_append.1 hv).elim (hvs v) (hws v)
    · simp only [if_neg he]
      exact ⟨_, n, vs, rfl, hn, hvs, fun _ ha => by cases ha⟩

/-- A repetition of what reads something ends, if its bound is greater than the number of bytes that
are left. -/
theorem Visits.many (hx : Visits l D P (· < ·) x) (hD : ∀ n m, n < m → D n → D m)
    (hP : ∀ n m v, n < m → P m v → P n v) (bound : Nat) :
    Visits l (fun n => D n ∧ l.length < n + bound) P (· ≤ ·) (many x none bound) := by
  induction bound with
  | zero =>
    rintro n j hn ⟨-, hlength⟩
    omega
  | succ bound ih =>
    rintro n j hn ⟨hDn, hlength⟩
    unfold Action.many
    simp only [reduceCtorEq, if_false]
    obtain ⟨vs, hvs, ⟨a, m, hr, hm, hlt⟩ | ⟨e, hr⟩⟩ := hx.attempt_cases j hn hDn
    · have hmoves : ¬ Input.position (⟨l, m⟩ : Cursor) = Input.position (⟨l, n⟩ : Cursor) :=
        Nat.ne_of_gt hlt
      simp only [hr, if_neg hmoves]
      -- The turns that follow have fewer bytes and a smaller bound.
      obtain ⟨r, k, ws, hr', hk, hws, hok⟩ := ih.map (a :: ·) m ((traces vs).reverse ++ j) hm
        ⟨hD n m hlt hDn, by omega⟩
      refine ⟨r, k, vs ++ ws, ?_, hk, ?_, fun b hb => Nat.le_trans (Nat.le_of_lt hlt) (hok b hb)⟩
      · rw [traces_append, List.reverse_append, List.append_assoc]
        exact hr'
      · intro v hv
        rcases List.mem_append.1 hv with hv | hv
        · exact hvs v hv
        · exact hP n m v hlt (hws v hv)
    · simp only [hr]
      by_cases he : e.isRecoverable = true
      · simp only [if_pos he]
        exact ⟨_, n, vs, rfl, hn, hvs, fun _ _ => Nat.le_refl n⟩
      · simp only [if_neg he]
        exact ⟨_, n, vs, rfl, hn, hvs, fun _ ha => by cases ha⟩

/-- A watched part makes one call, and the calls of the part are the calls within it. -/
theorem Visits.calling {ρ υ : Type} {rules : ρ → Action Cursor CallMark υ} {bound : Nat}
    {g : Grammar ρ υ CallMark α} (hg : Visits l D P Q (g.action rules bound)) {n : Nat}
    (j : List CallMark) (hn : n ≤ l.length) (hD : D n) :
    ∃ r m vs, g.calling.action rules bound ⟨⟨l, n⟩, j⟩ =
        some (r, ⟨⟨l, m⟩, (trace ⟨n, vs⟩).reverse ++ j⟩) ∧ m ≤ l.length ∧ (∀ v ∈ vs, P n v) ∧
      ∀ a, r = .ok a → Q n m := by
  obtain ⟨r, m, vs, hr, hm, hvs, hok⟩ := hg n (.enter n :: j) hn hD
  refine ⟨r, m, vs, ?_, hm, hvs, hok⟩
  have hjournal :
      (trace ⟨n, vs⟩).reverse ++ j = .leave :: ((traces vs).reverse ++ .enter n :: j) := by
    simp
  rw [hjournal]
  show Action.remark _ (g.action rules bound) ⟨⟨l, n⟩, j⟩ = _
  unfold Action.remark
  have hposition : Input.position (⟨l, n⟩ : Cursor) = n := rfl
  have hr : g.action rules bound ⟨⟨l, n⟩, [CallMark.enter n].reverse ++ j⟩ = _ := hr
  simp only [hposition, hr]
  cases r with
  | ok a => rfl
  | error e => rfl

end Action

end StreamParser
