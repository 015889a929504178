import StreamParser.Proofs.Grammar.Deepening
import StreamParser.Proofs.Grammar.Visits
import StreamParser.Proofs.Json.Soundness

/-!
# How deep values call each other

The grammar of values calls itself through its rule, but only behind an opening bracket.  So every
call begins behind the place where the call around it begins, and there are no more calls within
each other than there are opening brackets.  This is so of every text, well formed or not, and so
the grammar always comes to an answer.

* `brackets l` is the number of bytes of `l` that are opening brackets.
* `Nests l d x` says of a part `x`, over the text `l`, that it ends where less than `d` opening
  brackets are left, and that its calls are at most one deeper than these.  What is between brackets
  is such a part (`nests_separated`, `nests_readMember`), and so is the rule itself
  (`nests_ruleAction`).
* `watched` is the rule with remarks about its calls.  The grammar itself makes none (`silent_value`),
  so that it is read in the same way when it is watched (`run_of_watched`).
* `value_ends_within_brackets`: from every place of every text the grammar of values ends, and its
  calls ascend, and are at most one more than the brackets.
-/

namespace StreamParser.Json

open StreamParser.Action Grammar

/-! ### Opening brackets -/

/-- The number of bytes that are opening brackets. -/
def brackets (l : List UInt8) : Nat := l.countP fun b => b == 0x5B || b == 0x7B

theorem brackets_append (l l' : List UInt8) : brackets (l ++ l') = brackets l + brackets l' :=
  List.countP_append

theorem brackets_drop_le (l : List UInt8) {n m : Nat} (h : n ≤ m) :
    brackets (l.drop m) ≤ brackets (l.drop n) :=
  (List.drop_sublist_drop_left l h).countP_le

theorem brackets_lt_of_le {l : List UInt8} {n m d : Nat} (h : n ≤ m)
    (hd : brackets (l.drop n) < d) : brackets (l.drop m) < d :=
  Nat.lt_of_le_of_lt (brackets_drop_le l h) hd

theorem brackets_le (l : List UInt8) (n : Nat) : brackets (l.drop n) ≤ l.length :=
  Nat.le_trans List.countP_le_length (by rw [List.length_drop]; exact Nat.sub_le _ _)

variable {l : List UInt8} {n m d bound : Nat} {α β : Type}

/-- A sign stands at one place, and its own bytes are those that are counted less behind it. -/
theorem stands_sign {source : String} {c : Char} (h : (sign source c).Stands l n m) :
    n < m ∧ brackets (l.drop n) = brackets (Utf8.encode [c]) + brackets (l.drop m) := by
  obtain ⟨t, hword, rfl, hdrop⟩ := h
  have hbytes : Utf8.bytes t = Utf8.encode [c] := by
    rw [Utf8.bytes_eq_encode, eq_of_matches_sign hword]
  have hlength : 1 ≤ (Utf8.encode [c]).length := Utf8.length_le_length_encode [c]
  rw [hbytes] at hdrop ⊢
  exact ⟨Nat.lt_add_of_pos_right hlength, by rw [hdrop, brackets_append]⟩

/-! ### Calls behind a place -/

/-- A call that begins at the place `n` or later, and is at most one deeper than there are brackets
from there on. -/
structure Within (l : List UInt8) (n : Nat) (v : Visit) : Prop where
  le : n ≤ v.position
  ascends : v.Ascends
  depth_le : v.depth ≤ brackets (l.drop n) + 1

/-- A call that begins behind the place `n`, and is no deeper than there are brackets from there
on. -/
structure Inside (l : List UInt8) (n : Nat) (v : Visit) : Prop where
  lt : n < v.position
  ascends : v.Ascends
  depth_le : v.depth ≤ brackets (l.drop n)

theorem Within.of_le {v : Visit} (hv : Within l m v) (h : n ≤ m) : Within l n v :=
  ⟨Nat.le_trans h hv.le, hv.ascends,
    Nat.le_trans hv.depth_le (Nat.add_le_add_right (brackets_drop_le l h) 1)⟩

/-- What is within the brackets is inside of what begins before them. -/
theorem Within.inside {v : Visit} (hv : Within l m v) (h : n < m)
    (hbrackets : brackets (l.drop m) < brackets (l.drop n)) : Inside l n v :=
  ⟨Nat.lt_of_lt_of_le h hv.le, hv.ascends, Nat.le_trans hv.depth_le hbrackets⟩

/-- A call whose own calls are inside of it. -/
theorem ascends_of_inside {vs : List Visit} (h : ∀ v ∈ vs, Inside l n v) :
    Visit.Ascends ⟨n, vs⟩ :=
  .mk (fun v hv => (h v hv).lt) fun v hv => (h v hv).ascends

theorem depth_le_of_inside {vs : List Visit} (h : ∀ v ∈ vs, Inside l n v) :
    Visit.depth ⟨n, vs⟩ ≤ brackets (l.drop n) + 1 :=
  Nat.add_le_add_right (Visit.depths_le fun v hv => (h v hv).depth_le) 1

/-! ### Parts that make no call -/

theorem calm_readToken (p : Pattern) :
    Calm l (fun n m => ∃ k, n ≤ k ∧ p.Stands l k m) (readToken p) :=
  (Calm.bind (visits_matchPattern spaces) (fun _ => visits_matchPattern p)
    fun _ m _ hspace hword => ⟨m, hspace.le, hword⟩).transaction

theorem calm_token (p : Pattern) : Calm l (· ≤ ·) (readToken p) :=
  (calm_readToken p).weaken fun _ _ ⟨_, hle, hword⟩ => Nat.le_trans hle hword.le

/-- Behind a sign there are the brackets that are not the sign itself. -/
theorem calm_sign (source : String) (c : Char) :
    Calm l (fun n m => n < m ∧ brackets (Utf8.encode [c]) + brackets (l.drop m) ≤
      brackets (l.drop n)) (readToken (sign source c)) := by
  refine (calm_readToken _).weaken fun n m ⟨k, hle, hword⟩ => ?_
  obtain ⟨hlt, hbrackets⟩ := stands_sign hword
  exact ⟨Nat.lt_of_le_of_lt hle hlt, hbrackets ▸ brackets_drop_le l hle⟩

theorem calm_readLexeme (p : Pattern) (read : String → Except Fault α)
    (refusal : String → Fault → String) : Calm l (· ≤ ·) (readLexeme p read refusal) := by
  refine (Calm.bind (calm_token p) (fun t => (?_ : Calm l (· ≤ ·) _))
    fun _ _ _ => Nat.le_trans).transaction
  cases read t with
  | ok a => exact visits_pure a Nat.le_refl
  | error e => exact visits_fail _

/-! ### Parts between brackets -/

/-- Where less than `d` opening brackets are left the part ends, and its calls are at most one
deeper than the brackets. -/
abbrev Nests (l : List UInt8) (d : Nat) (x : Action Cursor CallMark α) : Prop :=
  Visits l (fun n => brackets (l.drop n) < d) (Within l) (· ≤ ·) x

theorem Nests.bind {x : Action Cursor CallMark α} {f : α → Action Cursor CallMark β}
    (hx : Nests l d x) (hf : ∀ a, Nests l d (f a)) : Nests l d (bind x f) :=
  Visits.bind hx hf (fun _ _ hd hle => brackets_lt_of_le hle hd)
    (fun _ _ _ hle hv => hv.of_le hle) fun _ _ _ => Nat.le_trans

theorem nests_separated {x : Action Cursor CallMark α} {y : Action Cursor CallMark β}
    (hx : Nests l d x) (hy : Calm l (· < ·) y) (hbound : l.length < bound) :
    Nests l d (separated x y bound) := by
  have hturn : Visits l (fun n => brackets (l.drop n) < d) (Within l) (· < ·)
      (transaction (Action.bind y fun _ => x)) :=
    (hy.visits.bind (fun _ => hx) (fun _ _ hd hlt => brackets_lt_of_le (Nat.le_of_lt hlt) hd)
      (fun _ _ _ hlt hv => hv.of_le (Nat.le_of_lt hlt))
      fun _ _ _ => Nat.lt_of_lt_of_le).transaction
  have hturns : Nests l d (many (transaction (Action.bind y fun _ => x)) none bound) :=
    (hturn.many (fun _ _ hlt hd => brackets_lt_of_le (Nat.le_of_lt hlt) hd)
      (fun _ _ _ hlt hv => hv.of_le (Nat.le_of_lt hlt)) bound).mono
      (fun n hd => ⟨hd, Nat.lt_of_lt_of_le hbound (Nat.le_add_left bound n)⟩) (fun _ _ h => h)
      fun _ _ h => h
  refine Nests.bind ((hx.map some).orElse (visits_pure none Nat.le_refl)) fun first => ?_
  cases first with
  | none => exact visits_pure [] Nat.le_refl
  | some first => exact hturns.map (first :: ·)

/-- What is enclosed is inside of what begins before the opening bracket. -/
theorem visits_enclosed (source : String) (c : Char) (hc : brackets (Utf8.encode [c]) = 1)
    (closing : Pattern) {x : Action Cursor CallMark α} (hx : Nests l d x) :
    Visits l (fun n => brackets (l.drop n) < d + 1) (Inside l) (· ≤ ·)
      (enclosed (sign source c) closing x) := by
  have hcontents : Nests l d
      (Action.commit (transaction (Action.bind x fun a =>
        Action.bind (readToken closing) fun _ => pure a))) :=
    (Nests.bind hx fun a => Nests.bind (calm_token closing).visits fun _ =>
      visits_pure a Nat.le_refl).transaction.commit
  have hopening : Calm l (fun n m => n < m ∧ 1 + brackets (l.drop m) ≤ brackets (l.drop n))
      (readToken (sign source c)) := hc ▸ calm_sign source c
  refine (hopening.visits.bind (fun _ => hcontents) ?_ ?_ ?_).transaction
  · rintro n m hd ⟨-, hfewer⟩
    omega
  · rintro n m v ⟨hlt, hfewer⟩ hv
    exact hv.inside hlt (by omega)
  · rintro n m k ⟨hlt, -⟩ hle
    exact Nat.le_trans (Nat.le_of_lt hlt) hle

theorem calm_comma : Calm l (· < ·) (readToken (sign "," ',')) :=
  (calm_sign "," ',').weaken fun _ _ h => h.1

section Value

variable {x : Action Cursor CallMark Value} (hx : Nests l d x)
include hx

theorem nests_readMember : Nests l d (readMember x) :=
  (Nests.bind (calm_readLexeme _ _ _).visits fun k =>
    (Nests.bind (calm_token _).visits fun _ => hx).transaction.map (k, ·)).transaction

theorem visits_readArray (hbound : l.length < bound) :
    Visits l (fun n => brackets (l.drop n) < d + 1) (Inside l) (· ≤ ·) (readArray x bound) :=
  (visits_enclosed "\\[" '[' rfl _ (nests_separated hx calm_comma hbound)).map Value.array

theorem visits_readObject (hbound : l.length < bound) :
    Visits l (fun n => brackets (l.drop n) < d + 1) (Inside l) (· ≤ ·) (readObject x bound) :=
  (visits_enclosed "\\\x7b" '\x7b' rfl _
    (nests_separated (nests_readMember hx) calm_comma hbound)).map Value.ofMembers

/-- The calls of a value are inside of it. -/
theorem visits_readValue (hbound : l.length < bound) :
    Visits l (fun n => brackets (l.drop n) < d + 1) (Inside l) (· ≤ ·) (readValue x bound) := by
  have hnothing : Calm l (· ≤ ·) (readToken nothing) := calm_token nothing
  have hnull := hnothing.map fun _ => Value.null
  have htruth : Calm l (· ≤ ·) (readToken truth) := calm_token truth
  have hboolean := htruth.map fun t => Value.boolean (t == "true")
  have hnumber : Calm l (· ≤ ·) readNumber := calm_readLexeme _ _ _
  have hstring : Calm l (· ≤ ·) readString := calm_readLexeme _ _ _
  have hscalar := ((hnull.orElse hboolean).orElse hnumber).orElse (hstring.map Value.string)
  unfold readValue
  exact ((Calm.visits hscalar).orElse (visits_readObject hx hbound)).orElse (visits_readArray hx hbound)

end Value

/-! ### The grammar, watched -/

section Silent

variable {ρ ν ν' : Type}

theorem silent_number :
    (number : Grammar ρ Value ν Value).silent = (number : Grammar ρ Value ν' Value) := by
  unfold number
  rw [silent_andThen]
  congr 1
  funext t
  cases Number.ofText t with
  | ok n => rfl
  | error e => rfl

theorem silent_string :
    (string : Grammar ρ Value ν String).silent = (string : Grammar ρ Value ν' String) := by
  unfold string
  rw [silent_andThen]
  congr 1
  funext t
  cases StringLiteral.ofText t with
  | ok s => rfl
  | error e => rfl

theorem silent_property (item : ρ) : (property item : Grammar ρ Value ν (String × Value)).silent =
    (property item : Grammar ρ Value ν' (String × Value)) := by
  unfold property
  rw [silent_seq, silent_string]
  rfl

theorem silent_object (item : ρ) :
    (object item : Grammar ρ Value ν Value).silent = (object item : Grammar ρ Value ν' Value) := by
  unfold object
  simp only [silent_map, silent_skipLeft, silent, silent_skip, silent_separatedByZeroOrMore,
    silent_property]
  rfl

theorem silent_array (item : ρ) :
    (array item : Grammar ρ Value ν Value).silent = (array item : Grammar ρ Value ν' Value) := by
  unfold array
  simp only [silent_map, silent_skipLeft, silent, silent_skip, silent_separatedByZeroOrMore]
  rfl

/-- The grammar itself makes no remarks. -/
theorem silent_value (item : ρ) :
    (value item : Grammar ρ Value ν Value).silent = (value item : Grammar ρ Value ν' Value) := by
  unfold value
  simp only [silent, silent_number, silent_map, silent_string, silent_object, silent_array]
  rfl

end Silent

/-- What the rule reads, with remarks about its calls. -/
def watched : Unit → Grammar Unit Value CallMark Value := fun () => (value ()).calling

theorem silent_watched : (fun u => (watched u).silent) = valueRule :=
  funext fun _ => silent_value ()

/-- The calls of a watched value, which is read by what it calls. -/
theorem visits_calling {rules : Unit → Action Cursor CallMark Value} (hrules : Nests l d (rules ()))
    (hbound : l.length < bound) (j : List CallMark) (hn : n ≤ l.length)
    (hd : brackets (l.drop n) < d + 1) :
    ∃ r m vs, (value ()).calling.action rules bound ⟨⟨l, n⟩, j⟩ =
        some (r, ⟨⟨l, m⟩, (Visit.trace ⟨n, vs⟩).reverse ++ j⟩) ∧ m ≤ l.length ∧
      (∀ v ∈ vs, Inside l n v) ∧ ∀ a, r = .ok a → n ≤ m := by
  have hvalue := visits_readValue hrules hbound
  rw [← action_value bound ()] at hvalue
  exact hvalue.calling j hn hd

/-- The induction is on the depth to which the rule may call itself: what it calls stands behind a
bracket, so that there is one bracket less. -/
theorem nests_ruleAction (hbound : l.length < bound) (d : Nat) :
    Nests l d (ruleAction watched bound d ()) := by
  induction d with
  | zero => exact fun n _ _ hd => absurd hd (Nat.not_lt_zero _)
  | succ d ih =>
    intro n j hn hd
    obtain ⟨r, m, vs, hr, hm, hvs, hok⟩ := visits_calling ih hbound j hn hd
    have hwithin : Within l n ⟨n, vs⟩ :=
      ⟨Nat.le_refl n, ascends_of_inside hvs, depth_le_of_inside hvs⟩
    refine ⟨r, m, [⟨n, vs⟩], ?_, hm, List.forall_mem_singleton.2 hwithin, hok⟩
    rw [Visit.traces_cons, Visit.traces_nil, List.append_nil]
    exact hr

/-- What is read is read in the same way when it is watched. -/
theorem run_of_watched {r : Except ParseError Value} {s : Session Cursor CallMark} {c : Cursor}
    (h : run watched bound (value ()).calling ⟨c, []⟩ = some (r, s)) :
    run valueRule bound (value ()) ⟨c, []⟩ = some (r, ⟨s.input, []⟩) := by
  have hsame : SameAnswer (run watched bound (value ()).calling ⟨c, []⟩)
      (run (fun u => (watched u).silent) bound (value ()).silent
        (⟨c, []⟩ : Session Cursor Empty)) :=
    run_silent watched bound (value ()).calling c [] []
  rw [h, silent_watched, silent_value] at hsame
  obtain ⟨j, hj⟩ := hsame.of_some
  cases j with
  | nil => exact hj
  | cons a j => exact a.elim

/-- From every place of every text the grammar of values comes to an answer, whatever the bound, if
it is greater than the length of the text.  The journal is that of one call, with all the others
within it; each call begins behind the place where the call around it begins; and at most one more
of them than there are opening brackets are open at the same time. -/
theorem value_ends_within_brackets (c : Cursor) (hc : c.position ≤ c.bytes.length) :
    ∃ r m, ∃ v : Visit,
      (∀ bound, c.bytes.length < bound →
        run valueRule bound (value ()) ⟨c, []⟩ = some (r, ⟨⟨c.bytes, m⟩, []⟩) ∧
          run watched bound (value ()).calling ⟨c, []⟩ =
            some (r, ⟨⟨c.bytes, m⟩, v.trace.reverse⟩)) ∧
      m ≤ c.bytes.length ∧ v.position = c.position ∧ v.Ascends ∧
        v.depth ≤ brackets c.bytes + 1 := by
  obtain ⟨l, n⟩ := c
  have hbound : l.length < l.length + 1 := Nat.lt_succ_self _
  obtain ⟨r, m, vs, hr, hm, hvs, -⟩ := visits_calling (nests_ruleAction hbound (l.length + 1))
    hbound [] hc (Nat.lt_succ_of_le (Nat.le_succ_of_le (brackets_le l n)))
  rw [List.append_nil] at hr
  refine ⟨r, m, ⟨n, vs⟩, fun bound hlt => ?_, hm, rfl, ascends_of_inside hvs, ?_⟩
  · have hwatched := run_extends watched hlt (value ()).calling _ _ hr
    exact ⟨run_of_watched hwatched, hwatched⟩
  · exact Nat.le_trans (depth_le_of_inside hvs)
      (Nat.add_le_add_right (brackets_drop_le l (Nat.zero_le n)) 1)

/-- Behind the first bracket of a text that breaks off within others. -/
def breakingOff : Cursor := ⟨Utf8.bytes "[[1],\x7b\"a\":[", 1⟩

theorem breakingOff_ends :
    breakingOff.position ≤ breakingOff.bytes.length ∧ brackets breakingOff.bytes = 4 ∧
      ∃ r m, ∃ v : Visit,
        (∀ bound, breakingOff.bytes.length < bound →
          run valueRule bound (value ()) ⟨breakingOff, []⟩ =
              some (r, ⟨⟨breakingOff.bytes, m⟩, []⟩) ∧
            run watched bound (value ()).calling ⟨breakingOff, []⟩ =
              some (r, ⟨⟨breakingOff.bytes, m⟩, v.trace.reverse⟩)) ∧
        m ≤ breakingOff.bytes.length ∧ v.position = breakingOff.position ∧ v.Ascends ∧
          v.depth ≤ brackets breakingOff.bytes + 1 :=
  ⟨by decide, by decide, value_ends_within_brackets breakingOff (by decide)⟩

/-- The bound is reached: a text of one bracket makes one call within another. -/
example : ((run watched 2 (value ()).calling ⟨Cursor.start "[", []⟩).map fun x =>
    x.2.journal.reverse) = some (Visit.trace ⟨0, [⟨1, []⟩]⟩) := by
  simp only [run, calling, action, action_value, ruleAction, watched]
  decide +kernel

end StreamParser.Json
