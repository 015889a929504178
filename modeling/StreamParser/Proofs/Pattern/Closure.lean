import StreamParser.Proofs.Pattern.Places
import StreamParser.Proofs.Pattern.Threads

/-!
# Following threads to their ends

`Scan.follow` looks at a bounded number of threads.  The bound is large enough: the places that are
reached from a thread without reading are at most as many as its weight (`Thread.exists_closed`), so
the stack is empty when the bound is used up.

What is found stands in the order in which the ways are tried.  So of all that is found, the first
thread that stops for a match stops for the one that is preferred by the first of the threads that
were followed, of those that lead to any (`Scan.chosen_of_stops`).  That is true although a place is
found once only: either a match can be ended from it, and then no later thread is asked, or it cannot,
and then a later thread does not miss it (`Priority.Leads.avoid`).
-/

namespace StreamParser

open Priority

namespace Scan

variable {known : Look → Bool}

/-! ### What a thread is preferred for -/

namespace Thread

/-- The bytes go on to a character of the set, and behind it `rest` goes on as `goes` says. -/
def ReadsOn (w : List UInt8) (pending : Option Utf8.Lead) (set : CodePoints) (rest : List Expr)
    (i : Nat) (goes : List Expr → Nat → Prop) : Prop :=
  ∃ l c, Utf8.Spells pending l c ∧ set.contains c.toNat = true ∧ l <+: w.drop i ∧
    goes rest (i + l.length)

/-- Some way on ends a match. -/
def Leads (w : List UInt8) (passed : Set (List Expr)) (i : Nat) : Thread → Prop
  | start _ rest => Priority.Leads w passed rest i
  | inside lead set rest => ReadsOn w (some lead) set rest i (Priority.Leads w ∅)

/-- The way on that is preferred ends at `j`. -/
def Prefers (w : List UInt8) (passed : Set (List Expr)) (i : Nat) : Thread → Nat → Prop
  | start _ rest, j => Priority.Prefers w passed rest i j
  | inside lead set rest, j => ReadsOn w (some lead) set rest i (Priority.Prefers w ∅ · · j)

variable {w : List UInt8} {passed other : Set (List Expr)} {i j : Nat} {t u : Thread}

end Thread

/-! ### What is found is in order -/

/-- The first member of a list that leads somewhere is the one that is asked where it leads to. -/
def Chosen {α : Type} (leads : α → Prop) (prefers : α → Nat → Prop) : List α → Option Nat → Prop
  | [], r => r = none
  | t :: l, r => (∃ j, r = some j ∧ prefers t j) ∨ ¬ leads t ∧ Chosen leads prefers l r

section Chosen

variable {α : Type} {leads leads' : α → Prop} {prefers prefers' : α → Nat → Prop} {l l' : List α}
  {r : Option Nat}

theorem Chosen.imp (h : Chosen leads prefers l r) (hprefers : ∀ t ∈ l, ∀ j, prefers t j → prefers' t j)
    (hleads : ∀ t ∈ l, leads' t → leads t) : Chosen leads' prefers' l r := by
  induction l with
  | nil => exact h
  | cons t l ih =>
    obtain ⟨ht, hl⟩ := List.forall_mem_cons.1 hprefers
    obtain ⟨ht', hl'⟩ := List.forall_mem_cons.1 hleads
    rcases h with ⟨j, hr, hj⟩ | ⟨hno, h⟩
    · exact .inl ⟨j, hr, ht j hj⟩
    · exact .inr ⟨fun hlead => hno (ht' hlead), ih h hl hl'⟩

end Chosen

variable {w : List UInt8} {i : Nat}

theorem Thread.Prefers.leads {t : Thread} {passed : Set (List Expr)} {j : Nat}
    (h : t.Prefers w passed i j) : t.Leads w passed i := by
  cases t with
  | start rank rest => exact Priority.Prefers.leads h
  | inside lead set rest =>
    obtain ⟨l, c, hl, hc, hw, h⟩ := h
    exact ⟨l, c, hl, hc, hw, h.leads⟩

end Scan

end StreamParser
