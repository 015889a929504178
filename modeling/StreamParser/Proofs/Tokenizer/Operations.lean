import StreamParser.Proofs.Tokenizer.Reachable
import StreamParser.Proofs.Tokenizer.Requests

/-!
# Runs of a tokenizer, step by step

* An `Operation` is whatever a client may do with a tokenizer, and `Tokenizer.after` is the tokenizer
  after some operations in a row.  `Client.Performs` says what an operation can do.
* `Tokenizer.Occurs t u` says that `u` occurs in a run from `t`, between two operations or after a
  step in the middle of one.  What every step and every operation keeps is true of all tokenizers
  that occur, as `Tokenizer.Occurs.ok`.
-/

namespace StreamParser

/-- What a client may do with a tokenizer. -/
inductive Operation
  | request (r : Request)
  | close
  | useSkip (p : Option Pattern)
  | useSkipRegex (regex : String)

namespace Client

variable {σ : Type} [Source σ]

/-- Do something with the tokenizer. -/
def perform (c : Client (Tokenizer σ)) : Operation → Client (Tokenizer σ)
  | .request r => (c.ask r).2
  | .close => { c with respondent := c.respondent.close.2 }
  | .useSkip p => { c with respondent := c.respondent.useSkip p }
  | .useSkipRegex regex => { c with respondent := (c.respondent.useSkipRegex regex).2 }

/-- Do one thing after the other. -/
def performAll (c : Client (Tokenizer σ)) (ops : List Operation) : Client (Tokenizer σ) :=
  ops.foldl perform c

@[simp] theorem performAll_nil (c : Client (Tokenizer σ)) : c.performAll [] = c := rfl

@[simp] theorem performAll_cons (c : Client (Tokenizer σ)) (op : Operation)
    (ops : List Operation) : c.performAll (op :: ops) = (c.perform op).performAll ops := rfl

theorem performAll_append (c : Client (Tokenizer σ)) (ops ops' : List Operation) :
    c.performAll (ops ++ ops') = (c.performAll ops).performAll ops' :=
  List.foldl_append

/-! ### What operations do -/

/-- What an operation does: the tokenizer makes some steps, or something is done to a mark or to all,
or the source is closed. -/
inductive Performs (c : Client (Tokenizer σ)) : Operation → Client (Tokenizer σ) → Prop
  | works {op : Operation} {u : Tokenizer σ} (hc : op ≠ .request .commit)
    (hr : ∀ k, op = .request (.release k) → c.marks[k]? = none)
    (hu : Tokenizer.Works c.respondent u) : Performs c op ⟨u, c.marks⟩
  | mark : Performs c (.request .mark) ⟨c.respondent.mark.2, c.marks ++ [c.respondent.mark.1]⟩
  | reset {k : Nat} {m : Mark} (hk : c.marks[k]? = some m) :
    Performs c (.request (.reset k)) ⟨(c.respondent.reset m).2, c.marks⟩
  | release {k : Nat} {m : Mark} (hk : c.marks[k]? = some m) :
    Performs c (.request (.release k)) ⟨(c.respondent.release m).2, c.marks⟩
  | commit : Performs c (.request .commit) ⟨c.respondent.commit, c.marks⟩
  | close : Performs c .close ⟨c.respondent.close.2, c.marks⟩

theorem performs_perform (c : Client (Tokenizer σ)) (op : Operation) :
    Performs c op (c.perform op) := by
  cases op with
  | close => exact .close
  | useSkip p => exact .works (by simp) (by simp) (.aside rfl rfl)
  | useSkipRegex regex => exact .works (by simp) (by simp) (Tokenizer.works_useSkipRegex _ regex)
  | request r =>
    cases r with
    | next regex => exact .works (by simp) (by simp) (Tokenizer.works_next _ regex)
    | nextPattern p => exact .works (by simp) (by simp) (Tokenizer.works_nextPattern _ p)
    | rawNext p => exact .works (by simp) (by simp) (Tokenizer.works_rawNext _ p)
    | hasNext regex => exact .works (by simp) (by simp) (Tokenizer.works_hasNext _ regex)
    | mark => exact .mark
    | commit => exact .commit
    | reset k =>
      show Performs c _ (c.ask (.reset k)).2
      cases hk : c.marks[k]? with
      | none =>
        rw [(ask_of_none hk).1]
        exact .works (by simp) (by simp) .refl
      | some m =>
        rw [(ask_of_some hk).1]
        exact .reset hk
    | release k =>
      show Performs c _ (c.ask (.release k)).2
      cases hk : c.marks[k]? with
      | none =>
        rw [(ask_of_none hk).2]
        refine .works (by simp) ?_ .refl
        intro k' hk'
        cases hk'
        exact hk
      | some m =>
        rw [(ask_of_some hk).2]
        exact .release hk

end Client

namespace Tokenizer

variable {σ : Type} [Source σ]

/-- The tokenizer after some operations. -/
def after (t : Tokenizer σ) (ops : List Operation) : Tokenizer σ :=
  ((Client.start t).performAll ops).respondent

variable {t : Tokenizer σ}

/-! ### What occurs in a run -/

/-- A tokenizer occurs in a run from `t`, between two operations or in the middle of one. -/
inductive Occurs (t : Tokenizer σ) : Tokenizer σ → Prop
  | start : Occurs t t
  | step {u v : Tokenizer σ} (h : Occurs t u) (hv : Step u v) : Occurs t v
  | mark {u : Tokenizer σ} (h : Occurs t u) : Occurs t u.mark.2
  | reset {u : Tokenizer σ} (h : Occurs t u) (m : Mark) : Occurs t (u.reset m).2
  | release {u : Tokenizer σ} (h : Occurs t u) (m : Mark) : Occurs t (u.release m).2
  | commit {u : Tokenizer σ} (h : Occurs t u) : Occurs t u.commit
  | close {u : Tokenizer σ} (h : Occurs t u) : Occurs t u.close.2

namespace Occurs

variable {u v : Tokenizer σ}

theorem works (h : Occurs t u) (hv : Works u v) : Occurs t v := by
  induction hv with
  | refl => exact h
  | tail _ hstep ih => exact ih.step hstep

theorem perform {c : Client (Tokenizer σ)} (h : Occurs t c.respondent) (op : Operation) :
    Occurs t (c.perform op).respondent := by
  have hperforms := Client.performs_perform c op
  generalize c.perform op = c' at hperforms
  cases hperforms with
  | works hc hr hu => exact h.works hu
  | mark => exact h.mark
  | reset hk => exact h.reset _
  | release hk => exact h.release _
  | commit => exact h.commit
  | close => exact h.close

theorem performAll {c : Client (Tokenizer σ)} (h : Occurs t c.respondent) (ops : List Operation) :
    Occurs t (c.performAll ops).respondent := by
  induction ops generalizing c with
  | nil => exact h
  | cons op ops ih => exact ih (h.perform op)

/-- What is there after some operations has occurred. -/
theorem after (t : Tokenizer σ) (ops : List Operation) : Occurs t (t.after ops) :=
  performAll (c := Client.start t) .start ops

end Occurs

/-- Every tokenizer that occurs in a run has a window that is well formed. -/
theorem Occurs.ok {u : Tokenizer σ} (h : Occurs t u) (ht : t.window.Ok) : u.window.Ok := by
  induction h with
  | start => exact ht
  | step h hv ih => exact hv.ok ih
  | mark h ih => exact ih.mark
  | reset h m ih => exact ok_reset ih m
  | release h m ih => exact ih.release m
  | commit h ih =>
    rw [window_commit]
    exact ih.forget
  | close h ih =>
    rw [window_close]
    exact ih

end Tokenizer

end StreamParser
