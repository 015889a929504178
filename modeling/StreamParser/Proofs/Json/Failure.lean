import StreamParser.Proofs.Grammar.Endings
import StreamParser.Proofs.Json.Steps

/-!
# How reading a document fails

A document that cannot be read is given back, or it is not: what decides is whether the bracket
that opens an array or an object was consumed (`isOpening`).  `firm_readNested` says that a value
fails for good after such a bracket, however deep it is nested, and `failure_of_parseTokens` says
what that means for a document that is read from a tokenizer.
-/

namespace StreamParser.Json

open StreamParser.Action Grammar

/-- The pattern is that of an opening bracket. -/
def isOpening (source : String) : Bool := source == "\\[" || source == "\\\x7b"

variable {σ ν α β : Type} [Source σ]

/-- To skip white space and to match a token decides nothing. -/
theorem quiet_readToken {p : Pattern} (hp : p.asciiOnly = false) (hq : isOpening p.source = false) :
    Ends isOpening Quiet (readToken p : Action (Stream σ) ν String) :=
  ((quiet_matchPattern rfl rfl).quiet_bind_quiet fun _ => quiet_matchPattern hp hq).quiet_transaction

/-- Unless it is an opening bracket. -/
theorem opens_readToken {p : Pattern} (hp : p.asciiOnly = false) (hq : isOpening p.source = true) :
    Ends isOpening Opens (readToken p : Action (Stream σ) ν String) :=
  ((quiet_matchPattern rfl rfl).quiet_bind_opens fun _ => opens_matchPattern hp hq).opens_transaction

theorem quiet_readLexeme {p : Pattern} (hp : p.asciiOnly = false) (hq : isOpening p.source = false)
    (read : String → Except Fault α) (refusal : String → Fault → String) :
    Ends isOpening Quiet (readLexeme p read refusal : Action (Stream σ) ν α) := by
  refine ((quiet_readToken hp hq).quiet_bind_quiet fun t => ?_).quiet_transaction
  cases read t with
  | ok a => exact quiet_pure a
  | error e => exact quiet_fail rfl

theorem quiet_readString : Ends isOpening Quiet (readString : Action (Stream σ) ν String) :=
  quiet_readLexeme rfl (by decide) _ _

theorem quiet_readEnd : Ends isOpening Quiet (readEnd : Action (Stream σ) ν Unit) :=
  ((quiet_matchPattern rfl rfl).quiet_bind_quiet fun _ =>
    (quiet_matchPattern rfl rfl).quiet_bind_quiet fun _ => quiet_pure ()).quiet_transaction

variable {x : Action (Stream σ) ν α} {y : Action (Stream σ) ν β}

/-- A list ends where there is no other thing, or it fails for good. -/
theorem final_separated (hx : Ends isOpening Firm x) (hy : Ends isOpening Quiet y) (bound : Nat) :
    Ends isOpening Final (separated x y bound) := by
  have hfirst : Ends isOpening Loose (bind x fun a => pure (some a)) :=
    (hx.mono fun _ _ _ h => h.loose).loose_bind_loose fun a =>
      (quiet_pure (some a)).mono fun _ _ _ h => h.firm.loose
  have hnext : Ends isOpening Loose (transaction (bind y fun _ => x)) :=
    (hy.quiet_bind_firm fun _ => hx).firm_transaction.mono fun _ _ _ h => h.loose
  refine (hfirst.final_orElse (final_pure none)).final_bind_final fun first => ?_
  cases first with
  | none => exact final_pure []
  | some first =>
    exact (hnext.many none bound).final_bind_final fun rest => final_pure (first :: rest)

/-- The opening bracket decides: all that fails after it fails for good. -/
theorem firm_enclosed {opening closing : Pattern} (hp : opening.asciiOnly = false)
    (hopening : isOpening opening.source = true) (hq : closing.asciiOnly = false)
    (hclosing : isOpening closing.source = false) (hx : Ends isOpening Final x) :
    Ends isOpening Firm (enclosed opening closing x) := by
  have hclose : ∀ a : α, Ends isOpening Loose (bind (readToken closing) fun _ => pure a :
      Action (Stream σ) ν α) := fun a =>
    ((quiet_readToken hq hclosing).quiet_bind_quiet fun _ => quiet_pure a).mono
      fun _ _ _ h => h.firm.loose
  have hcontents := (hx.mono fun _ _ _ h => h.firm.loose).loose_bind_loose hclose
  exact ((opens_readToken hp hopening).opens_bind_pledged fun _ =>
    hcontents.loose_transaction.commit).firm_transaction

section

variable {x : Action (Stream σ) ν Value} (hx : Ends isOpening Firm x) (bound : Nat)

include hx

theorem firm_readMember : Ends isOpening Firm (readMember x) := by
  have hvalue : Ends isOpening Firm (transaction (bind (readToken (sign ":" ':')) fun _ => x)) :=
    ((quiet_readToken rfl (by decide)).quiet_bind_firm fun _ => hx).firm_transaction
  exact (quiet_readString.quiet_bind_firm fun k => hvalue.firm_map _).firm_transaction

theorem firm_readObject : Ends isOpening Firm (readObject x bound) :=
  (firm_enclosed rfl (by decide) rfl (by decide)
    (final_separated (firm_readMember hx) (quiet_readToken rfl (by decide)) bound)).firm_map _

theorem firm_readArray : Ends isOpening Firm (readArray x bound) :=
  (firm_enclosed rfl (by decide) rfl (by decide)
    (final_separated hx (quiet_readToken rfl (by decide)) bound)).firm_map _

/-- A value is firm if the values inside it are. -/
theorem firm_readValue : Ends isOpening Firm (readValue x bound) := by
  have hnull : Ends isOpening Quiet (bind (readToken nothing) fun _ => pure Value.null :
      Action (Stream σ) ν Value) :=
    (quiet_readToken rfl (by decide)).quiet_bind_quiet fun _ => quiet_pure _
  have hboolean : Ends isOpening Quiet (bind (readToken truth) fun t =>
      pure (Value.boolean (t == "true")) : Action (Stream σ) ν Value) :=
    (quiet_readToken rfl (by decide)).quiet_bind_quiet fun _ => quiet_pure _
  have hnumber : Ends isOpening Quiet (readNumber : Action (Stream σ) ν Value) :=
    quiet_readLexeme rfl (by decide) _ _
  have hstring : Ends isOpening Quiet (bind readString fun s => pure (.string s) :
      Action (Stream σ) ν Value) := quiet_readString.quiet_bind_quiet fun _ => quiet_pure _
  have hfirm : ∀ {z : Action (Stream σ) ν Value}, Ends isOpening Quiet z →
      Ends isOpening Firm z := fun hz => hz.mono fun _ _ _ h => h.firm
  have hloose : ∀ {z : Action (Stream σ) ν Value}, Ends isOpening Firm z →
      Ends isOpening Loose z := fun hz => hz.mono fun _ _ _ h => h.loose
  have hliteral := (hloose (hfirm hnull)).firm_orElse (hfirm hboolean)
  have hscalar := (hloose ((hloose hliteral).firm_orElse (hfirm hnumber))).firm_orElse
    (hfirm hstring)
  exact (hloose ((hloose hscalar).firm_orElse (firm_readObject hx bound))).firm_orElse
    (firm_readArray hx bound)

end

/-- A value is firm, however deep it is nested. -/
theorem firm_readNested (bound n : Nat) :
    Ends isOpening Firm (readNested bound n : Action (Stream σ) ν Value) := by
  induction n with
  | zero =>
    intro s r s' hs hr
    cases hr
  | succ n ih => exact firm_readValue ih bound

/-- **How reading a document fails.**  Let a document be read from any reachable tokenizer that holds
no mark.  If that fails, no mark is held afterwards.  If no opening bracket was consumed, the position
is where it was.  If one was consumed, the failure cannot be recovered from: it is that of a committed
part, unless the tokenizer could not go on, for want of room, because a read failed or because it is
closed; then that is reported as it is. -/
theorem failure_of_parseTokens {t t' : Tokenizer σ} (ht : t.Reachable) (hm : t.window.marks = [])
    (bound : Nat) {e : ParseError} (h : parseTokens bound t = some (.error e, t')) :
    t'.window.marks = [] ∧ ∃ new, t'.events = new ++ t.events ∧
      ((∀ event ∈ new, event.consumes isOpening = false) → t'.position = t.position) ∧
      ((∃ event ∈ new, event.consumes isOpening = true) → e.isRecoverable = false ∧
        ((∃ n cause, e = .committed n cause ∧ cause.isRecoverable = true) ∨
          ∃ e', e = .token e' ∧ (e'.isShortage = true ∨ e' = .noSuchElement .closed))) := by
  have hwhole : Ends isOpening Loose (bind (readNested bound (bound + 1)) fun v =>
      bind readEnd fun _ => pure v : Action (Stream σ) Empty Value) :=
    ((firm_readNested bound _).mono fun _ _ _ h => h.loose).loose_bind_loose fun v =>
      (quiet_readEnd.quiet_bind_quiet fun _ => quiet_pure v).mono fun _ _ _ h => h.firm.loose
  rw [parseTokens_eq] at h
  obtain ⟨⟨r, s'⟩, hrun, hr⟩ := Option.map_eq_some_iff.1 h
  cases hr
  -- nothing is tried around a document
  have hattempt : attempt (bind (readNested bound (bound + 1)) fun v =>
      bind readEnd fun _ => pure v) (⟨Stream.start t, []⟩ : Session (Stream σ) Empty) =
      some (.error e, s') := hrun
  obtain ⟨told, ⟨new, hnew, htold⟩, hsettled, hback, hfinal⟩ :=
    hwhole.attempt_error (s := ⟨Stream.start t, []⟩) ht.ok hattempt
  refine ⟨?_, new, hnew, fun hnone => ?_, fun ⟨event, hmem, hevent⟩ => ?_⟩
  · rw [hsettled.marks_eq]
    cases told
    · exact hm
    · rfl
  · refine hback ?_
    rw [← htold, List.any_eq_false]
    exact fun event hmem => by simp [hnone event hmem]
  · have hfinal := hfinal (by rw [← htold]; exact List.any_eq_true.2 ⟨event, hmem, hevent⟩)
    exact ⟨hfinal.not_isRecoverable, hfinal⟩

/-- A tokenizer of an array whose source fails behind the bracket. -/
def interrupted : Tokenizer Script :=
  ⟨⟨[0x5B, 0x5D], [.hand 1, .fail ⟨.other, "boom"⟩], none⟩, .empty 4, .uninitialized, false,
    .empty 1, none, []⟩

/-- The bracket was consumed, so the failure of the source is final. -/
theorem interrupted_is_final : interrupted.Reachable ∧ interrupted.window.marks = [] ∧
    ∃ e t', parseTokens 3 interrupted = some (.error e, t') ∧ t'.window.marks = [] ∧
      t'.position = 1 ∧ e.isRecoverable = false := by
  have hreachable : interrupted.Reachable := .fresh (.inr ⟨⟨4, 1, none⟩, rfl⟩)
  have hresult : (parseTokens 3 interrupted).map (fun x => (x.1.toBool, x.2.position)) =
      some (false, 1) := by
    rw [parseTokens_eq]
    decide +kernel
  obtain ⟨⟨e | v, t'⟩, hparse, hends⟩ := Option.map_eq_some_iff.1 hresult
  · obtain ⟨-, hposition⟩ := Prod.mk.inj hends
    obtain ⟨hmarks, new, -, hback, hfinal⟩ := failure_of_parseTokens hreachable rfl 3 hparse
    refine ⟨hreachable, rfl, e, t', hparse, hmarks, hposition, ?_⟩
    by_cases hnone : ∀ event ∈ new, event.consumes isOpening = false
    · cases hposition.symm.trans (hback hnone)
    · simp only [not_forall, Bool.not_eq_false] at hnone
      obtain ⟨event, hmem, hevent⟩ := hnone
      exact (hfinal ⟨event, hmem, hevent⟩).1
  · cases hends

end StreamParser.Json
