import StreamParser.Proofs.Text.Boundaries
import StreamParser.Proofs.Tokenizer.Bounds
import StreamParser.Proofs.Tokenizer.Caching
import StreamParser.Proofs.Tokenizer.Failure

/-!
# What is consumed is what the events tell of

* `Event.consumed events` are the tokens that were consumed, as the events tell of them, put together.
* `Tokenizer.Spends new t u`: from `t` to `u` the events `new` happened, and the bytes of the stream
  that were consumed are those of the tokens that the events tell of.  To take a token spends this
  token (`Tokenizer.spends_take`), and nothing else does.
* Every operation but going back spends something, or nothing (`Client.spends_perform`), and so does
  a run of such operations (`Client.spends_performAll`).
-/

namespace StreamParser

/-! ### What events tell of -/

namespace Event

/-- The token that was consumed, if the event tells of one. -/
def token? : Event → Option String
  | .matched _ token => some token
  | _ => none

/-- The tokens that events tell of, put together.  The last event comes first. -/
def consumed (events : List Event) : String := String.join (events.reverse.filterMap token?)

theorem bytes_consumed_append (new' new : List Event) :
    Utf8.bytes (consumed (new' ++ new)) = Utf8.bytes (consumed new) ++ Utf8.bytes (consumed new') := by
  unfold consumed
  rw [List.reverse_append, List.filterMap_append, Utf8.bytes_join, List.flatMap_append,
    ← Utf8.bytes_join, ← Utf8.bytes_join]

/-- Of other events nothing is consumed. -/
theorem consumed_eq_empty {events : List Event}
    (h : events.any (consumes fun _ => true) = false) : consumed events = "" := by
  have hnone : events.reverse.filterMap token? = [] := by
    rw [List.filterMap_eq_nil_iff]
    intro e he
    have hconsumes := List.any_eq_false.1 h e (List.mem_reverse.1 he)
    cases e with
    | matched q token => exact absurd rfl hconsumes
    | _ => rfl
  unfold consumed
  rw [hnone]
  rfl

end Event

namespace Tokenizer

variable {σ : Type}

/-- The bytes of the stream before the position, as far as they were delivered. -/
def spent (t : Tokenizer (Recorded σ)) : List UInt8 := t.source.delivered.take t.position

/-- From `t` to `u` the events `new` happened, and what was consumed are the tokens that they tell
of. -/
structure Spends (new : List Event) (t u : Tokenizer (Recorded σ)) : Prop where
  events_eq : u.events = new ++ t.events
  position_eq : u.position = t.position + (Utf8.bytes (Event.consumed new)).length
  delivered_prefix : t.source.delivered <+: u.source.delivered
  honest : u.source.honest = true → t.source.honest = true
  spent_eq : u.source.honest = true → u.spent = t.spent ++ Utf8.bytes (Event.consumed new)

section Spends

variable {new new' : List Event} {t u v : Tokenizer (Recorded σ)}

theorem Spends.refl (t : Tokenizer (Recorded σ)) : Spends [] t t where
  events_eq := rfl
  position_eq := rfl
  delivered_prefix := List.prefix_rfl
  honest h := h
  spent_eq _ := (List.append_nil _).symm

theorem Spends.trans (h : Spends new t u) (h' : Spends new' u v) : Spends (new' ++ new) t v where
  events_eq := by rw [h'.events_eq, h.events_eq, List.append_assoc]
  position_eq := by
    rw [h'.position_eq, h.position_eq, Event.bytes_consumed_append, List.length_append,
      Nat.add_assoc]
  delivered_prefix := h.delivered_prefix.trans h'.delivered_prefix
  honest hv := h.honest (h'.honest hv)
  spent_eq hv := by
    rw [h'.spent_eq hv, h.spent_eq (h'.honest hv), Event.bytes_consumed_append, List.append_assoc]

/-- Where no token is told of and the position stays, nothing is consumed. -/
theorem exists_spends_of_notes (hnotes : Notes (fun _ => true) false t u)
    (hposition : u.position = t.position) (hsource : u.source = t.source) :
    ∃ new, Spends new t u := by
  obtain ⟨new, hnew, hnone⟩ := hnotes
  have hempty := Event.consumed_eq_empty hnone
  refine ⟨new, hnew, ?_, ?_, ?_, ?_⟩
  · rw [hempty, hposition]
    rfl
  · exact hsource ▸ List.prefix_rfl
  · exact hsource ▸ id
  · intro _
    unfold spent
    rw [hempty, hposition, hsource]
    exact (List.append_nil _).symm

end Spends

/-- The bytes up to a place are those up to an earlier one and those between. -/
theorem take_add_eq (l : List UInt8) (d : Nat) {i j : Nat} (h : i ≤ j) :
    l.take (d + j) = l.take (d + i) ++ ((l.drop d).take j).drop i := by
  have hbetween : ((l.drop d).take j).drop i = (l.take (d + j)).drop (d + i) := by
    rw [List.take_drop, List.drop_drop]
  have hfirst : l.take (d + i) = (l.take (d + j)).take (d + i) := by
    rw [List.take_take, Nat.min_eq_left (Nat.add_le_add_left h d)]
  rw [hbetween, hfirst, List.take_append_drop]

variable [Source σ] {t u : Tokenizer (Recorded σ)}

/-- What was delivered stays delivered, and a source that was not honest does not become so. -/
theorem Step.delivered (h : Step t u) : t.source.delivered <+: u.source.delivered ∧
    (u.source.honest = true → t.source.honest = true) := by
  cases h with
  | aside hw hs =>
    rw [hs]
    exact ⟨List.prefix_rfl, id⟩
  | compact => exact ⟨List.prefix_rfl, id⟩
  | take hv hw => exact ⟨List.prefix_rfl, id⟩
  | read =>
    rcases read_cases t with ⟨bytes, count, s, hs, hr⟩ | ⟨s, hs, hr⟩ | ⟨e, s, hs, hr⟩ <;> rw [hr] <;>
      obtain ⟨hdelivered, hhonest⟩ := Recorded.read_eq hs
    all_goals
      refine ⟨⟨_, hdelivered.symm⟩, fun hyes => ?_⟩
      have hyes : s.honest = true := hyes
      rw [hhonest, Bool.and_eq_true] at hyes
      exact hyes.1

theorem Works.delivered (h : Works t u) : t.source.delivered <+: u.source.delivered ∧
    (u.source.honest = true → t.source.honest = true) := by
  induction h with
  | refl => exact ⟨List.prefix_rfl, id⟩
  | tail _ hstep ih => exact ⟨ih.1.trans hstep.delivered.1, fun hu => ih.2 (hstep.delivered.2 hu)⟩

/-- The window is well formed and holds what was delivered. -/
structure Holding (t : Tokenizer (Recorded σ)) : Prop where
  ok : t.window.Ok
  stores : t.Stores

theorem Holding.works (h : t.Holding) (hu : Works t u) : u.Holding :=
  ⟨hu.ok h.ok, (Occurs.start.works hu).stores h.ok h.stores⟩

omit [Source σ] in
/-- What was consumed was delivered before. -/
theorem Holding.position_le (h : t.Holding) (hhonest : t.source.honest = true) :
    t.position ≤ t.source.delivered.length := by
  rw [(h.stores hhonest).2]
  exact Nat.add_le_add_left h.ok.cursor_le _

/-- A search consumes nothing. -/
theorem spends_find (h : t.Holding) (p : Pattern) : ∃ new, Spends new t (t.find p).2 := by
  obtain ⟨new, hnew, hnone⟩ := notes_find h.ok (fun _ => true) p
  have hempty := Event.consumed_eq_empty hnone
  have hposition := (samePlace_find h.ok p).2.1.position_eq
  obtain ⟨hdelivered, hhonest⟩ := (works_find t p).delivered
  refine ⟨new, hnew, ?_, hdelivered, hhonest, fun hyes => ?_⟩
  · rw [hempty, hposition]
    rfl
  · obtain ⟨more, hmore⟩ := hdelivered
    unfold spent
    rw [hempty, hposition, ← hmore, List.take_append_of_le_length (h.position_le (hhonest hyes))]
    exact (List.append_nil _).symm

omit [Source σ] in
/-- To take a token spends the token. -/
theorem spends_take (h : t.Holding) {p : Pattern} {stop : Nat} {token : String} {w : Window}
    (hv : t.verdict p = .found stop) (hw : t.window.take stop = .ok (token, w)) :
    Spends [.matched p.source token] t ({ t with window := w }.note [.matched p.source token]) := by
  obtain ⟨hle, hstop⟩ := Pattern.matchAt_le h.ok.cursor_le (matchAt_of_found hv)
  have hconsumed : Event.consumed [.matched p.source token] = token := by
    simp [Event.consumed, Event.token?]
  have hbytes : Utf8.bytes token = (t.window.filled.take stop).drop t.window.cursor :=
    Utf8.bytes_of_text? (Window.text_of_take hw)
  have hposition : t.window.position = t.window.discarded + t.window.cursor := rfl
  rw [Window.eq_of_take hw]
  refine ⟨rfl, ?_, List.prefix_rfl, id, fun hhonest => ?_⟩
  · rw [hconsumed, hbytes, List.length_drop, List.length_take_of_le hstop]
    show t.window.discarded + stop = t.window.discarded + t.window.cursor + (stop - t.window.cursor)
    omega
  · obtain ⟨hfilled, -⟩ := h.stores hhonest
    rw [hconsumed, hbytes, hfilled]
    exact take_add_eq t.source.delivered t.window.discarded hle

/-! ### Every operation but going back -/

theorem spends_rawNext (h : t.Holding) (p : Pattern) : ∃ new, Spends new t (t.rawNext p).2 := by
  have hfind := spends_find h p
  have hworks := works_find t p
  rcases rawNext_cases t p with ⟨e, t', hf, hr⟩ | ⟨stop, t', e, hf, -, hr⟩ |
    ⟨stop, t', token, w, hf, htake, hr⟩ <;> rw [hf] at hfind hworks <;> rw [hr]
  · exact hfind
  · exact hfind
  · obtain ⟨new, hnew⟩ := hfind
    exact ⟨_, hnew.trans (spends_take (h.works hworks) (verdict_of_find hf) htake)⟩

theorem spends_skipAhead (h : t.Holding) : ∃ new, Spends new t t.skipAhead.2 :=
  skipAhead_of_rawNext (P := fun u => ∃ new, Spends new t u) ⟨[], .refl t⟩ (spends_rawNext h)

theorem spends_nextPattern (h : t.Holding) (p : Pattern) :
    ∃ new, Spends new t (t.nextPattern p).2 := by
  have hskip := spends_skipAhead h
  have hworks := works_skipAhead t
  unfold nextPattern
  rcases hr : t.skipAhead with ⟨e | _, t'⟩ <;> rw [hr] at hskip hworks
  · exact hskip
  · obtain ⟨new, hnew⟩ := hskip
    obtain ⟨new', hnew'⟩ := spends_rawNext (h.works hworks) p
    exact ⟨_, hnew.trans hnew'⟩

omit [Source σ] in
/-- The cache tells of no token. -/
theorem spends_pattern (t : Tokenizer (Recorded σ)) (regex : String) :
    ∃ new, Spends new t (t.pattern regex).2 := by
  have hevents := PatternCache.events_get t.cache regex
  unfold pattern
  rcases hget : t.cache.get regex with ⟨r, cache, events⟩
  rw [hget] at hevents
  have hquiet : events.reverse.any (Event.consumes fun _ => true) = false := by
    rw [List.any_reverse, List.any_eq_false]
    intro e he hconsumes
    have hown := List.filter_eq_nil_iff.1 hevents e he
    cases e with
    | matched q token => exact hown rfl
    | _ => cases hconsumes
  have hnotes : Notes (fun _ => true) false t ({ t with cache := cache }.note events) :=
    ⟨events.reverse, rfl, hquiet⟩
  cases r with
  | error e => exact exists_spends_of_notes hnotes rfl rfl
  | ok e => exact exists_spends_of_notes hnotes rfl rfl

theorem spends_next (h : t.Holding) (regex : String) : ∃ new, Spends new t (t.next regex).2 := by
  have hpattern := spends_pattern t regex
  have hworks := works_pattern t regex
  unfold next
  rcases hr : t.pattern regex with ⟨e | p, t'⟩ <;> rw [hr] at hpattern hworks
  · exact hpattern
  · obtain ⟨new, hnew⟩ := hpattern
    obtain ⟨new', hnew'⟩ := spends_nextPattern (h.works hworks) p
    exact ⟨_, hnew.trans hnew'⟩

theorem spends_hasNext (h : t.Holding) (regex : String) :
    ∃ new, Spends new t (t.hasNext regex).2 := by
  have hpattern := spends_pattern t regex
  have hworks := works_pattern t regex
  unfold hasNext
  rcases hr : t.pattern regex with ⟨e | p, t₁⟩ <;> rw [hr] at hpattern hworks
  · exact hpattern
  · have hholding := h.works hworks
    obtain ⟨new₁, hnew₁⟩ := hpattern
    obtain ⟨new₂, hnew₂⟩ := spends_skipAhead hholding
    have hskipped := hholding.works (works_skipAhead t₁)
    simp only
    rcases hs : t₁.skipAhead with ⟨e | _, t₂⟩ <;> rw [hs] at hnew₂ hskipped
    · exact ⟨_, hnew₁.trans hnew₂⟩
    · obtain ⟨new₃, hnew₃⟩ := spends_find hskipped p
      rcases hf : t₂.find p with ⟨e | stop, t₃⟩ <;> rw [hf] at hnew₃ <;> simp only [hf]
      · exact ⟨_, (hnew₁.trans hnew₂).trans hnew₃⟩
      · exact ⟨_, (hnew₁.trans hnew₂).trans hnew₃⟩

omit [Source σ] in
theorem spends_useSkipRegex (t : Tokenizer (Recorded σ)) (regex : String) :
    ∃ new, Spends new t (t.useSkipRegex regex).2 := by
  obtain ⟨new, hnew⟩ := spends_pattern t regex
  unfold useSkipRegex
  rcases hr : t.pattern regex with ⟨e | p, t'⟩ <;> rw [hr] at hnew
  · exact ⟨new, hnew⟩
  · exact ⟨new, hnew.events_eq, hnew.position_eq, hnew.delivered_prefix, hnew.honest, hnew.spent_eq⟩

theorem spends_close (t : Tokenizer (Recorded σ)) : ∃ new, Spends new t t.close.2 := by
  obtain ⟨hdelivered, hhonest⟩ := Recorded.close_eq t.source
  unfold close
  by_cases hp : t.phase = .closed
  · rw [if_pos hp]
    exact ⟨[], .refl t⟩
  · rw [if_neg hp]
    rcases hs : Source.close t.source with ⟨e, s⟩
    rw [hs] at hdelivered hhonest
    have hclosing : Spends [.closing t.position] t
        { { t with phase := .closed }.note [.closing t.position] with source := s } := by
      refine ⟨rfl, rfl, ⟨[], ?_⟩, fun hyes => hhonest ▸ hyes, fun _ => ?_⟩
      · exact (List.append_nil _).trans hdelivered.symm
      · exact (congrArg (List.take t.position) hdelivered).trans (List.append_nil _).symm
    simp only [note_source, hs]
    cases e with
    | none => exact ⟨_, hclosing⟩
    | some e => exact ⟨_, hclosing⟩

omit [Source σ] in
theorem spends_commit (t : Tokenizer (Recorded σ)) : ∃ new, Spends new t t.commit :=
  exists_spends_of_notes (notes_commit _ t) (by unfold position; rw [window_commit]; rfl)
    (source_commit t)

end Tokenizer

/-! ### Runs -/

/-- The operation goes back to a mark. -/
def Operation.goesBack : Operation → Bool
  | .request (.reset _) => true
  | _ => false

namespace Client

open Tokenizer (Spends Holding Occurs)

variable {σ : Type} [Source σ]

/-- Every operation but going back spends something, or nothing. -/
theorem spends_perform {c : Client (Tokenizer (Recorded σ))} (h : c.respondent.Holding)
    {op : Operation} (hop : op.goesBack = false) :
    ∃ new, Spends new c.respondent (c.perform op).respondent := by
  cases op with
  | close => exact Tokenizer.spends_close c.respondent
  | useSkip p => exact Tokenizer.exists_spends_of_notes (.of_eq rfl) rfl rfl
  | useSkipRegex regex => exact Tokenizer.spends_useSkipRegex c.respondent regex
  | request r =>
    cases r with
    | next regex => exact Tokenizer.spends_next h regex
    | nextPattern p => exact Tokenizer.spends_nextPattern h p
    | rawNext p => exact Tokenizer.spends_rawNext h p
    | hasNext regex => exact Tokenizer.spends_hasNext h regex
    | mark => exact Tokenizer.exists_spends_of_notes (.of_eq rfl) rfl rfl
    | commit => exact Tokenizer.spends_commit c.respondent
    | reset k => cases hop
    | release k =>
      show ∃ new, Spends new c.respondent (c.ask (.release k)).2.respondent
      cases hk : c.marks[k]? with
      | none =>
        rw [(ask_of_none hk).2]
        exact ⟨[], .refl _⟩
      | some m =>
        rw [(ask_of_some hk).2]
        exact Tokenizer.exists_spends_of_notes (.of_eq rfl) rfl rfl

theorem holding_perform {c : Client (Tokenizer (Recorded σ))} (h : c.respondent.Holding)
    (op : Operation) : (c.perform op).respondent.Holding :=
  ⟨(Occurs.start.perform op).ok h.ok, (Occurs.start.perform op).stores h.ok h.stores⟩

/-- So does a run of such operations. -/
theorem spends_performAll {c : Client (Tokenizer (Recorded σ))} (h : c.respondent.Holding)
    {ops : List Operation} (hops : ∀ op ∈ ops, op.goesBack = false) :
    ∃ new, Spends new c.respondent (c.performAll ops).respondent := by
  induction ops generalizing c with
  | nil => exact ⟨[], .refl _⟩
  | cons op ops ih =>
    obtain ⟨hop, hops⟩ := List.forall_mem_cons.1 hops
    obtain ⟨new, hnew⟩ := spends_perform h hop
    obtain ⟨new', hnew'⟩ := ih (holding_perform h op) hops
    exact ⟨_, hnew.trans hnew'⟩

end Client

end StreamParser
