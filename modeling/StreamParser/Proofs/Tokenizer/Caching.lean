import StreamParser.Proofs.Tokenizer.Mirror
import StreamParser.Proofs.Tokenizer.Operations

/-!
# The cache only saves work

* `Tokenizer.Alike t u` says that two tokenizers differ only in what is kept in their caches, and in
  what the caches have told.  Both caches are coherent, so they answer as the compiler does, and
  whatever a client does with the two tokenizers, it is told the same and they stay alike
  (`Client.Alike.performAll`).
* `Tokenizer.Reachable.alike_next`: to ask for a regular expression is to ask for the pattern that it
  compiles to.
* `Tokenizer.cache_capacity_irrelevant`: tokenizers whose configurations differ in the capacity of the
  cache do the same.
-/

namespace StreamParser

/-- The tokenizer itself tells of the event, and not its cache. -/
def Event.isOwn (e : Event) : Bool := e.target == "braid::tokenizer"

namespace PatternCache

theorem events_makeRoom (c : PatternCache) : c.makeRoom.2.filter Event.isOwn = [] := by
  unfold makeRoom evict
  split
  · split
    · rfl
    · rfl
  · rfl

/-- Of a request to the cache only the cache tells. -/
theorem events_get (c : PatternCache) (regex : String) :
    (c.get regex).2.2.filter Event.isOwn = [] := by
  unfold PatternCache.get
  cases c.find? regex with
  | some e => rfl
  | none =>
    simp only
    cases Pattern.compile regex with
    | error e => rfl
    | ok p =>
      simp only [PatternCache.insert]
      split
      · rfl
      · exact events_makeRoom { c with compiled := c.compiled + 1 }

end PatternCache

namespace Tokenizer

variable {σ : Type}

/-- The two tokenizers differ only in what they keep in their caches and in what the caches have told,
and what is kept there is right. -/
structure Alike (t u : Tokenizer σ) : Prop where
  source_eq : u.source = t.source
  window_eq : u.window = t.window
  phase_eq : u.phase = t.phase
  exhausted_eq : u.exhausted = t.exhausted
  skip_eq : u.skip = t.skip
  events_eq : u.events.filter Event.isOwn = t.events.filter Event.isOwn
  coherent : t.cache.Coherent
  coherent' : u.cache.Coherent

/-- The two tokenizers give the same answer, and are alike after it. -/
structure Together {α : Type} (x y : α × Tokenizer σ) : Prop where
  answer_eq : y.1 = x.1
  alike : Alike x.2 y.2

theorem Together.exists_eq {α : Type} {x y : α × Tokenizer σ} (h : Together x y) :
    ∃ answer t u, x = (answer, t) ∧ y = (answer, u) ∧ Alike t u :=
  ⟨x.1, x.2, y.2, rfl, Prod.ext h.answer_eq rfl, h.alike⟩

variable {t u v : Tokenizer σ}

namespace Alike

theorem refl (h : t.cache.Coherent) : Alike t t := ⟨rfl, rfl, rfl, rfl, rfl, rfl, h, h⟩

theorem symm (h : Alike t u) : Alike u t :=
  ⟨h.source_eq.symm, h.window_eq.symm, h.phase_eq.symm, h.exhausted_eq.symm, h.skip_eq.symm,
    h.events_eq.symm, h.coherent', h.coherent⟩

theorem trans (h : Alike t u) (h' : Alike u v) : Alike t v where
  source_eq := h'.source_eq.trans h.source_eq
  window_eq := h'.window_eq.trans h.window_eq
  phase_eq := h'.phase_eq.trans h.phase_eq
  exhausted_eq := h'.exhausted_eq.trans h.exhausted_eq
  skip_eq := h'.skip_eq.trans h.skip_eq
  events_eq := h'.events_eq.trans h.events_eq
  coherent := h.coherent
  coherent' := h'.coherent'

theorem position_eq (h : Alike t u) : u.position = t.position := congrArg Window.position h.window_eq

/-! ### The same done to both -/

theorem withWindow (h : Alike t u) (w : Window) :
    Alike { t with window := w } { u with window := w } := { h with window_eq := rfl }

theorem withSource (h : Alike t u) (s : σ) :
    Alike { t with source := s } { u with source := s } := { h with source_eq := rfl }

theorem withPhase (h : Alike t u) (phase : Phase) :
    Alike { t with phase := phase } { u with phase := phase } := { h with phase_eq := rfl }

theorem withExhausted (h : Alike t u) (b : Bool) :
    Alike { t with exhausted := b } { u with exhausted := b } := { h with exhausted_eq := rfl }

theorem useSkip (h : Alike t u) (p : Option Pattern) : Alike (t.useSkip p) (u.useSkip p) :=
  { h with skip_eq := rfl }

theorem note (h : Alike t u) (l : List Event) : Alike (t.note l) (u.note l) := by
  refine { h with events_eq := ?_ }
  show (l.reverse ++ u.events).filter _ = (l.reverse ++ t.events).filter _
  rw [List.filter_append, List.filter_append, h.events_eq]

theorem mark (h : Alike t u) : Together t.mark u.mark := by
  unfold Tokenizer.mark
  rw [h.window_eq]
  exact ⟨rfl, h.withWindow _⟩

theorem holds_eq (h : Alike t u) (m : Mark) : u.holds m = t.holds m :=
  congrArg (Window.holds · m) h.window_eq

theorem reset (h : Alike t u) (m : Mark) : Together (t.reset m) (u.reset m) := by
  unfold Tokenizer.reset
  rw [h.holds_eq m, h.window_eq]
  by_cases hm : t.holds m = true
  · rw [if_pos hm, if_pos hm]
    rcases t.window.reset m.offset with e | w
    · exact ⟨rfl, h⟩
    · exact ⟨rfl, h.withWindow w⟩
  · rw [if_neg hm, if_neg hm]
    exact ⟨rfl, h⟩

theorem release (h : Alike t u) (m : Mark) : Together (t.release m) (u.release m) := by
  unfold Tokenizer.release
  rw [h.holds_eq m, h.window_eq]
  exact ⟨rfl, h.withWindow _⟩

theorem commit (h : Alike t u) : Alike t.commit u.commit := by
  unfold Tokenizer.commit
  rw [h.window_eq, h.position_eq]
  by_cases hdropped : t.window.marks.length = 0
  · simp only [if_pos hdropped]
    rw [h.window_eq]
    exact h.withWindow _
  · have hnote := h.note [.committed t.position t.window.marks.length]
    simp only [if_neg hdropped]
    rw [note_window, note_window, h.window_eq]
    exact hnote.withWindow _

/-- The pattern of a regular expression is what it compiles to, and to ask for it changes nothing but
the cache. -/
theorem pattern (h : t.cache.Coherent) (regex : String) :
    (t.pattern regex).1 = (Pattern.compile regex).mapError TokenError.pattern ∧
      Alike t (t.pattern regex).2 := by
  obtain ⟨cache, events, hget, hcoherent, hpattern⟩ := pattern_cases h regex
  have hevents := t.cache.events_get regex
  rw [hget] at hevents
  rw [hpattern]
  refine ⟨rfl, { refl h with events_eq := ?_, coherent' := hcoherent }⟩
  show (events.reverse ++ t.events).filter _ = t.events.filter _
  rw [List.filter_append, List.filter_reverse, hevents]
  rfl

theorem together_pattern (h : Alike t u) (regex : String) :
    Together (t.pattern regex) (u.pattern regex) := by
  obtain ⟨hanswer, halike⟩ := pattern h.coherent regex
  obtain ⟨hanswer', halike'⟩ := pattern h.coherent' regex
  exact ⟨hanswer'.trans hanswer.symm, halike.symm.trans (h.trans halike')⟩

/-! ### Requests -/

variable [Source σ]

theorem read (h : Alike t u) : Together t.read u.read := by
  rcases ht : Source.read t.source t.window.room with ⟨reply, s⟩
  have hu : Source.read u.source u.window.room = (reply, s) := by
    rw [h.source_eq, h.window_eq, ht]
  have hsource := h.withSource s
  unfold Tokenizer.read
  rw [ht, hu]
  cases reply with
  | read bytes count =>
    refine ⟨rfl, ?_⟩
    show Alike _ { u with source := s, window := u.window.receive bytes count }
    rw [h.window_eq]
    exact hsource.withWindow _
  | finished =>
    refine ⟨rfl, ?_⟩
    show Alike _ ({ u with source := s, exhausted := true }.note [.endOfInput u.position])
    rw [h.position_eq]
    exact (hsource.withExhausted true).note [.endOfInput t.position]
  | failed e => exact ⟨rfl, hsource⟩

theorem fill (h : Alike t u) : Together t.fill u.fill := by
  have hread := (h.note [.initialFill t.window.capacity]).read
  obtain ⟨answer, t', u', ht, hu, halike⟩ := hread.exists_eq
  unfold Tokenizer.fill
  rw [h.window_eq, ht, hu]
  cases answer with
  | error e => exact ⟨rfl, halike⟩
  | ok _ => exact ⟨rfl, halike.withPhase .ready⟩

theorem refill (h : Alike t u) : Together t.refill u.refill := by
  unfold Tokenizer.refill
  rw [h.window_eq]
  exact ((h.withWindow t.window.compact).note _).read

end Alike

variable [Source σ]

/-- Tokenizers that are alike take the steps of a request together. -/
theorem mirrors_alike : Mirrors fun t u : Tokenizer σ => Alike t u where
  phase_eq h := h.phase_eq
  effort_eq h := by
    unfold effort
    rw [h.source_eq, h.window_eq]
  verdict_eq h p := by
    unfold verdict
    rw [h.window_eq, h.exhausted_eq]
  isFull_eq h := congrArg Window.isFull h.window_eq
  capacity_eq h := congrArg Window.capacity h.window_eq
  pinned_eq h := congrArg Window.pinned h.window_eq
  note l h := h.note l
  enter _ h := h.withPhase _
  fill h _ := ⟨h.fill.answer_eq, h.fill.alike⟩
  refill h _ _ _ := ⟨h.refill.answer_eq, h.refill.alike⟩

namespace Alike

theorem find (h : Alike t u) (p : Pattern) : Together (t.find p) (u.find p) :=
  have hfind := mirrors_alike.find h p
  ⟨hfind.1, hfind.2⟩

theorem rawNext (h : Alike t u) (p : Pattern) : Together (t.rawNext p) (u.rawNext p) := by
  obtain ⟨answer, t', u', ht, hu, halike⟩ := (h.find p).exists_eq
  unfold Tokenizer.rawNext
  rw [ht, hu]
  cases answer with
  | error e => exact ⟨rfl, halike⟩
  | ok stop =>
    simp only [halike.window_eq]
    rcases t'.window.take stop with e | ⟨token, w⟩
    · exact ⟨rfl, halike⟩
    · exact ⟨rfl, (halike.withWindow w).note _⟩

theorem skipAhead (h : Alike t u) : Together t.skipAhead u.skipAhead := by
  unfold Tokenizer.skipAhead
  rw [h.skip_eq]
  cases t.skip with
  | none => exact ⟨rfl, h⟩
  | some p =>
    obtain ⟨answer, t', u', ht, hu, halike⟩ := (h.rawNext p).exists_eq
    simp only [ht, hu]
    cases answer with
    | ok token => exact ⟨rfl, halike⟩
    | error e =>
      by_cases he : e.isRecoverable = true
      · simp only [if_pos he]
        exact ⟨rfl, halike⟩
      · simp only [if_neg he]
        exact ⟨rfl, halike⟩

theorem nextPattern (h : Alike t u) (p : Pattern) :
    Together (t.nextPattern p) (u.nextPattern p) := by
  obtain ⟨answer, t', u', ht, hu, halike⟩ := h.skipAhead.exists_eq
  unfold Tokenizer.nextPattern
  rw [ht, hu]
  cases answer with
  | error e => exact ⟨rfl, halike⟩
  | ok _ => exact halike.rawNext p

theorem next (h : Alike t u) (regex : String) : Together (t.next regex) (u.next regex) := by
  obtain ⟨answer, t', u', ht, hu, halike⟩ := (h.together_pattern regex).exists_eq
  unfold Tokenizer.next
  rw [ht, hu]
  cases answer with
  | error e => exact ⟨rfl, halike⟩
  | ok p => exact halike.nextPattern p

theorem hasNext (h : Alike t u) (regex : String) :
    Together (t.hasNext regex) (u.hasNext regex) := by
  obtain ⟨answer, t₁, u₁, ht₁, hu₁, halike₁⟩ := (h.together_pattern regex).exists_eq
  unfold Tokenizer.hasNext
  rw [ht₁, hu₁]
  cases answer with
  | error e => exact ⟨rfl, halike₁⟩
  | ok p =>
    obtain ⟨answer, t₂, u₂, ht₂, hu₂, halike₂⟩ := halike₁.skipAhead.exists_eq
    simp only [ht₂, hu₂]
    cases answer with
    | error e => exact ⟨rfl, halike₂⟩
    | ok _ =>
      obtain ⟨answer, t₃, u₃, ht₃, hu₃, halike₃⟩ := (halike₂.find p).exists_eq
      simp only [ht₃, hu₃]
      cases answer with
      | error e => exact ⟨rfl, halike₃⟩
      | ok stop => exact ⟨rfl, halike₃⟩

omit [Source σ] in
theorem useSkipRegex (h : Alike t u) (regex : String) :
    Together (t.useSkipRegex regex) (u.useSkipRegex regex) := by
  obtain ⟨answer, t', u', ht, hu, halike⟩ := (h.together_pattern regex).exists_eq
  unfold Tokenizer.useSkipRegex
  rw [ht, hu]
  cases answer with
  | error e => exact ⟨rfl, halike⟩
  | ok p => exact ⟨rfl, halike.useSkip (some p)⟩

theorem close (h : Alike t u) : Together t.close u.close := by
  have hclosing := (h.withPhase .closed).note [.closing t.position]
  unfold Tokenizer.close
  rw [h.phase_eq, h.position_eq]
  by_cases hp : t.phase = .closed
  · rw [if_pos hp, if_pos hp]
    exact ⟨rfl, h⟩
  · rw [if_neg hp, if_neg hp]
    rcases ht : Source.close t.source with ⟨error, s⟩
    have hu : Source.close u.source = (error, s) := by
      rw [h.source_eq, ht]
    simp only [note_source, ht, hu]
    cases error with
    | none => exact ⟨rfl, hclosing.withSource s⟩
    | some e => exact ⟨rfl, hclosing.withSource s⟩

end Alike

/-! ### Reachable tokenizers -/

theorem Reachable.coherent (h : Reachable t) : t.cache.Coherent := by
  -- what is done to a tokenizer is done to one that is like it, namely itself
  induction h with
  | fresh h => exact h.coherent
  | next h regex ih => exact ((Alike.refl ih).next regex).alike.coherent
  | nextPattern h p ih => exact ((Alike.refl ih).nextPattern p).alike.coherent
  | rawNext h p ih => exact ((Alike.refl ih).rawNext p).alike.coherent
  | hasNext h regex ih => exact ((Alike.refl ih).hasNext regex).alike.coherent
  | mark h ih => exact (Alike.refl ih).mark.alike.coherent
  | reset h m ih => exact ((Alike.refl ih).reset m).alike.coherent
  | release h m ih => exact ((Alike.refl ih).release m).alike.coherent
  | commit h ih => exact (Alike.refl ih).commit.coherent
  | close h ih => exact (Alike.refl ih).close.alike.coherent
  | useSkip h p ih => exact ((Alike.refl ih).useSkip p).coherent
  | useSkipRegex h regex ih => exact ((Alike.refl ih).useSkipRegex regex).alike.coherent

/-- To ask for a regular expression is to ask for the pattern that it compiles to, or is refused
without a change. -/
theorem Reachable.alike_next (h : Reachable t) (regex : String) :
    (∀ p, Pattern.compile regex = .ok p → Together (t.nextPattern p) (t.next regex)) ∧
      ∀ e, Pattern.compile regex = .error e →
        (t.next regex).1 = .error (.pattern e) ∧ Alike t (t.next regex).2 := by
  obtain ⟨hanswer, halike⟩ := Alike.pattern h.coherent regex
  unfold Tokenizer.next
  refine ⟨fun p hc => ?_, fun e hc => ?_⟩ <;> rw [hc] at hanswer <;>
    rcases hp : t.pattern regex with ⟨answer, t'⟩ <;> rw [hp] at hanswer halike <;>
    obtain rfl : answer = _ := hanswer
  · exact halike.nextPattern p
  · exact ⟨rfl, halike⟩

end Tokenizer

/-! ### Clients -/

/-- What a client is told when it does something. -/
inductive Response
  | answer (a : Answer)
  | settled (result : Except TokenError Unit)

namespace Client

variable {σ : Type} [Source σ]

/-- What the client is told. -/
def respond (c : Client (Tokenizer σ)) : Operation → Response
  | .request r => .answer (c.ask r).1
  | .close => .settled c.respondent.close.1
  | .useSkip _ => .settled (.ok ())
  | .useSkipRegex regex => .settled (c.respondent.useSkipRegex regex).1

/-- What the client is told when it does one thing after the other. -/
def responses (c : Client (Tokenizer σ)) : List Operation → List Response
  | [] => []
  | op :: ops => c.respond op :: (c.perform op).responses ops

/-- The clients have the same marks, and tokenizers that are alike. -/
structure Alike (c d : Client (Tokenizer σ)) : Prop where
  marks_eq : d.marks = c.marks
  alike : Tokenizer.Alike c.respondent d.respondent

variable {c d : Client (Tokenizer σ)}

omit [Source σ] in
/-- Both clients have asked, and are told the same. -/
theorem Alike.of_together (h : c.Alike d) {α : Type} {x y : α × Tokenizer σ}
    (hx : Tokenizer.Together x y) :
    y.1 = x.1 ∧ Alike { c with respondent := x.2 } { d with respondent := y.2 } :=
  ⟨hx.answer_eq, h.marks_eq, hx.alike⟩

theorem Alike.ask (h : c.Alike d) (r : Request) :
    (d.ask r).1 = (c.ask r).1 ∧ (c.ask r).2.Alike (d.ask r).2 := by
  cases r with
  | next regex => exact (h.of_together (h.alike.next regex)).imp_left (congrArg Answer.token)
  | nextPattern p => exact (h.of_together (h.alike.nextPattern p)).imp_left (congrArg Answer.token)
  | rawNext p => exact (h.of_together (h.alike.rawNext p)).imp_left (congrArg Answer.token)
  | hasNext regex => exact (h.of_together (h.alike.hasNext regex)).imp_left (congrArg Answer.told)
  | mark =>
    obtain ⟨m, t, u, ht, hu, halike⟩ := h.alike.mark.exists_eq
    show _ ∧ Alike ⟨c.respondent.mark.2, c.marks ++ [c.respondent.mark.1]⟩
      ⟨d.respondent.mark.2, d.marks ++ [d.respondent.mark.1]⟩
    rw [ht, hu, h.marks_eq]
    exact ⟨congrArg Answer.marked (h.alike.mark.answer_eq), rfl, halike⟩
  | commit => exact ⟨rfl, h.marks_eq, h.alike.commit⟩
  | reset k =>
    have hd : d.marks[k]? = c.marks[k]? := by rw [h.marks_eq]
    cases hk : c.marks[k]? with
    | none =>
      rw [(ask_of_none hk).1, (ask_of_none (hd.trans hk)).1]
      exact ⟨rfl, h⟩
    | some m =>
      rw [(ask_of_some hk).1, (ask_of_some (hd.trans hk)).1]
      exact (h.of_together (h.alike.reset m)).imp_left (congrArg Answer.moved)
  | release k =>
    have hd : d.marks[k]? = c.marks[k]? := by rw [h.marks_eq]
    cases hk : c.marks[k]? with
    | none =>
      rw [(ask_of_none hk).2, (ask_of_none (hd.trans hk)).2]
      exact ⟨rfl, h⟩
    | some m =>
      rw [(ask_of_some hk).2, (ask_of_some (hd.trans hk)).2]
      exact (h.of_together (h.alike.release m)).imp_left (congrArg Answer.released)

theorem Alike.perform (h : c.Alike d) (op : Operation) :
    d.respond op = c.respond op ∧ (c.perform op).Alike (d.perform op) := by
  cases op with
  | request r => exact (h.ask r).imp_left (congrArg Response.answer)
  | close => exact (h.of_together h.alike.close).imp_left (congrArg Response.settled)
  | useSkip p => exact ⟨rfl, h.marks_eq, h.alike.useSkip p⟩
  | useSkipRegex regex =>
    exact (h.of_together (h.alike.useSkipRegex regex)).imp_left (congrArg Response.settled)

/-- Whatever is done with tokenizers that are alike, the answers are the same. -/
theorem Alike.performAll (h : c.Alike d) (ops : List Operation) :
    d.responses ops = c.responses ops ∧ (c.performAll ops).Alike (d.performAll ops) := by
  induction ops generalizing c d with
  | nil => exact ⟨rfl, h⟩
  | cons op ops ih =>
    obtain ⟨hresponse, hnext⟩ := h.perform op
    obtain ⟨hresponses, hafter⟩ := ih hnext
    refine ⟨?_, hafter⟩
    unfold responses
    rw [hresponse, hresponses]

end Client

namespace Tokenizer

variable {σ : Type} {t : Tokenizer σ}

/-- Configurations that differ only in the capacity of the cache give tokenizers that are alike, or
none. -/
theorem withConfig_alike (s : σ) (c : Config) {m n : Nat} (hm : 0 < m) (hn : 0 < n) :
    (∃ e, withConfig s { c with cacheCapacity := m } = .error e ∧
        withConfig s { c with cacheCapacity := n } = .error e) ∨
      ∃ t u, withConfig s { c with cacheCapacity := m } = .ok t ∧
        withConfig s { c with cacheCapacity := n } = .ok u ∧ Alike t u := by
  by_cases hb : c.bufferCapacity = 0
  · have hrefused : ∀ k, withConfig s { c with cacheCapacity := k } =
        .error (.invalidArgument "buffer_capacity must be at least 1") := by
      intro k
      unfold withConfig Config.validate
      rw [if_pos hb]
      rfl
    exact .inl ⟨_, hrefused m, hrefused n⟩
  · have hvalid : ∀ k, 0 < k → Config.validate { c with cacheCapacity := k } = .ok () := by
      intro k hk
      unfold Config.validate
      rw [if_neg hb, if_neg (Nat.ne_of_gt hk)]
    unfold withConfig
    rw [hvalid m hm, hvalid n hn]
    cases hskip : c.skipPattern with
    | none =>
      refine .inr ⟨_, _, rfl, rfl, rfl, rfl, rfl, rfl, rfl, rfl, ?_, ?_⟩
      · exact PatternCache.coherent_empty m
      · exact PatternCache.coherent_empty n
    | some regex =>
      obtain ⟨hcompile, hcoherent⟩ := (PatternCache.coherent_empty m).get regex
      obtain ⟨hcompile', hcoherent'⟩ := (PatternCache.coherent_empty n).get regex
      have hevents := (PatternCache.empty m).events_get regex
      have hevents' := (PatternCache.empty n).events_get regex
      have hsame := hcompile'.trans hcompile.symm
      rcases ht : (PatternCache.empty m).get regex with ⟨e | e, cache, events⟩ <;>
        rcases hu : (PatternCache.empty n).get regex with ⟨e' | e', cache', events'⟩ <;>
        rw [ht, hu] at hsame <;> rw [ht] at hcoherent hevents <;> rw [hu] at hcoherent' hevents' <;>
        simp only [ht, hu]
      · cases hsame
        exact .inl ⟨_, rfl, rfl⟩
      · cases hsame
      · cases hsame
      · have hpattern : e'.pattern = e.pattern := Except.ok.inj hsame
        refine .inr ⟨_, _, rfl, rfl, rfl, rfl, rfl, rfl, congrArg some hpattern, ?_, hcoherent,
          hcoherent'⟩
        show events'.reverse.filter _ = events.reverse.filter _
        rw [List.filter_reverse, List.filter_reverse, hevents, hevents']

variable [Source σ]

/-- **The capacity of the cache does not matter.**  Of two configurations that differ only in the
capacity of the cache either both are refused, with the same error, or both give a tokenizer.  Whatever
is done with the two tokenizers then, with any marks at hand, the answers are the same, and so is
everything but the caches after them: positions, windows and what is skipped.  And wherever a client has
come with a tokenizer, to ask for a regular expression is to ask for the pattern that it compiles
to. -/
theorem cache_capacity_irrelevant (s : σ) (c : Config) {m n : Nat} (hm : 0 < m) (hn : 0 < n) :
    ((∃ e, withConfig s { c with cacheCapacity := m } = .error e ∧
        withConfig s { c with cacheCapacity := n } = .error e) ∨
      ∃ t u, withConfig s { c with cacheCapacity := m } = .ok t ∧
        withConfig s { c with cacheCapacity := n } = .ok u ∧
        ∀ (marks : List Mark) (ops : List Operation),
          (Client.mk u marks).responses ops = (Client.mk t marks).responses ops ∧
            Alike ((Client.mk t marks).performAll ops).respondent
              ((Client.mk u marks).performAll ops).respondent) ∧
      ∀ v : Tokenizer σ, Reachable v → ∀ regex,
        (∀ p, Pattern.compile regex = .ok p →
          (v.next regex).1 = (v.nextPattern p).1 ∧ Alike (v.nextPattern p).2 (v.next regex).2) ∧
        ∀ e, Pattern.compile regex = .error e →
          (v.next regex).1 = .error (.pattern e) ∧ Alike v (v.next regex).2 := by
  refine ⟨?_, fun v hv regex => ?_⟩
  · rcases withConfig_alike s c hm hn with hnone | ⟨t, u, ht, hu, halike⟩
    · exact .inl hnone
    · refine .inr ⟨t, u, ht, hu, fun marks ops => ?_⟩
      have hclients : (Client.mk t marks).Alike (Client.mk u marks) := ⟨rfl, halike⟩
      obtain ⟨hresponses, hafter⟩ := hclients.performAll ops
      exact ⟨hresponses, hafter.alike⟩
  · obtain ⟨hok, herror⟩ := hv.alike_next regex
    exact ⟨fun p hc => ⟨(hok p hc).answer_eq, (hok p hc).alike⟩, herror⟩

/-- A tokenizer of two letters that keeps `n` patterns. -/
def keeping (n : Nat) : Tokenizer Script :=
  ⟨⟨[0x61, 0x62], [], none⟩, .empty 4, .uninitialized, false, .empty n, none, []⟩

/-- Ask for two letters, and for what does not compile. -/
def askInTurn : List Operation :=
  [.request (.next "a"), .request (.hasNext "b"), .request (.next "(")]

/-- A cache with room for one pattern drops the first one, and the answers are the same. -/
theorem answers_of_small_cache :
    0 < 1 ∧ 0 < 2 ∧ ((keeping 1).after askInTurn).cache.contains "a" = false ∧
      ((keeping 2).after askInTurn).cache.contains "a" = true ∧
      (Client.start (keeping 2)).responses askInTurn =
        (Client.start (keeping 1)).responses askInTurn := by
  have hone : 0 < 1 := Nat.zero_lt_one
  have htwo : 0 < 2 := Nat.zero_lt_two
  have hboth := (cache_capacity_irrelevant (keeping 1).source ⟨4, 1, none⟩ hone htwo).1
  rcases hboth with ⟨e, hrefused, -⟩ | ⟨t, u, ht, hu, hsame⟩
  · cases hrefused
  · obtain rfl : keeping 1 = t := Except.ok.inj ht
    obtain rfl : keeping 2 = u := Except.ok.inj hu
    exact ⟨hone, htwo, by decide +kernel, by decide +kernel, (hsame [] askInTurn).1⟩

end Tokenizer

end StreamParser
