import StreamParser.Pattern.Cache

/-!
# What a cache answers

`PatternCache.Coherent` says that every pattern in a cache is what its regular expression compiles
to.  A coherent cache answers as the compiler does, and stays coherent.
-/

namespace StreamParser

namespace PatternCache

/-- Every pattern that is kept is the compiled form of its regular expression. -/
def Coherent (c : PatternCache) : Prop :=
  ∀ x ∈ c.entries, Pattern.compile x.1 = .ok x.2.pattern

theorem coherent_empty (capacity : Nat) : (empty capacity).Coherent :=
  fun _ hx => absurd hx List.not_mem_nil

/-- A compiled pattern has the text that it is compiled from. -/
theorem source_of_compile {regex : String} {p : Pattern} (h : Pattern.compile regex = .ok p) :
    p.source = regex := by
  unfold Pattern.compile at h
  split at h <;> cases h
  rfl

/-- What is found is kept. -/
theorem mem_of_find? {c : PatternCache} {regex : String} {e : Compiled}
    (h : c.find? regex = some e) : (regex, e) ∈ c.entries := by
  obtain ⟨before, after, heq, -⟩ := List.lookup_eq_some_iff.1 h
  rw [heq]
  exact List.mem_append_right _ List.mem_cons_self

theorem entries_touch (c : PatternCache) (regex : String) :
    (c.touch regex).entries = c.entries := by
  unfold touch
  split <;> rfl

theorem forget_subset (c : PatternCache) (regex : String) :
    (c.forget regex).entries ⊆ c.entries := fun _ hx => (List.mem_filter.1 hx).1

/-- To make room brings no pattern. -/
theorem makeRoom_subset (c : PatternCache) : c.makeRoom.1.entries ⊆ c.entries := by
  unfold makeRoom evict
  split
  · split
    · exact List.Subset.refl _
    · exact forget_subset _ _
  · exact List.Subset.refl _

/-- To keep one more pattern brings no other pattern. -/
theorem mem_entries_insert {c : PatternCache} {regex : String} {e : Compiled}
    {x : String × Compiled} (hx : x ∈ (c.insert regex e).1.entries) :
    x = (regex, e) ∨ x ∈ c.entries := by
  unfold PatternCache.insert at hx
  split at hx
  · exact .inr hx
  · exact (List.mem_cons.1 hx).imp id fun hx => makeRoom_subset c (forget_subset _ regex hx)

/-- A coherent cache gives what the compiler gives. -/
theorem Coherent.get {c : PatternCache} (h : c.Coherent) (regex : String) :
    (c.get regex).1.map Compiled.pattern = Pattern.compile regex ∧
      (c.get regex).2.1.Coherent := by
  unfold PatternCache.get
  cases hf : c.find? regex with
  | some e =>
    refine ⟨(h _ (mem_of_find? hf)).symm, ?_⟩
    unfold Coherent
    rw [entries_touch]
    exact h
  | none =>
    simp only
    cases hc : Pattern.compile regex with
    | error e => exact ⟨rfl, h⟩
    | ok p =>
      refine ⟨rfl, fun x hx => ?_⟩
      rcases mem_entries_insert hx with rfl | hx
      · exact hc
      · exact h x hx

end PatternCache

end StreamParser
