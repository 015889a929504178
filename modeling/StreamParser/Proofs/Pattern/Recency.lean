import Mathlib.Data.List.Dedup
import Mathlib.Data.List.DropRight
import StreamParser.Proofs.Pattern.Cache

/-!
# Which patterns a cache keeps

A cache keeps patterns by regular expression, and the regular expressions in the order of the last
requests for them.

* `PatternCache.Ok` says that the two go together: the same regular expressions are in both, each of
  them once.  Every request keeps this.
* `PatternCache.Ok.get` says what a request does to the order, and `PatternCache.find?_get_of_ne`
  what it does to the patterns of other regular expressions.
* `PatternCache.keeps_most_recent`: the cache keeps the patterns that were asked for most recently, and
  a pattern is compiled anew if and only if it was dropped meanwhile.
-/

namespace StreamParser

/-! ### The last elements of a list -/

section Lists

variable {α : Type}

theorem rtake_of_length_le {l : List α} {n : Nat} (h : l.length ≤ n) : l.rtake n = l := by
  unfold List.rtake
  rw [Nat.sub_eq_zero_of_le h, List.drop_zero]

theorem rtake_append_of_le {l l' : List α} {n : Nat} (h : n ≤ l'.length) :
    (l ++ l').rtake n = l'.rtake n := by
  have hplace : (l ++ l').length - n = l.length + (l'.length - n) := by
    rw [List.length_append]
    omega
  unfold List.rtake
  rw [hplace, ← List.drop_drop, List.drop_left]

variable [DecidableEq α]

/-- Of equal elements the last one is kept. -/
theorem dedup_concat (l : List α) (a : α) : (l ++ [a]).dedup = l.dedup.erase a ++ [a] := by
  induction l with
  | nil => simp
  | cons b l ih =>
    have hmem : b ∈ l ++ [a] ↔ b ∈ l ∨ b = a := by simp
    rw [List.cons_append, List.dedup_cons, List.dedup_cons, ih]
    by_cases hb : b ∈ l
    · rw [if_pos (hmem.2 (.inl hb)), if_pos hb]
    · rw [if_neg hb]
      by_cases ha : b = a
      · have hnot : a ∉ l.dedup := ha ▸ mt List.mem_dedup.1 hb
        rw [if_pos (hmem.2 (.inr ha)), ha, List.erase_cons_head, List.erase_of_not_mem hnot]
      · rw [if_neg fun h => (hmem.1 h).elim hb ha, List.erase_cons_tail (by simpa using ha),
          List.cons_append]

/-- It does not matter whether an element is taken out before or after all but the last ones are. -/
theorem rtake_erase {l : List α} (h : l.Nodup) (a : α) (n : Nat) :
    ((l.rtake (n + 1)).erase a).rtake n = (l.erase a).rtake n := by
  by_cases hl : l.length ≤ n + 1
  · rw [rtake_of_length_le hl]
  · obtain ⟨dropped, hsplit⟩ : ∃ dropped, l = dropped ++ l.rtake (n + 1) :=
      ⟨_, (List.take_append_drop _ l).symm⟩
    have hlength : (l.rtake (n + 1)).length = n + 1 := by
      unfold List.rtake
      rw [List.length_drop]
      omega
    generalize l.rtake (n + 1) = kept at hsplit hlength
    rw [hsplit, List.nodup_append'] at h
    rw [hsplit, List.erase_append]
    by_cases ha : a ∈ dropped
    · rw [if_pos ha, List.erase_of_not_mem (h.2.2 ha), rtake_append_of_le (by omega)]
    · have hle : n ≤ (kept.erase a).length := by
        have := List.length_erase_add_one (l := kept) (a := a)
        by_cases hk : a ∈ kept
        · have := this hk
          omega
        · rw [List.erase_of_not_mem hk]
          omega
      rw [if_neg ha, rtake_append_of_le hle]

end Lists

/-- The regular expression can be compiled. -/
def Pattern.compiles (regex : String) : Bool := (Pattern.compile regex).toBool

theorem Pattern.compiles_of_ok {regex : String} {p : Pattern} (h : Pattern.compile regex = .ok p) :
    Pattern.compiles regex = true := congrArg Except.toBool h

theorem Pattern.not_compiles_of_error {regex : String} {e : PatternError}
    (h : Pattern.compile regex = .error e) : ¬Pattern.compiles regex = true :=
  ne_true_of_eq_false (congrArg Except.toBool h)

namespace PatternCache

variable {c : PatternCache} {regex other : String} {e : Compiled}

/-! ### The patterns of other regular expressions -/

theorem find?_forget_of_ne (h : other ≠ regex) :
    (c.forget regex).find? other = c.find? other := by
  have hlookup : ∀ l : List (String × Compiled),
      (l.filter (·.1 != regex)).lookup other = l.lookup other := by
    intro l
    induction l with
    | nil => rfl
    | cons x l ih =>
      obtain ⟨key, value⟩ := x
      rw [List.filter_cons]
      by_cases hk : key = regex
      · have hne : (other == key) = false := by simpa [hk] using h
        rw [if_neg (by simp [hk]), List.lookup_cons, hne, ih]
      · rw [if_pos (by simpa using hk), List.lookup_cons, List.lookup_cons, ih]
  exact hlookup c.entries

theorem find?_forget_self : (c.forget regex).find? regex = none := by
  refine List.lookup_eq_none_iff.2 fun x hx => ?_
  have hne := (List.mem_filter.1 hx).2
  rwa [bne_comm] at hne

theorem find?_touch (c : PatternCache) (regex other : String) :
    (c.touch regex).find? other = c.find? other := by
  unfold find?
  rw [entries_touch]

theorem find?_put_self : (c.put regex e).find? regex = some e := List.lookup_cons_self

theorem find?_put_of_ne (h : other ≠ regex) : (c.put regex e).find? other = c.find? other := by
  have hne : (other == regex) = false := beq_eq_false_iff_ne.2 h
  rw [← find?_forget_of_ne h (c := c)]
  show List.lookup other ((regex, e) :: (c.forget regex).entries) = _
  rw [List.lookup_cons, hne]
  rfl

/-- To make room changes nothing but that a pattern may be dropped. -/
theorem find?_makeRoom (c : PatternCache) (other : String) :
    c.makeRoom.1.find? other = c.find? other ∨ c.makeRoom.1.find? other = none := by
  unfold makeRoom evict
  split
  · split
    · exact .inl rfl
    · rename_i oldest rest hrecency
      by_cases h : other = oldest
      · exact .inr (h ▸ find?_forget_self)
      · exact .inl (find?_forget_of_ne (c := { c with recency := rest }) h)
  · exact .inl rfl

/-- The pattern of another regular expression stays, or is dropped. -/
theorem find?_get_of_ne (c : PatternCache) (h : other ≠ regex) :
    (c.get regex).2.1.find? other = c.find? other ∨ (c.get regex).2.1.find? other = none := by
  unfold PatternCache.get
  cases c.find? regex with
  | some e => exact .inl (find?_touch c regex other)
  | none =>
    simp only
    cases Pattern.compile regex with
    | error e => exact .inl rfl
    | ok p =>
      simp only [PatternCache.insert]
      split
      · exact .inl rfl
      · rw [find?_put_of_ne h]
        exact find?_makeRoom { c with compiled := c.compiled + 1 } other

/-- What was asked for is kept, if anything is kept under its regular expression. -/
theorem find?_get_self (h : (c.get regex).1 = .ok e) :
    (c.get regex).2.1.find? regex = some e ∨ (c.get regex).2.1.find? regex = none := by
  unfold PatternCache.get at h ⊢
  cases hf : c.find? regex with
  | some e' =>
    rw [hf] at h
    cases h
    exact .inl ((find?_touch c regex regex).trans hf)
  | none =>
    rw [hf] at h
    simp only at h ⊢
    cases hc : Pattern.compile regex with
    | error e => exact .inr hf
    | ok p =>
      rw [hc] at h
      cases h
      simp only [PatternCache.insert]
      split
      · exact .inr hf
      · exact .inl find?_put_self

/-! ### What is kept -/

/-- The two records of a cache go together. -/
structure Ok (c : PatternCache) : Prop where
  coherent : c.Coherent
  /-- No regular expression is in the order twice. -/
  nodup : c.recency.Nodup
  /-- The regular expressions in the order are those under which patterns are kept. -/
  keys_perm : (c.entries.map Prod.fst).Perm c.recency
  length_le : c.recency.length ≤ c.capacity
  /-- The number of a pattern that is kept is not given out again. -/
  number_lt : ∀ x ∈ c.entries, x.2.number < c.compiled

theorem ok_empty (capacity : Nat) : (empty capacity).Ok where
  coherent := coherent_empty capacity
  nodup := .nil
  keys_perm := .refl _
  length_le := Nat.zero_le _
  number_lt _ hx := absurd hx List.not_mem_nil

theorem Ok.contains_iff (h : c.Ok) : c.contains regex = true ↔ regex ∈ c.recency := by
  unfold contains find?
  rw [List.lookup_isSome_iff, ← h.keys_perm.mem_iff, List.mem_map]
  refine exists_congr fun x => and_congr_right fun _ => ?_
  rw [beq_iff_eq, eq_comm]

theorem Ok.size_eq (h : c.Ok) : c.size = c.recency.length := by
  rw [← h.keys_perm.length_eq, List.length_map]
  rfl

theorem Ok.mem_recency_of_find? (h : c.Ok) (hf : c.find? regex = some e) :
    regex ∈ c.recency := by
  rw [← h.contains_iff]
  unfold contains
  rw [hf]
  rfl

theorem Ok.not_mem_recency (h : c.Ok) (hf : c.find? regex = none) : regex ∉ c.recency := by
  rw [← h.contains_iff]
  unfold contains
  rw [hf]
  exact Bool.false_ne_true

/-- The order of a regular expression that is kept, asked for once more. -/
theorem recency_touch (hr : regex ∈ c.recency) :
    (c.touch regex).recency = c.recency.erase regex ++ [regex] := by
  unfold touch
  rw [if_pos hr]

theorem Ok.touch (h : c.Ok) (hr : regex ∈ c.recency) : (c.touch regex).Ok := by
  have hperm : (c.recency.erase regex ++ [regex]).Perm c.recency :=
    (List.perm_append_singleton _ _).trans (List.perm_cons_erase hr).symm
  unfold PatternCache.touch
  rw [if_pos hr]
  exact ⟨h.coherent, hperm.nodup_iff.2 h.nodup, h.keys_perm.trans hperm.symm,
    hperm.length_eq ▸ h.length_le, h.number_lt⟩

/-- What is kept when no pattern is kept under one of the regular expressions any more. -/
theorem keys_forget_perm {l : List String} (h : (c.entries.map Prod.fst).Perm l) (regex : String) :
    ((c.forget regex).entries.map Prod.fst).Perm (l.filter (· != regex)) := by
  have hfilter := h.filter (· != regex)
  rw [List.filter_map] at hfilter
  exact hfilter

theorem filter_ne_eq_self {l : List String} (h : regex ∉ l) : l.filter (· != regex) = l :=
  List.filter_eq_self.2 fun _ hk => bne_iff_ne.2 fun heq => h (heq ▸ hk)

/-- To keep no pattern under the oldest of the regular expressions. -/
theorem Ok.evict (h : c.Ok) {oldest : String} {rest : List String}
    (hr : c.recency = oldest :: rest) : ({ c with recency := rest }.forget oldest).Ok := by
  obtain ⟨hnot, hnodup⟩ := List.nodup_cons.1 (hr ▸ h.nodup)
  have hsub : ({ c with recency := rest }.forget oldest).entries ⊆ c.entries := forget_subset _ _
  have hkeys : (({ c with recency := rest }.forget oldest).entries.map Prod.fst).Perm rest := by
    have hforget := keys_forget_perm (c := { c with recency := rest }) h.keys_perm oldest
    rw [hr, List.filter_cons_of_neg (by simp), filter_ne_eq_self hnot] at hforget
    exact hforget
  refine ⟨fun x hx => h.coherent x (hsub hx), hnodup, hkeys, ?_, fun x hx => h.number_lt x (hsub hx)⟩
  have hlength := h.length_le
  rw [hr] at hlength
  exact Nat.le_of_succ_le hlength

/-- To make room leaves the regular expressions that were asked for most recently, one less than there
may be. -/
theorem Ok.makeRoom (h : c.Ok) (hc : 0 < c.capacity) :
    c.makeRoom.1.Ok ∧ c.makeRoom.1.recency = c.recency.rtake (c.capacity - 1) ∧
      c.makeRoom.1.capacity = c.capacity ∧ c.makeRoom.1.compiled = c.compiled := by
  have hsize := h.size_eq
  have hlength := h.length_le
  unfold PatternCache.makeRoom PatternCache.evict
  by_cases hfull : c.capacity ≤ c.size
  · rw [if_pos hfull]
    split
    · rename_i hr
      rw [hr, List.length_nil] at hsize
      omega
    · rename_i oldest rest hr
      have hrest : (oldest :: rest).rtake (c.capacity - 1) = rest := by
        rw [hr, List.length_cons] at hsize hlength
        have hone : (oldest :: rest).length - (c.capacity - 1) = 1 := by
          rw [List.length_cons]
          omega
        unfold List.rtake
        rw [hone]
        rfl
      rw [hr]
      exact ⟨h.evict hr, hrest.symm, rfl, rfl⟩
  · rw [if_neg hfull]
    have hle : c.recency.length ≤ c.capacity - 1 := by omega
    exact ⟨h, (rtake_of_length_le hle).symm, rfl, rfl⟩

theorem Ok.put (h : c.Ok) (hlt : c.recency.length < c.capacity) (hr : regex ∉ c.recency)
    (hc : Pattern.compile regex = .ok e.pattern) (hn : e.number < c.compiled) :
    (c.put regex e).Ok := by
  have hkeys : ((c.forget regex).entries.map Prod.fst).Perm c.recency := by
    have hforget := keys_forget_perm h.keys_perm regex
    rwa [filter_ne_eq_self hr] at hforget
  have hmem : ∀ x ∈ (c.put regex e).entries, x = (regex, e) ∨ x ∈ c.entries := fun x hx =>
    (List.mem_cons.1 hx).imp id fun hx => forget_subset c regex hx
  refine ⟨fun x hx => ?_, ?_, ?_, ?_, fun x hx => ?_⟩
  · rcases hmem x hx with rfl | hx
    · exact hc
    · exact h.coherent x hx
  · exact (List.perm_append_singleton _ _).nodup_iff.2 (List.nodup_cons.2 ⟨hr, h.nodup⟩)
  · exact (hkeys.cons regex).trans (List.perm_append_singleton _ _).symm
  · show (c.recency ++ [regex]).length ≤ c.capacity
    rw [List.length_append]
    exact hlt
  · rcases hmem x hx with rfl | hx
    · exact hn
    · exact h.number_lt x hx

/-- **To keep one more pattern.**  Its regular expression becomes the last one, and of the others only
as many stay as there is room for. -/
theorem Ok.insert (h : c.Ok) (hr : regex ∉ c.recency)
    (hc : Pattern.compile regex = .ok e.pattern) (hn : e.number < c.compiled) :
    (c.insert regex e).1.Ok ∧ (c.insert regex e).1.capacity = c.capacity ∧
      (c.insert regex e).1.recency = (c.recency ++ [regex]).rtake c.capacity := by
  unfold PatternCache.insert
  by_cases hzero : c.capacity = 0
  · have hnil : c.recency = [] :=
      List.length_eq_zero_iff.1 (Nat.le_zero.1 (hzero ▸ h.length_le))
    rw [if_pos hzero]
    refine ⟨h, rfl, ?_⟩
    rw [hzero, List.rtake_zero]
    exact hnil
  · have hpos : 0 < c.capacity := Nat.pos_of_ne_zero hzero
    obtain ⟨hok, hrecency, hcapacity, hcompiled⟩ := h.makeRoom hpos
    rw [if_neg hzero]
    generalize c.makeRoom.1 = roomy at *
    have hroom : roomy.recency.length < roomy.capacity := by
      rw [hrecency, hcapacity]
      unfold List.rtake
      rw [List.length_drop]
      omega
    have hnot : regex ∉ roomy.recency := by
      rw [hrecency]
      exact fun hmem => hr (List.mem_of_mem_drop hmem)
    refine ⟨hok.put hroom hnot hc (hcompiled ▸ hn), hcapacity, ?_⟩
    have hlast := List.rtake_concat_succ c.recency (c.capacity - 1) regex
    rw [Nat.sub_add_cancel hpos] at hlast
    show roomy.recency ++ [regex] = _
    rw [hrecency, hlast]

/-! ### Requests -/

/-- A regular expression that is not kept is compiled, under a number of its own. -/
theorem get_of_find?_eq_none (hf : c.find? regex = none) {p : Pattern}
    (hp : Pattern.compile regex = .ok p) :
    (c.get regex).1 = .ok ⟨c.compiled, p⟩ ∧
      (c.get regex).2.1 =
        ({ c with compiled := c.compiled + 1 }.insert regex ⟨c.compiled, p⟩).1 := by
  unfold PatternCache.get
  constructor <;> simp only [hf, hp]

theorem get_of_find?_eq_some (hf : c.find? regex = some e) :
    (c.get regex).1 = .ok e ∧ (c.get regex).2.1 = c.touch regex := by
  unfold PatternCache.get
  rw [hf]
  exact ⟨rfl, rfl⟩

/-- A regular expression that does not compile is refused, and changes nothing. -/
theorem Ok.get_of_error (h : c.Ok) {error : PatternError}
    (hp : Pattern.compile regex = .error error) :
    (c.get regex).1 = .error error ∧ (c.get regex).2.1 = c := by
  cases hf : c.find? regex with
  | some e =>
    rw [h.coherent _ (mem_of_find? hf)] at hp
    cases hp
  | none =>
    unfold PatternCache.get
    constructor <;> simp only [hf, hp]

/-- **What a request does to the order.**  The regular expression becomes the last one, and of the
others only as many stay as there is room for. -/
theorem Ok.get (h : c.Ok) (regex : String) :
    (c.get regex).2.1.Ok ∧ (c.get regex).2.1.capacity = c.capacity ∧
      (c.get regex).2.1.recency =
        if Pattern.compiles regex then (c.recency.erase regex ++ [regex]).rtake c.capacity
        else c.recency := by
  cases hp : Pattern.compile regex with
  | error error =>
    rw [(h.get_of_error hp).2, if_neg (Pattern.not_compiles_of_error hp)]
    exact ⟨h, rfl, rfl⟩
  | ok p =>
    rw [if_pos (Pattern.compiles_of_ok hp)]
    cases hf : c.find? regex with
    | some e =>
      have hr := h.mem_recency_of_find? hf
      have hok := h.touch hr
      have hcapacity : (c.touch regex).capacity = c.capacity := by
        unfold PatternCache.touch
        rw [if_pos hr]
      have hlength := hok.length_le
      rw [recency_touch hr, hcapacity] at hlength
      rw [(get_of_find?_eq_some hf).2]
      refine ⟨hok, hcapacity, ?_⟩
      rw [recency_touch hr, rtake_of_length_le hlength]
    | none =>
      have hr := h.not_mem_recency hf
      have hcounted : ({ c with compiled := c.compiled + 1 } : PatternCache).Ok :=
        ⟨h.coherent, h.nodup, h.keys_perm, h.length_le,
          fun x hx => Nat.lt_succ_of_lt (h.number_lt x hx)⟩
      rw [(get_of_find?_eq_none hf hp).2, List.erase_of_not_mem hr]
      exact hcounted.insert hr hp (Nat.lt_succ_self _)

/-- To keep one more pattern gives out no number. -/
theorem compiled_insert (c : PatternCache) (regex : String) (e : Compiled) :
    (c.insert regex e).1.compiled = c.compiled := by
  have hroom : c.makeRoom.1.compiled = c.compiled := by
    unfold PatternCache.makeRoom evict
    split
    · split <;> rfl
    · rfl
  unfold PatternCache.insert
  split
  · rfl
  · exact hroom

/-- The numbers that were given out. -/
theorem Ok.compiled_le_get (h : c.Ok) (regex : String) :
    c.compiled ≤ (c.get regex).2.1.compiled ∧
      ∀ e, (c.get regex).1 = .ok e → e.number < (c.get regex).2.1.compiled := by
  cases hf : c.find? regex with
  | some e =>
    obtain ⟨hresult, hafter⟩ := get_of_find?_eq_some hf
    have hcompiled : (c.touch regex).compiled = c.compiled := by
      unfold PatternCache.touch
      split <;> rfl
    rw [hresult, hafter, hcompiled]
    refine ⟨Nat.le_refl _, fun e' he => ?_⟩
    cases he
    exact h.number_lt _ (mem_of_find? hf)
  | none =>
    cases hp : Pattern.compile regex with
    | error error =>
      obtain ⟨hresult, hafter⟩ := h.get_of_error hp
      rw [hresult, hafter]
      exact ⟨Nat.le_refl _, fun e he => by cases he⟩
    | ok p =>
      obtain ⟨hresult, hafter⟩ := get_of_find?_eq_none hf hp
      have hcompiled : (c.get regex).2.1.compiled = c.compiled + 1 := by
        rw [hafter, compiled_insert]
      rw [hresult, hcompiled]
      refine ⟨Nat.le_succ _, fun e he => ?_⟩
      cases he
      exact Nat.lt_succ_self _

/-! ### Histories -/

/-- The cache after a history of requests. -/
def after (c : PatternCache) (requests : List String) : PatternCache :=
  requests.foldl (fun c regex => (c.get regex).2.1) c

/-- The regular expressions of a history that compile, each of them once, the one that was requested
last at the end. -/
def ranking (requests : List String) : List String :=
  (requests.filter Pattern.compiles).dedup

theorem after_append (c : PatternCache) (requests more : List String) :
    c.after (requests ++ more) = (c.after requests).after more := List.foldl_append

theorem after_cons (c : PatternCache) (regex : String) (requests : List String) :
    c.after (regex :: requests) = (c.get regex).2.1.after requests := rfl

theorem ranking_concat (requests : List String) (regex : String) :
    ranking (requests ++ [regex]) =
      if Pattern.compiles regex then (ranking requests).erase regex ++ [regex]
      else ranking requests := by
  unfold ranking
  rw [List.filter_append]
  by_cases h : Pattern.compiles regex
  · rw [if_pos h, List.filter_cons_of_pos h, List.filter_nil, dedup_concat]
  · rw [if_neg h, List.filter_cons_of_neg h, List.filter_nil, List.append_nil]

/-- **The order after a history.**  It is the end of the ranking, as far as there is room. -/
theorem ok_after (n : Nat) (requests : List String) :
    ((empty n).after requests).Ok ∧ ((empty n).after requests).capacity = n ∧
      ((empty n).after requests).recency = (ranking requests).rtake n := by
  induction requests using List.reverseRecOn with
  | nil => exact ⟨ok_empty n, rfl, (List.rtake_nil n).symm⟩
  | append_singleton requests regex ih =>
    obtain ⟨hok, hcapacity, hrecency⟩ := ih
    obtain ⟨hok', hcapacity', hrecency'⟩ := hok.get regex
    rw [after_append]
    refine ⟨hok', hcapacity'.trans hcapacity, hrecency'.trans ?_⟩
    rw [ranking_concat, hcapacity, hrecency]
    by_cases h : Pattern.compiles regex
    · rw [if_pos h, if_pos h]
      cases n with
      | zero => rw [List.rtake_zero, List.rtake_zero]
      | succ n =>
        have hnodup : (ranking requests).Nodup := List.nodup_dedup _
        rw [List.rtake_concat_succ, List.rtake_concat_succ, rtake_erase hnodup]
    · rw [if_neg h, if_neg h]

/-- The pattern of a regular expression that is not asked for stays, or is dropped. -/
theorem find?_after (c : PatternCache) {requests : List String} (h : regex ∉ requests) :
    (c.after requests).find? regex = c.find? regex ∨ (c.after requests).find? regex = none := by
  induction requests generalizing c with
  | nil => exact .inl rfl
  | cons other requests ih =>
    obtain ⟨hne, hrest⟩ := List.ne_and_not_mem_of_not_mem_cons h
    rw [after_cons]
    rcases ih (c.get other).2.1 hrest with hkept | hnone
    · rw [hkept]
      exact find?_get_of_ne c hne
    · exact .inr hnone

/-- What is kept at the end of a time without requests for it was kept all the time. -/
theorem contains_of_isPrefix (c : PatternCache) {requests p : List String} (h : regex ∉ requests)
    (hp : p <+: requests) (hend : (c.after requests).contains regex = true) :
    (c.after p).contains regex = true := by
  obtain ⟨rest, rfl⟩ := hp
  have hrest : regex ∉ rest := fun hmem => h (List.mem_append_right _ hmem)
  rw [after_append] at hend
  unfold contains at hend ⊢
  rcases find?_after (c.after p) hrest with hkept | hnone
  · rwa [hkept] at hend
  · rw [hnone] at hend
    cases hend

theorem Ok.compiled_le_after (h : c.Ok) (requests : List String) :
    c.compiled ≤ (c.after requests).compiled := by
  induction requests generalizing c with
  | nil => exact Nat.le_refl _
  | cons regex requests ih =>
    exact Nat.le_trans (h.compiled_le_get regex).1 (ih (h.get regex).1)

/-- **When two requests share a pattern.**  Between them it must not be dropped. -/
theorem Ok.number_eq_iff (h : c.Ok) {between : List String} (hbetween : regex ∉ between)
    {e₁ e₂ : Compiled} (h₁ : (c.get regex).1 = .ok e₁)
    (h₂ : ((c.after (regex :: between)).get regex).1 = .ok e₂) :
    e₂.number = e₁.number ↔
      ∀ p, p <+: between → (c.after (regex :: p)).contains regex = true := by
  simp only [after_cons] at h₂ ⊢
  obtain ⟨hok, -, -⟩ := h.get regex
  have hfresh := (h.compiled_le_get regex).2 e₁ h₁
  have hself := find?_get_self h₁
  generalize (c.get regex).2.1 = c₁ at *
  have hlast := find?_after c₁ hbetween
  have hcompiled := hok.compiled_le_after between
  constructor
  · intro hnumber p hp
    refine contains_of_isPrefix c₁ hbetween hp ?_
    unfold contains
    cases hf : (c₁.after between).find? regex with
    | some e => rfl
    | none =>
      -- The pattern is compiled anew, and its number was not given out before.
      exfalso
      cases hc : Pattern.compile regex with
      | ok pattern =>
        rw [(get_of_find?_eq_none hf hc).1] at h₂
        cases h₂
        exact absurd hnumber (by simp only; omega)
      | error error =>
        have hresult : ((c₁.after between).get regex).1 = .error error := by
          unfold PatternCache.get
          simp only [hf, hc]
        rw [hresult] at h₂
        cases h₂
  · intro hkept
    have hend := hkept between List.prefix_rfl
    unfold contains at hend
    obtain ⟨e, hf⟩ := Option.isSome_iff_exists.1 hend
    have he : e = e₁ := by
      rcases hlast with hsame | hnone
      · rw [hf] at hsame
        rcases hself with hself | hself
        · exact Option.some.inj (hsame.trans hself)
        · exact absurd (hsame.trans hself) (Option.some_ne_none e)
      · exact absurd (hf.symm.trans hnone) (Option.some_ne_none e)
    rw [(get_of_find?_eq_some hf).1] at h₂
    cases h₂
    rw [he]

/-- **The most recent patterns are kept.**  After any history of requests the order has the regular
expressions under which patterns are kept, each of them once, and these are the ones that compile and
were requested most recently, as many as there is room for.  A request gives a compiled form of its
own regular expression, or refuses it and changes nothing; and it gives the pattern of the request
before it if and only if that one was kept all the time between the two. -/
theorem keeps_most_recent (n : Nat) (requests : List String) :
    ((empty n).after requests).recency.Nodup ∧
      (((empty n).after requests).entries.map Prod.fst).Perm ((empty n).after requests).recency ∧
      ((empty n).after requests).size ≤ n ∧
      ((empty n).after requests).recency = (ranking requests).rtake n ∧
      (∀ regex, ((empty n).after requests).contains regex = true ↔
        regex ∈ (ranking requests).rtake n) ∧
      (∀ regex, (((empty n).after requests).get regex).1.map Compiled.pattern =
        Pattern.compile regex) ∧
      (∀ regex e, (((empty n).after requests).get regex).1 = .ok e → e.pattern.source = regex) ∧
      (∀ regex error, Pattern.compile regex = .error error →
        (((empty n).after requests).get regex).1 = .error error ∧
          (((empty n).after requests).get regex).2.1 = (empty n).after requests) ∧
      ∀ before regex between e₁ e₂, requests = before ++ regex :: between → regex ∉ between →
        (((empty n).after before).get regex).1 = .ok e₁ →
        (((empty n).after requests).get regex).1 = .ok e₂ →
        (e₂.number = e₁.number ↔ ∀ p, p <+: between →
          ((empty n).after (before ++ regex :: p)).contains regex = true) := by
  obtain ⟨hok, hcapacity, hrecency⟩ := ok_after n requests
  have hcompile := fun regex => (hok.coherent.get regex).1
  refine ⟨hok.nodup, hok.keys_perm, ?_, hrecency, fun regex => ?_, hcompile, fun regex e he => ?_,
    fun regex error hc => hok.get_of_error hc, ?_⟩
  · rw [hok.size_eq]
    exact Nat.le_trans hok.length_le (Nat.le_of_eq hcapacity)
  · rw [hok.contains_iff, hrecency]
  · have hpattern := hcompile regex
    rw [he] at hpattern
    exact source_of_compile hpattern.symm
  · rintro before regex between e₁ e₂ rfl hbetween h₁ h₂
    rw [after_append] at h₂
    simp only [after_append]
    exact (ok_after n before).1.number_eq_iff hbetween h₁ h₂

example : ((empty 2).after ["a", "b", "a", "(", "c"]).recency = ["a", "c"] := by decide

-- A pattern that was kept is given out again, one that was dropped is compiled anew.
example : (((empty 2).after ["a", "b"]).get "a").1.map Compiled.number = .ok 0 ∧
    (((empty 2).after ["a", "b", "c"]).get "a").1.map Compiled.number = .ok 3 := by decide

end PatternCache

end StreamParser
