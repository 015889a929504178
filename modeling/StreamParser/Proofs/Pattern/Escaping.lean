import StreamParser.Pattern
import StreamParser.Proofs.Text.Utf8

/-!
# Escaped texts

`Pattern.literal t` reads back what `Pattern.escape` has written: a regular expression in which each
character of `t` stands for itself (`Pattern.literal_eq`).

`escape` puts a backslash before the characters that mean something else; the others are read as
they stand.  Either way one turn of the reader reads one character (`Reader.groupBody_written`), and
so many turns read a text (`Reader.groupBody_escaped`).
-/

namespace StreamParser

namespace Pattern

/-- A character as it is written to stand for itself. -/
def written (c : Char) : List Char := if isMeta c then ['\\', c] else [c]

theorem toList_escape (t : String) : (escape t).toList = t.toList.flatMap written :=
  String.toList_ofList

/-- The expression that matches a text as it stands. -/
def letters (x : List Char) : Expr := Expr.sequence (x.map fun c => .chars (CodePoints.single c))

theorem isMeta_iff {c : Char} : isMeta c = true ↔ c ∈ "\\.+*?()|[]\x7b\x7d^$#&-~".toList := by
  unfold isMeta
  simp

theorem ne_of_not_isMeta {c d : Char} (hc : isMeta c = false)
    (hd : d ∈ "\\.+*?()|[]\x7b\x7d^$#&-~".toList) : c ≠ d := by
  rintro rfl
  rw [isMeta_iff.2 hd] at hc
  cases hc

end Pattern

namespace Regex.Reader

open Pattern

variable {c : Char} {rest : List Char} {o : Nat} {names : List String}

/-! ### Steps of the reader -/

theorem bind_of_ok {α β : Type} {m : Reader α} {f : α → Reader β} {p q : Place} {a : α}
    (h : m p = .ok (a, q)) : (m >>= f) p = f a q := by
  show Except.bind (m p) _ = _
  rw [h]
  rfl

theorem skipSpace_off : skipSpace ⟨rest, o, false, names⟩ = .ok ((), ⟨rest, o, false, names⟩) := rfl

theorem peek_eq (p : Place) : peek p = .ok (p.rest.head?, p) := rfl

theorem skip_cons : skip ⟨c :: rest, o, false, names⟩ =
    .ok ((), ⟨rest, o + c.utf8Size, false, names⟩) := rfl

theorem offset_eq (p : Place) : offset p = .ok (p.offset, p) := rfl

theorem spanNext_cons : spanNext ⟨c :: rest, o, false, names⟩ =
    .ok (⟨o, o + c.utf8Size⟩, ⟨c :: rest, o, false, names⟩) := rfl

theorem spanFrom_eq (start : Nat) (p : Place) : spanFrom start p = .ok (⟨start, p.offset⟩, p) := rfl

/-! ### One character -/

/-- A character that means nothing else is read as it stands. -/
theorem primitive_of_not_isMeta (hc : isMeta c = false) :
    primitive c ⟨c :: rest, o, false, names⟩ =
      .ok (.literal ⟨⟨o, o + c.utf8Size⟩, c, false⟩, ⟨rest, o + c.utf8Size, false, names⟩) := by
  unfold primitive
  rw [if_neg (ne_of_not_isMeta hc (by decide)), bind_of_ok spanNext_cons, bind_of_ok skip_cons,
    if_neg (ne_of_not_isMeta hc (by decide)), if_neg (ne_of_not_isMeta hc (by decide)),
    if_neg (ne_of_not_isMeta hc (by decide))]
  rfl

/-- The others are read as they stand behind a backslash. -/
theorem primitive_of_isMeta (hc : isMeta c = true) :
    primitive '\\' ⟨'\\' :: c :: rest, o, false, names⟩ =
      .ok (.literal ⟨⟨o, o + 1 + c.utf8Size⟩, c, false⟩,
        ⟨rest, o + 1 + c.utf8Size, false, names⟩) := by
  have hall : ∀ d ∈ "\\.+*?()|[]\x7b\x7d^$#&-~".toList, d.isDigit = false ∧
      ¬ (d = 'x' || d = 'u' || d = 'U') ∧ ¬ (d = 'p' || d = 'P') ∧ letterClass? d = none ∧
      isEscapable d = true :=
    Utf8.forall_of_all (by decide)
  obtain ⟨hdigit, hhex, hproperty, hclass, hescapable⟩ := hall c (isMeta_iff.1 hc)
  unfold primitive escape
  rw [if_pos rfl, bind_of_ok (offset_eq _), bind_of_ok skip_cons, bind_of_ok (peek_eq _)]
  simp only [List.head?_cons, hdigit, Bool.false_eq_true, if_false]
  rw [if_neg hhex, if_neg hproperty, bind_of_ok skip_cons, bind_of_ok (spanFrom_eq _ _)]
  simp only [hclass, if_pos hescapable]
  rfl

/-- What begins with no other sign is a primitive. -/
theorem groupBody_of_primitive {d : Char} {l : Literal} {q : Place}
    (hd : d ∉ ['(', ')', '|', '[', '\x7b', '?', '*', '+'])
    (hprimitive : primitive d ⟨d :: rest, o, false, names⟩ = .ok (.literal l, q)) (n : Nat)
    (g : OpenGroup) : groupBody (n + 1) g ⟨d :: rest, o, false, names⟩ =
      groupBody n { g with trees := .literal l :: g.trees } q := by
  simp only [List.mem_cons, List.not_mem_nil, or_false, not_or] at hd
  obtain ⟨h₁, h₂, h₃, h₄, h₅, h₆, h₇, h₈⟩ := hd
  rw [groupBody, bind_of_ok skipSpace_off, bind_of_ok (peek_eq _)]
  simp only [List.head?_cons, h₆, h₇, h₈, decide_false, Bool.or_self, Bool.false_eq_true, if_false]
  exact bind_of_ok hprimitive

/-- One turn reads one character. -/
theorem groupBody_written (c : Char) (rest : List Char) (o : Nat) (names : List String) (n : Nat)
    (g : OpenGroup) : ∃ l : Literal, ∃ o', l.char = c ∧ l.asByte = false ∧
      groupBody (n + 1) g ⟨written c ++ rest, o, false, names⟩ =
        groupBody n { g with trees := .literal l :: g.trees } ⟨rest, o', false, names⟩ := by
  unfold written
  by_cases hc : isMeta c = true
  · rw [if_pos hc]
    exact ⟨_, _, rfl, rfl, groupBody_of_primitive (by decide) (primitive_of_isMeta hc) n g⟩
  · have hc : isMeta c = false := by simpa using hc
    have hd : c ∉ ['(', ')', '|', '[', '\x7b', '?', '*', '+'] := fun hmem =>
      ne_of_not_isMeta hc
        ((Utf8.forall_of_all (by decide) : ∀ d ∈ ['(', ')', '|', '[', '\x7b', '?', '*', '+'],
          d ∈ "\\.+*?()|[]\x7b\x7d^$#&-~".toList) c hmem) rfl
    rw [hc]
    exact ⟨_, _, rfl, rfl, groupBody_of_primitive hd (primitive_of_not_isMeta hc) n g⟩

/-! ### A text -/

/-- The rest of a text is read character by character to its end. -/
theorem groupBody_escaped (x : List Char) {n : Nat} (hn : x.length < n) (g : OpenGroup)
    (hg : g.parenthesis = none) (o : Nat) (names : List String) :
    ∃ ls : List Literal, ∃ stop q, ls.map (·.char) = x ∧ (∀ l ∈ ls, l.asByte = false) ∧
      groupBody n g ⟨x.flatMap written, o, false, names⟩ =
        .ok ({ g with trees := (ls.map Tree.literal).reverse ++ g.trees }.whole stop, q) := by
  induction x generalizing n g o with
  | nil =>
    obtain ⟨n, rfl⟩ := Nat.exists_eq_succ_of_ne_zero (Nat.ne_of_gt hn)
    refine ⟨[], o, ⟨[], o, false, names⟩, rfl, fun l hl => absurd hl List.not_mem_nil, ?_⟩
    rw [groupBody, List.flatMap_nil, bind_of_ok skipSpace_off, bind_of_ok (peek_eq _)]
    simp only [List.head?_nil, hg]
    rfl
  | cons c x ih =>
    obtain ⟨n, rfl⟩ := Nat.exists_eq_succ_of_ne_zero (Nat.ne_zero_of_lt hn)
    obtain ⟨l, o', hchar, hbyte, hturn⟩ := groupBody_written c (x.flatMap written) o names n g
    obtain ⟨ls, stop, q, hls, hbytes, hbody⟩ :=
      ih (Nat.lt_of_succ_lt_succ hn) { g with trees := .literal l :: g.trees } hg o'
    refine ⟨l :: ls, stop, q, ?_, List.forall_mem_cons.2 ⟨hbyte, hbytes⟩, ?_⟩
    · rw [List.map_cons, hchar, hls]
    · rw [List.flatMap_cons, hturn, hbody, List.map_cons, List.reverse_cons, List.append_assoc]
      rfl

end Regex.Reader

namespace Regex

open Pattern

/-- What the characters of a text mean where the flags are those of the beginning. -/
theorem meanings_literals {ls : List Literal} (h : ∀ l ∈ ls, l.asByte = false) :
    Tree.meanings Flags.initial (ls.map Tree.literal) =
      .ok ((ls.map (·.char)).map fun c => .chars (CodePoints.single c), Flags.initial) := by
  induction ls with
  | nil => rfl
  | cons l ls ih =>
    obtain ⟨span, c, asByte⟩ := l
    obtain ⟨hl, hls⟩ := List.forall_mem_cons.1 h
    obtain rfl : asByte = false := hl
    rw [List.map_cons, Tree.meanings]
    simp only [Tree.meaning]
    show (Tree.meanings Flags.initial _ >>= fun r => _) = _
    rw [ih hls]
    rfl

theorem tooDeepAmong?_literals (room : Nat) (ls : List Literal) :
    Tree.tooDeepAmong? room (ls.map Tree.literal) = none := by
  induction ls with
  | nil => rfl
  | cons l ls ih => exact ih

/-- What the characters of a text make up. -/
theorem toExpr_literals {ls : List Literal} (h : ∀ l ∈ ls, l.asByte = false) (start stop : Nat) :
    ∃ t, (⟨none, start, [], start, (ls.map Tree.literal).reverse⟩ : Reader.OpenGroup).whole stop =
        t ∧ t.tooDeep? Tree.depthLimit = none ∧
      t.toExpr = .ok (letters (ls.map (·.char))) := by
  match ls, h with
  | [], _ => exact ⟨_, rfl, rfl, rfl⟩
  | [⟨span, c, asByte⟩], h =>
    obtain rfl : asByte = false := h _ List.mem_cons_self
    exact ⟨_, rfl, rfl, rfl⟩
  | a :: b :: ls, h =>
    have hwhole : (⟨none, start, [], start, ((a :: b :: ls).map Tree.literal).reverse⟩ :
        Reader.OpenGroup).whole stop =
          .concat ⟨start, stop⟩ ((a :: b :: ls).map Tree.literal) := by
      have hlength : 2 ≤ ((a :: b :: ls).map Tree.literal).reverse.length := by simp
      have hreverse := ((a :: b :: ls).map Tree.literal).reverse_reverse
      revert hlength hreverse
      generalize ((a :: b :: ls).map Tree.literal).reverse = ts
      intro hlength hreverse
      match ts, hlength with
      | t :: u :: ts, _ =>
        rw [← hreverse]
        rfl
    refine ⟨_, hwhole, ?_, ?_⟩
    · show Tree.tooDeepAmong? _ _ = none
      exact tooDeepAmong?_literals _ _
    · unfold Tree.toExpr
      simp only [Tree.meaning]
      rw [meanings_literals h]
      rfl

end Regex

namespace Pattern

/-- Every character is written with at least one. -/
theorem length_le_length_escape (t : String) : t.toList.length ≤ (escape t).length := by
  have hone : ∀ c, 1 ≤ (written c).length := by
    intro c
    unfold written
    split <;> exact Nat.succ_le_succ (Nat.zero_le _)
  rw [← String.length_toList, toList_escape]
  induction t.toList with
  | nil => exact Nat.le_refl 0
  | cons c x ih =>
    have := hone c
    rw [List.length_cons, List.flatMap_cons, List.length_append]
    omega

/-- A literal stands for its characters, one after the other. -/
theorem literal_eq (t : String) : literal t = .ok ⟨escape t, letters t.toList⟩ := by
  obtain ⟨ls, stop, q, hls, hbytes, hbody⟩ := Regex.Reader.groupBody_escaped t.toList
    (Nat.lt_succ_of_le (length_le_length_escape t)) (.init none 0) rfl 0 []
  obtain ⟨tree, hwhole, hdeep, hexpr⟩ := Regex.toExpr_literals hbytes 0 stop
  have hgroup : Regex.Reader.groupBody ((escape t).length + 1) (.init none 0)
      ⟨(escape t).toList, 0, false, []⟩ = .ok (tree, q) := by
    rw [toList_escape, hbody, ← hwhole]
    simp only [Regex.Reader.OpenGroup.init, List.append_nil]
  have hread : Regex.Tree.read (escape t) = .ok tree := by
    unfold Regex.Tree.read StateT.run'
    simp only [hgroup, Functor.map, Except.map, bind, Except.bind, hdeep]
    rfl
  have hcompile : Regex.compile (escape t) = .ok (letters t.toList) := by
    unfold Regex.compile
    rw [hread, ← hls]
    exact hexpr
  unfold literal compile
  rw [hcompile]

end Pattern

end StreamParser
