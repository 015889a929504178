import StreamParser.Proofs.Grammar.Room
import StreamParser.Proofs.Json.Steps
import StreamParser.Proofs.Json.Syntax

/-!
# The room that lexemes need

* `Spans l n x n'` says that the characters `x` are in the stream `l` from the place `n` to the place
  `n'`.
* A token with white space before it needs room up to the byte behind it (`yields_readToken`).
* `Finds l n n' b` says that behind white space there is the byte `b`.  To see that a token is not
  there takes no more room than this byte (`Finds.declines`).

So a value that is neither an array nor an object needs room up to the byte behind it
(`yields_scalar`), although all the alternatives before it are tried.
-/

namespace StreamParser.Json

open StreamParser.Action Grammar StreamParser.Expr Pattern

/-! ### Places of a stream -/

/-- The characters are in the stream from one place to another. -/
structure Spans (l : List UInt8) (n : Nat) (x : List Char) (n' : Nat) : Prop where
  drop_eq : l.drop n = Utf8.encode x ++ l.drop n'
  length_eq : n' = n + (Utf8.encode x).length

section Spans

variable {l : List UInt8} {n n' : Nat} {x y : List Char}

theorem spans_nil : Spans l n [] n' ↔ n' = n := by
  constructor
  · exact fun h => h.length_eq
  · rintro rfl
    exact ⟨rfl, rfl⟩

/-- Between two texts there is a place. -/
theorem Spans.split (h : Spans l n (x ++ y) n') : ∃ n₁, Spans l n x n₁ ∧ Spans l n₁ y n' := by
  have hdrop := h.drop_eq
  have hlength := h.length_eq
  rw [Utf8.encode_append, List.append_assoc] at hdrop
  rw [Utf8.encode_append, List.length_append] at hlength
  have hrest : l.drop (n + (Utf8.encode x).length) = Utf8.encode y ++ l.drop n' := by
    rw [← List.drop_drop, hdrop, List.drop_left]
  exact ⟨n + (Utf8.encode x).length, ⟨by rw [hrest]; exact hdrop, rfl⟩, hrest, by omega⟩

theorem Spans.le (h : Spans l n x n') : n ≤ n' := by
  rw [h.length_eq]
  exact Nat.le_add_right _ _

/-- Characters take up room. -/
theorem Spans.lt (h : Spans l n x n') (hx : x ≠ []) : n < n' := by
  have hpos := List.length_pos_iff.2 hx
  have hle := Utf8.length_le_length_encode x
  rw [h.length_eq]
  omega

/-- The first byte of a text is the first one at its place. -/
theorem Spans.head?_eq (h : Spans l n x n') {b : UInt8} (hb : (Utf8.encode x).head? = some b) :
    (l.drop n).head? = some b := by
  rw [h.drop_eq, List.head?_append, hb]
  rfl

end Spans

variable {σ ν α β : Type} [Source σ] {l : List UInt8} {m n n₁ n' : Nat}

/-! ### What is not there -/

/-- Behind white space, at the place `n'`, there is the byte `b`, which begins no white space. -/
structure Finds (l : List UInt8) (n n' : Nat) (b : UInt8) : Prop where
  blank : ∃ w, IsBlank w ∧ Spans l n w n'
  head_eq : (l.drop n').head? = some b
  not_blank : CodePoints.space.lets b = false

section Finds

variable {b : UInt8} {p : Pattern}

/-- A word whose end is told by the byte behind it. -/
theorem yields_word (hp : p.Streamable) {x : List Char} (hs : Spans l n x n')
    (htells : p.Tells (l.drop n) ((Utf8.encode x).length + 1) (.matched (Utf8.encode x).length)) :
    Yields l m n (n' + 1) (matchPattern p : Action (Stream σ) ν String) false (String.ofList x)
      n' := by
  have htext : Utf8.text? ((l.drop n).take (Utf8.encode x).length) = some (String.ofList x) := by
    rw [hs.drop_eq, List.take_left, Utf8.text?_encode]
  rw [hs.length_eq, Nat.add_assoc]
  exact yields_matchPattern hp htells htext

/-- White space is skipped. -/
theorem yields_spaces {w : List Char} (hw : IsBlank w) (hs : Spans l n w n')
    (hrest : ∀ b, (l.drop n').head? = some b → CodePoints.space.lets b = false) :
    Yields l m n (n' + 1) (matchPattern spaces : Action (Stream σ) ν String) false
      (String.ofList w) n' := by
  refine yields_word (IsLookFree.streamable (p := spaces) rfl) hs ?_
  rw [hs.drop_eq]
  exact tells_spaces hw hrest

/-- To see that a token is not there takes no more than a byte behind white space. -/
theorem Finds.declines (h : Finds l n n' b) (hb : Refuses p b) (hp : p.IsLookFree) :
    Declines l m n (n' + 1) (readToken p : Action (Stream σ) ν String) := by
  obtain ⟨w, hw, hs⟩ := h.blank
  have hspaces : Yields l m n (n' + 1) (matchPattern spaces : Action (Stream σ) ν String) false
      (String.ofList w) n' := by
    refine yields_spaces hw hs fun b' hb' => ?_
    obtain rfl := Option.some.inj (h.head_eq.symm.trans hb')
    exact h.not_blank
  obtain ⟨r, hr⟩ : ∃ r, l.drop n' = b :: r := by
    have hhead := h.head_eq
    cases hl : l.drop n' with
    | nil =>
      rw [hl] at hhead
      cases hhead
    | cons b' r =>
      rw [hl] at hhead
      cases hhead
      exact ⟨r, rfl⟩
  have htells := hb.tells hp r
  rw [← hr] at htells
  exact (hspaces.bind_declines (declines_matchPattern hp.streamable htells)).transaction

end Finds

/-! ### Tokens -/

/-- White space and a token whose end is told by the byte behind it. -/
theorem yields_readToken {p : Pattern} (hp : p.IsLookFree) {x : List Char} {b : UInt8}
    (hfinds : Finds l n n₁ b) (hs : Spans l n₁ x n')
    (htells : p.Tells (l.drop n₁) ((Utf8.encode x).length + 1) (.matched (Utf8.encode x).length)) :
    Yields l m n (n' + 1) (readToken p : Action (Stream σ) ν String) false (String.ofList x) n' := by
  obtain ⟨w, hw, hspaces⟩ := hfinds.blank
  have hskip : Yields l m n (n' + 1) (matchPattern spaces : Action (Stream σ) ν String) false
      (String.ofList w) n₁ := by
    refine (yields_spaces hw hspaces fun b' hb' => ?_).mono (Nat.succ_le_succ hs.le)
    obtain rfl := Option.some.inj (hfinds.head_eq.symm.trans hb')
    exact hfinds.not_blank
  exact (hskip.bind (yields_word hp.streamable hs htells)).transaction

/-- White space and what begins with another byte. -/
theorem exists_finds {w x : List Char} {b : UInt8} (hw : IsBlank w) (hs : Spans l n (w ++ x) n')
    (hhead : (Utf8.encode x).head? = some b) (hb : CodePoints.space.lets b = false) :
    ∃ n₁, Finds l n n₁ b ∧ Spans l n₁ x n' := by
  obtain ⟨n₁, hblank, hx⟩ := hs.split
  exact ⟨n₁, ⟨⟨w, hw, hblank⟩, hx.head?_eq hhead, hb⟩, hx⟩

/-- White space and a single character. -/
theorem yields_readSign (source : String) {c : Char} {b : UInt8} {w : List Char} (hw : IsBlank w)
    (hs : Spans l n (w ++ [c]) n') (hc : String.utf8EncodeChar c = [b])
    (hb : CodePoints.space.lets b = false) :
    Yields l m n (n' + 1) (readToken (sign source c) : Action (Stream σ) ν String) false
      (String.ofList [c]) n' := by
  obtain ⟨n₁, hfinds, hx⟩ := exists_finds (b := b) hw hs
    (by rw [Utf8.encode_cons, hc]; rfl) hb
  refine yields_readToken (p := sign source c) rfl hfinds hx ?_
  rw [hx.drop_eq]
  exact tells_sign source c _

section Lexeme

variable {p : Pattern} {x : List Char} {b : UInt8}

theorem yields_lexeme (hx : IsLexeme p x) (hp : p.IsLookFree) (hfinds : Finds l n n₁ b)
    (hs : Spans l n₁ x n') (hrest : Delimited (l.drop n')) :
    Yields l m n (n' + 1) (readToken p : Action (Stream σ) ν String) false (String.ofList x) n' := by
  refine yields_readToken hp hfinds hs ?_
  rw [hs.drop_eq]
  exact hx.tells hp hrest

theorem yields_readLexeme (hx : IsLexeme p x) (hp : p.IsLookFree) (hfinds : Finds l n n₁ b)
    (hs : Spans l n₁ x n') (hrest : Delimited (l.drop n')) {read : String → Except Fault α} {a : α}
    (hread : read (String.ofList x) = .ok a) (refusal : String → Fault → String) :
    Yields l m n (n' + 1) (readLexeme p read refusal : Action (Stream σ) ν α) false a n' := by
  refine ((yields_lexeme hx hp hfinds hs hrest).bind ?_).transaction
  rw [hread]
  exact yields_pure a

theorem Finds.declines_readLexeme (h : Finds l n n' b) (hb : Refuses p b) (hp : p.IsLookFree)
    (read : String → Except Fault α) (refusal : String → Fault → String) :
    Declines l m n (n' + 1) (readLexeme p read refusal : Action (Stream σ) ν α) :=
  ((h.declines hb hp).bind _).transaction

end Lexeme

theorem yields_readString {w x : List Char} {s : String} (hw : IsBlank w) (hx : IsString x s)
    (hs : Spans l n (w ++ x) n') (hrest : Delimited (l.drop n')) :
    Yields l m n (n' + 1) (readString : Action (Stream σ) ν String) false s n' := by
  obtain ⟨n₁, hfinds, hlexeme⟩ := exists_finds (b := 0x22) hw hs hx.head?_encode (by decide)
  exact yields_readLexeme (isLexeme_quoted hx.matches_quoted) rfl hfinds hlexeme hrest hx.read_eq _

/-! ### Values that are neither arrays nor objects -/

section Scalar

variable {b : UInt8} {bound : Nat} {z : Action (Stream σ) ν Value}

/-- No value that is neither an array nor an object begins with the byte. -/
structure RefusesScalars (b : UInt8) : Prop where
  nothing : Refuses nothing b
  truth : Refuses truth b
  numeral : Refuses numeral b
  quoted : Refuses quoted b

/-- The alternatives before that of numbers. -/
theorem Finds.declines_word (h : Finds l n n' b) (hnothing : Refuses nothing b)
    (htruth : Refuses truth b) :
    Declines l m n (n' + 1) (orElse
      (bind (readToken nothing) fun _ => pure .null)
      (bind (readToken truth) fun t => pure (.boolean (t == "true"))) :
        Action (Stream σ) ν Value) :=
  ((h.declines hnothing rfl).bind _).orElse ((h.declines htruth rfl).bind _)

theorem Finds.declines_readNumber (h : Finds l n n' b) (hb : Refuses numeral b) :
    Declines l m n (n' + 1) (readNumber : Action (Stream σ) ν Value) :=
  h.declines_readLexeme hb rfl _ _

/-- The alternatives before those of objects and arrays. -/
theorem Finds.declines_scalar (h : Finds l n n' b) (hb : RefusesScalars b) :
    Declines l m n (n' + 1) (orElse (orElse (orElse
      (bind (readToken nothing) fun _ => pure .null)
      (bind (readToken truth) fun t => pure (.boolean (t == "true"))))
      readNumber)
      (bind readString fun s => pure (.string s)) : Action (Stream σ) ν Value) :=
  ((h.declines_word hb.nothing hb.truth).orElse (h.declines_readNumber hb.numeral)).orElse
    ((h.declines_readLexeme hb.quoted rfl _ _).bind _)

/-- A truth value is the second alternative. -/
theorem Finds.yields_boolean {x : List Char} (h : Finds l n n₁ b) (hs : Spans l n₁ x n')
    (hb : Refuses nothing b) (hx : IsLexeme truth x) (hrest : Delimited (l.drop n')) :
    Yields l m n (n' + 1) (readValue z bound) false (.boolean (String.ofList x == "true")) n' := by
  have hdeclines : Declines l m n (n' + 1) (readToken nothing : Action (Stream σ) ν String) :=
    (h.declines hb rfl).mono (Nat.succ_le_succ hs.le)
  have htruth : Yields l m n (n' + 1) (readToken truth : Action (Stream σ) ν String) false _ n' :=
    yields_lexeme hx rfl h hs hrest
  have hchoice := Yields.orElse_right (hdeclines.bind fun _ => pure Value.null)
    (htruth.map fun t => Value.boolean (t == "true"))
  exact (((hchoice.orElse_left _).orElse_left _).orElse_left _).orElse_left _

theorem refuses_of_digit (h : 0x2D ≤ b) (h' : b ≤ 0x39) :
    CodePoints.space.lets b = false ∧ Refuses nothing b ∧ Refuses truth b := by
  have hall : ∀ n < 0x3A, 0x2D ≤ n → CodePoints.space.lets (UInt8.ofNat n) = false ∧
      Refuses nothing (UInt8.ofNat n) ∧ Refuses truth (UInt8.ofNat n) := by decide
  have := hall b.toNat (Nat.lt_succ_of_le (UInt8.le_iff_toNat_le.1 h')) (UInt8.le_iff_toNat_le.1 h)
  rwa [UInt8.ofNat_toNat] at this

/-- White space and a scalar are read up to the byte behind it. -/
theorem yields_scalar {w x : List Char} {v : Value} (hw : IsBlank w) (hx : Scalar x v)
    (hs : Spans l n (w ++ x) n') (hrest : Delimited (l.drop n')) :
    Yields l m n (n' + 1) (readValue z bound) false v n' := by
  cases hx with
  | null =>
    obtain ⟨n₁, hfinds, hlexeme⟩ := exists_finds (b := 0x6E) hw hs rfl (by decide)
    have hnull : Yields l m n (n' + 1) (readToken nothing : Action (Stream σ) ν String) false _ n' :=
      yields_lexeme isLexeme_nothing rfl hfinds hlexeme hrest
    exact (((((hnull.map fun _ => Value.null).orElse_left _).orElse_left _).orElse_left _).orElse_left
      _).orElse_left _
  | true =>
    obtain ⟨n₁, hfinds, hlexeme⟩ := exists_finds (b := 0x74) hw hs rfl (by decide)
    exact hfinds.yields_boolean hlexeme (by decide) isLexeme_true hrest
  | false =>
    obtain ⟨n₁, hfinds, hlexeme⟩ := exists_finds (b := 0x66) hw hs rfl (by decide)
    exact hfinds.yields_boolean hlexeme (by decide) isLexeme_false hrest
  | @number x k hx hk =>
    obtain ⟨b, hhead, hlow, hhigh⟩ := head?_of_matches_numeral hx
    obtain ⟨hblank, hnothing, htruth⟩ := refuses_of_digit hlow hhigh
    obtain ⟨n₁, hfinds, hlexeme⟩ := exists_finds hw hs hhead hblank
    have hnumber : Yields l m n (n' + 1) (readNumber : Action (Stream σ) ν Value) false
        (.number k) n' :=
      yields_readLexeme (isLexeme_numeral hx) rfl hfinds hlexeme hrest (by rw [hk]; rfl) _
    have hdeclines := (hfinds.declines_word (σ := σ) (ν := ν) (m := m) hnothing htruth).mono
      (Nat.succ_le_succ hlexeme.le)
    exact (((Yields.orElse_right hdeclines hnumber).orElse_left _).orElse_left _).orElse_left _
  | @string x s hx =>
    obtain ⟨n₁, hfinds, hlexeme⟩ := exists_finds (b := 0x22) hw hs hx.head?_encode (by decide)
    have hrefuses : Refuses nothing 0x22 ∧ Refuses truth 0x22 ∧ Refuses numeral 0x22 := by decide
    obtain ⟨hnothing, htruth, hnumeral⟩ := hrefuses
    have hstring : Yields l m n (n' + 1) (readString : Action (Stream σ) ν String) false s n' :=
      yields_readString hw hx hs hrest
    have hdeclines := ((hfinds.declines_word (σ := σ) (ν := ν) (m := m) hnothing htruth).orElse
      (hfinds.declines_readNumber hnumeral)).mono (Nat.succ_le_succ hlexeme.le)
    exact ((Yields.orElse_right hdeclines (hstring.map Value.string)).orElse_left _).orElse_left _

end Scalar

end StreamParser.Json
