import StreamParser.Proofs.Json.Tokens
import StreamParser.Proofs.Pattern.Walk

/-!
# The lexemes of JSON

A text is a lexeme of a token if the scan for the token has one way to go through it
(`IsLexeme`).  Behind a lexeme only the characters of numbers (`numeric`) can go on, so a lexeme is
matched up to its end wherever something else follows (`IsLexeme.tells`).

* The words of numbers and of strings are lexemes: `isLexeme_numeral`, `isLexeme_quoted`.
* `Refuses p b` says that no match of `p` begins with the byte `b`.
-/

namespace StreamParser.Json

open StreamParser.Expr Scan Pattern

/-! ### White space -/

/-- White space. -/
def IsBlank (x : List Char) : Prop := ∀ c ∈ x, CodePoints.space.contains c.toNat = true

theorem options_spaces : options [spaces.expr] = [(.space, [spaces.expr])] := rfl

theorem walk_spaces {x : List Char} (hx : IsBlank x) :
    walk [spaces.expr] x = some [spaces.expr] :=
  walk_loop fun c hc => next_eq [] [] options_spaces (by decide) (hx c hc)

/-- White space is matched up to a byte that begins no further one. -/
theorem tells_spaces {x : List Char} (hx : IsBlank x) {m : List UInt8}
    (hm : ∀ b, m.head? = some b → CodePoints.space.lets b = false) :
    spaces.Tells (Utf8.encode x ++ m) ((Utf8.encode x).length + 1)
      (.matched (Utf8.encode x).length) := by
  refine tells_of_walk (p := spaces) rfl (walk_spaces hx) rfl fun b hb o ho => ?_
  rw [options_spaces] at ho
  rw [List.mem_singleton.1 ho]
  exact hm b hb

/-! ### Lexemes -/

/-- The characters of numbers. -/
def numeric : CodePoints :=
  ⟨[(0x2B, 0x2B), (0x2D, 0x2E), (0x30, 0x39), (0x45, 0x45), (0x65, 0x65)]⟩

/-- There is one way to go through the text, and behind it only what belongs to numbers goes on. -/
def IsLexeme (p : Pattern) (x : List Char) : Prop :=
  ∃ rest, walk [p.expr] x = some rest ∧ accepts rest = true ∧
    ∀ o ∈ options rest, ∀ b, numeric.lets b = false → o.1.lets b = false

/-- The bytes do not go on with what belongs to numbers. -/
def Delimited (m : List UInt8) : Prop := ∀ b, m.head? = some b → numeric.lets b = false

/-- White space belongs to no number. -/
theorem delimited_append {w : List Char} (hw : IsBlank w) {m : List UInt8} (hm : Delimited m) :
    Delimited (Utf8.encode w ++ m) := by
  cases w with
  | nil => exact hm
  | cons c w =>
    obtain ⟨b, hb⟩ := exists_first_byte c
    intro b' hb'
    rw [Utf8.encode_cons, List.append_assoc, List.head?_append, hb] at hb'
    obtain rfl := Option.some.inj hb'
    exact CodePoints.not_lets_of_isApartFrom (by decide) (hw c List.mem_cons_self) hb

theorem delimited_cons {b : UInt8} (hb : numeric.lets b = false) (m : List UInt8) :
    Delimited (b :: m) := by
  intro b' hb'
  obtain rfl := Option.some.inj hb'
  exact hb

/-- A lexeme is matched up to its end. -/
theorem IsLexeme.tells {p : Pattern} (hp : p.IsLookFree) {x : List Char} (h : IsLexeme p x)
    {m : List UInt8} (hm : Delimited m) :
    p.Tells (Utf8.encode x ++ m) ((Utf8.encode x).length + 1)
      (.matched (Utf8.encode x).length) := by
  obtain ⟨rest, hwalk, haccepts, hoptions⟩ := h
  exact tells_of_walk hp hwalk haccepts fun b hb o ho => hoptions o ho b (hm b hb)

/-- Nothing goes on behind a walk to the end of the expression. -/
theorem isLexeme_of_walk {p : Pattern} {x : List Char} (h : walk [p.expr] x = some []) :
    IsLexeme p x :=
  ⟨[], h, rfl, fun _ ho => absurd ho List.not_mem_nil⟩

theorem isLexeme_nothing : IsLexeme nothing "null".toList := isLexeme_of_walk rfl

theorem isLexeme_true : IsLexeme truth "true".toList := isLexeme_of_walk rfl

theorem isLexeme_false : IsLexeme truth "false".toList := isLexeme_of_walk rfl

/-- A single character is matched whatever follows. -/
theorem tells_sign (source : String) (c : Char) (m : List UInt8) :
    (sign source c).Tells (Utf8.encode [c] ++ m) ((Utf8.encode [c]).length + 1)
      (.matched (Utf8.encode [c]).length) := by
  have hnext : next [(sign source c).expr] c = some [] :=
    next_eq [] [] rfl (fun _ ho => absurd ho List.not_mem_nil)
      (CodePoints.contains_single_iff.2 rfl)
  exact tells_of_walk (p := sign source c) rfl (walk_cons hnext []) rfl
    fun _ _ _ ho => absurd ho List.not_mem_nil

/-! ### Words -/

theorem matches_chars {set : CodePoints} {x : List Char} (h : (chars set).Matches x) :
    ∃ c, x = [c] ∧ set.contains c.toNat = true := by
  cases h with
  | chars hc => exact ⟨_, rfl, hc⟩

theorem matches_seq {a b : Expr} {x : List Char} (h : (seq a b).Matches x) :
    ∃ y z, x = y ++ z ∧ a.Matches y ∧ b.Matches z := by
  cases h with
  | seq ha hb => exact ⟨_, _, rfl, ha, hb⟩

theorem matches_alt {a b : Expr} {x : List Char} (h : (alt a b).Matches x) :
    a.Matches x ∨ b.Matches x := by
  cases h with
  | first h => exact .inl h
  | second h => exact .inr h

/-- What is optional is there or is not. -/
theorem matches_optional {e : Expr} {x : List Char} (h : (rep true 0 (some 1) e).Matches x) :
    x = [] ∨ e.Matches x := by
  cases h with
  | enough => exact .inl rfl
  | again _ h hrest =>
    cases hrest with
    | again hno => exact absurd rfl hno
    | enough =>
      rw [List.append_nil]
      exact .inr h

/-- What is repeated any number of times is made of one part after the other. -/
theorem matches_many {e : Expr} {x : List Char} (h : (rep true 0 none e).Matches x)
    {P : List Char → Prop} (hnil : P [])
    (happend : ∀ y z, e.Matches y → P z → P (y ++ z)) : P x := by
  generalize he : rep true 0 none e = e' at h
  induction h with
  | again _ h _ _ ih =>
    cases he
    exact happend _ _ h (ih rfl)
  | enough => exact hnil
  | _ => cases he

theorem matches_digits {x : List Char} (h : (rep true 0 none (chars digits)).Matches x) :
    ∀ c ∈ x, digits.contains c.toNat = true := by
  refine matches_many h (P := fun x => ∀ c ∈ x, digits.contains c.toNat = true)
    (fun c hc => absurd hc List.not_mem_nil) fun y z hy hz => ?_
  obtain ⟨c, rfl, hc⟩ := matches_chars hy
  exact List.forall_mem_cons.2 ⟨hc, hz⟩

theorem matches_someDigits {x : List Char} (h : (rep true 1 none (chars digits)).Matches x) :
    ∃ c y, x = c :: y ∧ digits.contains c.toNat = true ∧
      ∀ d ∈ y, digits.contains d.toNat = true := by
  cases h with
  | more h hrest =>
    obtain ⟨c, rfl, hc⟩ := matches_chars h
    exact ⟨c, _, rfl, hc, matches_digits hrest⟩

/-! ### Numbers -/

section Numbers

/-- The rest of a repetition of digits. -/
def moreDigits : Expr := rep true 0 none (chars digits)

/-- What is left in the integer part of a number. -/
def inWhole : List Expr := [moreDigits, afterWhole]

/-- What is left where no fraction can begin any more. -/
def behindFraction : List Expr := [rep true 0 (some 0) fraction, rep true 0 (some 1) exponent]

/-- What is left in the exponent of a number. -/
def inExponent : List Expr := [moreDigits, rep true 0 (some 0) exponent]

/-- What is left behind the point of a number. -/
def behindPoint : List Expr := rep true 1 none (chars digits) :: behindFraction

/-- What is left behind the letter of an exponent. -/
def behindLetter : List Expr :=
  [seq (rep true 0 (some 1) (chars exponentSigns)) (rep true 1 none (chars digits)),
    rep true 0 (some 0) exponent]

/-- What is left behind the sign of an exponent. -/
def behindSign : List Expr :=
  [rep true 0 (some 0) (chars exponentSigns), rep true 1 none (chars digits),
    rep true 0 (some 0) exponent]

/-- What is left behind the sign of a number. -/
def behindMinus : List Expr := [rep true 0 (some 0) (chars (.single '-')), seq whole afterWhole]

theorem options_numeral : options [numeral.expr] =
    [(.single '-', behindMinus), (.single '0', [afterWhole]), (.range 0x31 0x39, inWhole)] := rfl

theorem options_behindMinus : options behindMinus =
    [(.single '0', [afterWhole]), (.range 0x31 0x39, inWhole)] := rfl

theorem options_afterWhole : options [afterWhole] =
    [(.single '.', behindPoint), (exponentLetters, behindLetter)] := rfl

theorem options_inWhole : options inWhole =
    [(digits, inWhole), (.single '.', behindPoint), (exponentLetters, behindLetter)] := rfl

theorem options_behindPoint : options behindPoint =
    [(digits, moreDigits :: behindFraction)] := rfl

theorem options_inFraction : options (moreDigits :: behindFraction) =
    [(digits, moreDigits :: behindFraction), (exponentLetters, behindLetter)] := rfl

theorem options_behindLetter : options behindLetter =
    [(exponentSigns, behindSign), (digits, inExponent)] := rfl

theorem options_behindSign : options behindSign = [(digits, inExponent)] := rfl

theorem options_inExponent : options inExponent = [(digits, inExponent)] := rfl

/-- The digits after a first one, and what is left in their midst. -/
theorem walk_someDigits {rest rest' : List Expr} {x : List Char}
    (hx : (rep true 1 none (chars digits)).Matches x)
    (hfirst : ∀ c : Char, digits.contains c.toNat = true → next rest c = some rest')
    (hmore : ∀ c : Char, digits.contains c.toNat = true → next rest' c = some rest') :
    walk rest x = some rest' := by
  obtain ⟨c, y, rfl, hc, hy⟩ := matches_someDigits hx
  rw [walk_cons (hfirst c hc)]
  exact walk_loop fun d hd => hmore d (hy d hd)

/-- The scan of a number may end here, and goes on with what belongs to numbers. -/
structure EndsNumber (rest : List Expr) : Prop where
  accepts : Scan.accepts rest = true
  options : ∀ o ∈ Scan.options rest, o.1 ∈ [digits, .single '.', exponentLetters]

theorem endsNumber_afterWhole : EndsNumber [afterWhole] :=
  ⟨rfl, by rw [options_afterWhole]; decide⟩

theorem endsNumber_inWhole : EndsNumber inWhole := ⟨rfl, by rw [options_inWhole]; decide⟩

theorem endsNumber_inFraction : EndsNumber (moreDigits :: behindFraction) :=
  ⟨rfl, by rw [options_inFraction]; decide⟩

theorem endsNumber_inExponent : EndsNumber inExponent := ⟨rfl, by rw [options_inExponent]; decide⟩

/-- The integer part of a number may end here, and a fraction or an exponent may follow it. -/
structure EndsWhole (rest : List Expr) : Prop where
  endsNumber : EndsNumber rest
  next_point : ∀ c : Char, (CodePoints.single '.').contains c.toNat = true →
    next rest c = some behindPoint
  next_letter : ∀ c : Char, exponentLetters.contains c.toNat = true →
    next rest c = some behindLetter

theorem endsWhole_afterWhole : EndsWhole [afterWhole] where
  endsNumber := endsNumber_afterWhole
  next_point _ hc := next_eq [] _ options_afterWhole (by decide) hc
  next_letter _ hc := next_eq [(.single '.', behindPoint)] [] options_afterWhole (by decide) hc

theorem endsWhole_inWhole : EndsWhole inWhole where
  endsNumber := endsNumber_inWhole
  next_point _ hc := next_eq [(digits, inWhole)] _ options_inWhole (by decide) hc
  next_letter _ hc :=
    next_eq [(digits, inWhole), (.single '.', behindPoint)] [] options_inWhole (by decide) hc

theorem walk_whole {x : List Char} (hx : whole.Matches x) {rest : List Expr}
    (hzero : ∀ c : Char, (CodePoints.single '0').contains c.toNat = true →
      next rest c = some [afterWhole])
    (hdigit : ∀ c : Char, (CodePoints.range 0x31 0x39).contains c.toNat = true →
      next rest c = some inWhole) :
    ∃ rest', walk rest x = some rest' ∧ EndsWhole rest' := by
  rcases matches_alt hx with hx | hx
  · obtain ⟨c, rfl, hc⟩ := matches_chars hx
    exact ⟨_, walk_cons (hzero c hc) [], endsWhole_afterWhole⟩
  · obtain ⟨y, z, rfl, hy, hz⟩ := matches_seq hx
    obtain ⟨c, rfl, hc⟩ := matches_chars hy
    refine ⟨inWhole, ?_, endsWhole_inWhole⟩
    rw [List.singleton_append, walk_cons (hdigit c hc)]
    exact walk_loop fun d hd => next_eq [] _ options_inWhole (by decide)
      (matches_digits hz d hd)

theorem walk_fraction {x : List Char} (hx : fraction.Matches x) {rest : List Expr}
    (hpoint : ∀ c : Char, (CodePoints.single '.').contains c.toNat = true →
      next rest c = some behindPoint) :
    walk rest x = some (moreDigits :: behindFraction) := by
  obtain ⟨y, z, rfl, hy, hz⟩ := matches_seq hx
  obtain ⟨c, rfl, hc⟩ := matches_chars hy
  rw [List.singleton_append, walk_cons (hpoint c hc)]
  exact walk_someDigits hz
    (fun d hd => next_eq [] [] options_behindPoint (by decide) hd)
    (fun d hd => next_eq [] _ options_inFraction (by decide) hd)

theorem walk_exponent {x : List Char} (hx : exponent.Matches x) {rest : List Expr}
    (hletter : ∀ c : Char, exponentLetters.contains c.toNat = true →
      next rest c = some behindLetter) :
    walk rest x = some inExponent := by
  obtain ⟨y, z, rfl, hy, hz⟩ := matches_seq hx
  obtain ⟨c, rfl, hc⟩ := matches_chars hy
  obtain ⟨z₁, z₂, rfl, hsign, hdigits⟩ := matches_seq hz
  have hmore : ∀ d : Char, digits.contains d.toNat = true → next inExponent d = some inExponent :=
    fun d hd => next_eq [] [] options_inExponent (by decide) hd
  rw [List.singleton_append, walk_cons (hletter c hc)]
  rcases matches_optional hsign with rfl | hsign
  · exact walk_someDigits hdigits (fun d hd => next_eq [(exponentSigns, behindSign)]
      [] options_behindLetter (by decide) hd) hmore
  · obtain ⟨d, rfl, hd⟩ := matches_chars hsign
    rw [List.singleton_append, walk_cons (next_eq [] _ options_behindLetter (by decide) hd)]
    exact walk_someDigits hdigits
      (fun d hd => next_eq [] [] options_behindSign (by decide) hd) hmore

theorem lets_of_numeric {set : CodePoints} (hset : set ∈ [digits, .single '.', exponentLetters])
    {b : UInt8} (hb : numeric.lets b = false) : set.lets b = false := by
  have hsub : ∀ n, set.contains n = true → numeric.contains n = true := by
    intro n hn
    simp only [List.mem_cons, List.not_mem_nil, or_false] at hset
    rcases hset with rfl | rfl | rfl <;>
      simp [CodePoints.contains, digits, CodePoints.single, CodePoints.range, exponentLetters,
        numeric] at hn ⊢ <;> omega
  have hbelow : ∀ set ∈ [digits, .single '.', exponentLetters], set.below 0x80 = true := by decide
  exact CodePoints.not_lets_of_subset hsub (hbelow set hset) hb

/-- A number begins with its sign or with a digit. -/
theorem head?_of_matches_numeral {x : List Char} (hx : numeral.expr.Matches x) :
    ∃ b, (Utf8.encode x).head? = some b ∧ 0x2D ≤ b ∧ b ≤ 0x39 := by
  have hfirst : ∀ (c : Char) (y : List Char), 0x2D ≤ c.toNat → c.toNat ≤ 0x39 →
      ∃ b, (Utf8.encode (c :: y)).head? = some b ∧ 0x2D ≤ b ∧ b ≤ 0x39 := by
    intro c y hlow hhigh
    have hbyte : (UInt8.ofNat c.toNat).toNat = c.toNat := Utf8.toNat_ofNat_of_lt (by omega)
    refine ⟨UInt8.ofNat c.toNat, ?_, ?_, ?_⟩
    · rw [Utf8.encode_cons, Utf8.char_of_lt (by omega)]
      rfl
    · rw [UInt8.le_iff_toNat_le, hbyte]
      exact hlow
    · rw [UInt8.le_iff_toNat_le, hbyte]
      exact hhigh
  obtain ⟨m, x₁, rfl, hm, hx₁⟩ := matches_seq hx
  rcases matches_optional hm with rfl | hm
  · obtain ⟨w, x₂, rfl, hw, -⟩ := matches_seq hx₁
    rcases matches_alt hw with hw | hw
    · obtain ⟨c, rfl, hc⟩ := matches_chars hw
      obtain rfl := CodePoints.contains_single_iff.1 hc
      exact hfirst '0' _ (by decide) (by decide)
    · obtain ⟨y, z, rfl, hy, -⟩ := matches_seq hw
      obtain ⟨c, rfl, hc⟩ := matches_chars hy
      have := CodePoints.contains_range_iff.1 hc
      exact hfirst c _ (by omega) (by omega)
  · obtain ⟨c, rfl, hc⟩ := matches_chars hm
    obtain rfl := CodePoints.contains_single_iff.1 hc
    exact hfirst '-' _ (by decide) (by decide)

/-- The sign and the integer part of a number. -/
theorem walk_integer {m w : List Char} (hm : (rep true 0 (some 1) (chars (.single '-'))).Matches m)
    (hw : whole.Matches w) :
    ∃ rest, walk [numeral.expr] (m ++ w) = some rest ∧ EndsWhole rest := by
  rcases matches_optional hm with rfl | hm
  · exact walk_whole hw
      (fun c hc => next_eq [(.single '-', behindMinus)] _ options_numeral (by decide) hc)
      (fun c hc => next_eq [(.single '-', behindMinus), (.single '0', [afterWhole])] []
        options_numeral (by decide) hc)
  · obtain ⟨c, rfl, hc⟩ := matches_chars hm
    rw [List.singleton_append, walk_cons (next_eq [] _ options_numeral (by decide) hc)]
    exact walk_whole hw
      (fun d hd => next_eq [] _ options_behindMinus (by decide) hd)
      (fun d hd => next_eq [(.single '0', [afterWhole])] [] options_behindMinus (by decide) hd)

/-- The words of numbers are lexemes. -/
theorem isLexeme_numeral {x : List Char} (hx : numeral.expr.Matches x) : IsLexeme numeral x := by
  obtain ⟨m, x₁, rfl, hm, hx₁⟩ := matches_seq hx
  obtain ⟨w, x₂, rfl, hw, hx₂⟩ := matches_seq hx₁
  obtain ⟨f, e, rfl, hf, he⟩ := matches_seq hx₂
  obtain ⟨rest, hwhole, hends⟩ := walk_integer hm hw
  have hfraction : ∃ rest', walk rest f = some rest' ∧ EndsNumber rest' ∧
      ∀ c : Char, exponentLetters.contains c.toNat = true → next rest' c = some behindLetter := by
    rcases matches_optional hf with rfl | hf
    · exact ⟨rest, rfl, hends.endsNumber, hends.next_letter⟩
    · exact ⟨_, walk_fraction hf hends.next_point, endsNumber_inFraction, fun c hc =>
        next_eq [(digits, moreDigits :: behindFraction)] [] options_inFraction (by decide) hc⟩
  obtain ⟨rest', hfraction, hends', hletter⟩ := hfraction
  have hexponent : ∃ rest'', walk rest' e = some rest'' ∧ EndsNumber rest'' := by
    rcases matches_optional he with rfl | he
    · exact ⟨rest', rfl, hends'⟩
    · exact ⟨_, walk_exponent he hletter, endsNumber_inExponent⟩
  obtain ⟨rest'', hexponent, hends''⟩ := hexponent
  refine ⟨rest'', ?_, hends''.accepts, fun o ho b hb => lets_of_numeric (hends''.options o ho) hb⟩
  rw [← List.append_assoc w, ← List.append_assoc m, walk_append, ← List.append_assoc m, walk_append,
    hwhole, Option.bind_some, hfraction, Option.bind_some, hexponent]

end Numbers

/-! ### Strings -/

/-- What is left in the midst of a string. -/
def inString : List Expr := [rep true 0 none unit, chars (.single '"')]

/-- What is left behind a backslash. -/
def behindBackslash : List Expr := chars escaped :: inString

theorem options_quoted : options [quoted.expr] =
    [(.single '"', [seq (rep true 0 none unit) (chars (.single '"'))])] := rfl

theorem options_behindQuote :
    options [seq (rep true 0 none unit) (chars (.single '"'))] =
      [(plain, inString), (.single '\\', behindBackslash), (.single '"', [])] := rfl

theorem options_inString : options inString =
    [(plain, inString), (.single '\\', behindBackslash), (.single '"', [])] := rfl

theorem options_behindBackslash : options behindBackslash = [(escaped, inString)] := rfl

/-- From two places with the same ways to go the walks are the same. -/
theorem walk_congr {rest rest' : List Expr} (h : options rest = options rest') {x : List Char}
    (hx : x ≠ []) : walk rest x = walk rest' x := by
  cases x with
  | nil => exact absurd rfl hx
  | cons c x =>
    unfold walk next
    rw [h]

/-- A unit of a string is gone through, and after it the scan is in the midst of the string. -/
theorem walk_unit {x : List Char} (hx : unit.Matches x) : walk inString x = some inString := by
  rcases matches_alt hx with hx | hx
  · obtain ⟨c, rfl, hc⟩ := matches_chars hx
    exact walk_cons (next_eq [] _ options_inString (by decide) hc) []
  · obtain ⟨y, z, rfl, hy, hz⟩ := matches_seq hx
    obtain ⟨c, rfl, hc⟩ := matches_chars hy
    obtain ⟨d, rfl, hd⟩ := matches_chars hz
    rw [List.singleton_append,
      walk_cons (next_eq [(plain, inString)] _ options_inString (by decide) hc)]
    exact walk_cons
      (next_eq [] [] options_behindBackslash (by decide) hd) []

/-- The words of strings are lexemes. -/
theorem isLexeme_quoted {x : List Char} (hx : quoted.expr.Matches x) : IsLexeme quoted x := by
  obtain ⟨y, z, rfl, hy, hz⟩ := matches_seq hx
  obtain ⟨c, rfl, hc⟩ := matches_chars hy
  obtain ⟨z₁, z₂, rfl, hunits, hend⟩ := matches_seq hz
  obtain ⟨d, rfl, hd⟩ := matches_chars hend
  have hinside : walk inString z₁ = some inString :=
    matches_many hunits (P := fun z => walk inString z = some inString) rfl fun y z hy hz => by
      rw [walk_append, walk_unit hy]
      exact hz
  have hclose : next inString d = some [] :=
    next_eq [(plain, inString), (.single '\\', behindBackslash)] []
      options_inString (by decide) hd
  refine isLexeme_of_walk ?_
  rw [List.singleton_append,
    walk_cons (next_eq [] [] options_quoted (by decide) hc),
    walk_congr (options_behindQuote.trans options_inString.symm) (by simp), walk_append, hinside]
  exact walk_cons hclose []

/-! ### What is refused -/

/-- No match begins with the byte. -/
def Refuses (p : Pattern) (b : UInt8) : Prop :=
  accepts [p.expr] = false ∧ ∀ o ∈ options [p.expr], o.1.lets b = false

instance (p : Pattern) (b : UInt8) : Decidable (Refuses p b) :=
  inferInstanceAs (Decidable (_ ∧ _))

theorem Refuses.tells {p : Pattern} (hp : p.IsLookFree) {b : UInt8} (h : Refuses p b)
    (m : List UInt8) : p.Tells (b :: m) 1 .noMatch :=
  tells_noMatch hp h.1 h.2 m

end StreamParser.Json
