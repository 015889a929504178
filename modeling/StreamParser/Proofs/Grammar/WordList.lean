import StreamParser.Proofs.Grammar.Separation
import StreamParser.Proofs.Json.TokenRoom

/-!
# Lists of words

Words of small letters, with commas between them and white space around the words, are read as what
they are.

* `SpacedWord` is a word with the white space around it; `SpacedWord.list` are the characters of a
  list of them.
* `Grammar.row_words`: behind a word the other words are a row, each of which comes after a comma.
* `Grammar.separated_lists` says what separated lists read, and that the words of a list are read back,
  over a cursor and over a stream.
-/

namespace StreamParser

open StreamParser.Expr Scan Json

/-! ### Patterns -/

/-- Small letters. -/
def smallLetters : CodePoints := .range 0x61 0x7A

/-- Words of small letters. -/
def wordPattern : Pattern := ⟨"[a-z]+", rep true 1 none (chars smallLetters)⟩

theorem compile_spaces : Pattern.compile "\\s*" = .ok spaces := rfl

set_option maxRecDepth 8000 in
theorem compile_word : Pattern.compile "[a-z]+" = .ok wordPattern := rfl

theorem compile_comma : Pattern.compile "," = .ok (sign "," ',') := rfl

/-- What is left in the midst of a word. -/
def inWord : List Expr := [rep true 0 none (chars smallLetters)]

theorem options_wordPattern : options [wordPattern.expr] = [(smallLetters, inWord)] := rfl

theorem options_inWord : options inWord = [(smallLetters, inWord)] := rfl

/-! ### Words with white space -/

/-- A word with the white space around it. -/
structure SpacedWord where
  before : List Char
  word : List Char
  after : List Char
  isBlank_before : IsBlank before
  isBlank_after : IsBlank after
  ne_nil : word ≠ []
  isSmall : ∀ c ∈ word, 'a' ≤ c ∧ c ≤ 'z'

namespace SpacedWord

/-- The word alone. -/
def text (w : SpacedWord) : String := String.ofList w.word

/-- The characters of the word and of the white space around it. -/
def chars (w : SpacedWord) : List Char := w.before ++ w.word ++ w.after

/-- The characters of a list of words. -/
def list (ws : List SpacedWord) : List Char := [','].intercalate (ws.map chars)

/-- The white space behind the last word. -/
def trailing (ws : List SpacedWord) : List Char := (ws.getLast?.map after).getD []

/-- What comes behind the word if the words `ws` come after it. -/
def behind (w : SpacedWord) (ws : List SpacedWord) : List Char :=
  w.after ++ ws.flatMap fun v => ',' :: v.chars

theorem behind_cons (w v : SpacedWord) (ws : List SpacedWord) :
    w.behind (v :: ws) = (w.after ++ [',']) ++ ((v.before ++ v.word) ++ v.behind ws) := by
  simp [behind, chars]

theorem list_cons (w : SpacedWord) (ws : List SpacedWord) :
    list (w :: ws) = (w.before ++ w.word) ++ w.behind ws := by
  induction ws generalizing w with
  | nil => simp [list, behind, chars]
  | cons v ws ih =>
    have hlist : list (w :: v :: ws) = w.chars ++ ',' :: list (v :: ws) := by
      simp [list, List.intercalate]
    rw [hlist, ih]
    simp [behind_cons, chars]

theorem trailing_cons (w : SpacedWord) (ws : List SpacedWord) :
    trailing (w :: ws) = (ws.getLastD w).after := by
  unfold trailing
  rw [List.getLast?_cons, List.getLastD_eq_getLast?]
  rfl

theorem contains_of_mem (w : SpacedWord) {c : Char} (hc : c ∈ w.word) :
    smallLetters.contains c.toNat = true := by
  obtain ⟨ha, hz⟩ := w.isSmall c hc
  exact CodePoints.contains_range_iff.2 ⟨UInt32.le_iff_toNat_le.1 ha, UInt32.le_iff_toNat_le.1 hz⟩

/-- The word is read in one way. -/
theorem walk_word (w : SpacedWord) : walk [wordPattern.expr] w.word = some inWord := by
  cases hword : w.word with
  | nil => exact absurd hword w.ne_nil
  | cons c x =>
    have hsmall : ∀ d ∈ c :: x, smallLetters.contains d.toNat = true :=
      fun d hd => w.contains_of_mem (hword ▸ hd)
    rw [walk_cons (next_eq [] [] options_wordPattern (by decide) (hsmall c List.mem_cons_self))]
    exact walk_loop fun d hd =>
      next_eq [] [] options_inWord (by decide) (hsmall d (List.mem_cons_of_mem c hd))

/-- The word begins with a byte that begins no white space. -/
theorem exists_head (w : SpacedWord) :
    ∃ b, (Utf8.encode w.word).head? = some b ∧ CodePoints.space.lets b = false := by
  cases hword : w.word with
  | nil => exact absurd hword w.ne_nil
  | cons c x =>
    obtain ⟨b, hb⟩ := exists_first_byte c
    have hc : smallLetters.contains c.toNat = true :=
      w.contains_of_mem (hword ▸ List.mem_cons_self)
    refine ⟨b, ?_, CodePoints.not_lets_of_isApartFrom (by decide) hc hb⟩
    rw [Utf8.encode_cons, List.head?_append, hb]
    rfl

/-- What comes behind the word does not begin with a small letter. -/
theorem not_lets_behind (w : SpacedWord) (ws : List SpacedWord) {b : UInt8}
    (hb : (Utf8.encode (w.behind ws)).head? = some b) : smallLetters.lets b = false := by
  unfold behind at hb
  cases hafter : w.after with
  | nil =>
    rw [hafter, List.nil_append] at hb
    cases ws with
    | nil => cases hb
    | cons v ws =>
      rw [List.flatMap_cons, List.cons_append, Utf8.encode_cons] at hb
      cases hb
      decide
  | cons c x =>
    obtain ⟨b', hb'⟩ := exists_first_byte c
    have hc : CodePoints.space.contains c.toNat = true :=
      w.isBlank_after c (hafter ▸ List.mem_cons_self)
    rw [hafter, List.cons_append, Utf8.encode_cons, List.head?_append, hb'] at hb
    obtain rfl := Option.some.inj hb
    exact CodePoints.not_lets_of_isApartFrom (by decide) hc hb'

end SpacedWord

/-! ### Tokens over a cursor -/

/-- The session at the place `n` of the text `l`. -/
abbrev Session.place {ν : Type} (journal : List ν) (l : List UInt8) (n : Nat) : Session Cursor ν :=
  ⟨⟨l, n⟩, journal⟩

namespace Action

open StreamParser.Pattern Session

variable {ν : Type} {journal : List ν} {l : List UInt8} {n n₁ n' k : Nat} {x : List Char}
  {p : Pattern}

/-- A word whose end is told by the byte behind it is read. -/
theorem matchPattern_cursor_reads (hp : p.Streamable) (hs : Spans l n x n') (hn' : n' ≤ l.length)
    (h : p.Tells (l.drop n) k (.matched (Utf8.encode x).length)) :
    matchPattern p (place journal l n) = some (.ok (String.ofList x), place journal l n') := by
  have hn : n ≤ l.length := Nat.le_trans hs.le hn'
  have hmatch : p.matchAt l n true = .ok (.matched n') := by
    rw [hp.shift l n true hn, h.whole hp, hs.length_eq]
    rfl
  have htext : Utf8.text? ((l.take n').drop n) = some (String.ofList x) := by
    rw [List.drop_take, hs.drop_eq, hs.length_eq, Nat.add_sub_cancel_left, List.take_left,
      Utf8.text?_encode]
  have hread : (place journal l n).input.matchPattern p = _ :=
    Cursor.matchPattern_of_matched hmatch htext
  rw [matchPattern_cursor, hread]

/-- What does not match is expected where the match begins. -/
theorem matchPattern_cursor_refuses (hp : p.Streamable) (hn : n ≤ l.length)
    (h : p.matchAt (l.drop n) 0 true = .ok .noMatch) :
    matchPattern p (place journal l n) =
      some (.error (.expected p.source n), place journal l n) := by
  have hmatch : p.matchAt l n true = .ok .noMatch := by
    rw [hp.shift l n true hn, h]
    rfl
  have hread : (place journal l n).input.matchPattern p = _ :=
    Cursor.matchPattern_of_not_matched hmatch fun stop => MatchStatus.noConfusion
  rw [matchPattern_cursor, hread]

/-- White space is skipped. -/
theorem spaces_cursor {w : List Char} (hw : IsBlank w) (hs : Spans l n w n') (hn' : n' ≤ l.length)
    (hrest : ∀ b, (l.drop n').head? = some b → CodePoints.space.lets b = false) :
    matchPattern spaces (place journal l n) = some (.ok (String.ofList w), place journal l n') := by
  have htells := tells_spaces hw hrest
  rw [← hs.drop_eq] at htells
  exact matchPattern_cursor_reads (IsLookFree.streamable (p := spaces) rfl) hs hn' htells

/-- A token is read behind white space. -/
theorem readToken_cursor {b : UInt8} (hp : p.IsLookFree) (hfinds : Finds l n n₁ b)
    (hs : Spans l n₁ x n') (hn' : n' ≤ l.length)
    (htells : p.Tells (l.drop n₁) k (.matched (Utf8.encode x).length)) :
    readToken p (place journal l n) = some (.ok (String.ofList x), place journal l n') := by
  obtain ⟨w, hw, hblank⟩ := hfinds.blank
  have hskip : matchPattern spaces (place journal l n) = _ :=
    spaces_cursor hw hblank (Nat.le_trans hs.le hn') fun b' hb' => by
      obtain rfl := Option.some.inj (hfinds.head_eq.symm.trans hb')
      exact hfinds.not_blank
  exact (bind_of_ok hskip _).trans (matchPattern_cursor_reads hp.streamable hs hn' htells)

/-- No token is read if there is nothing but white space. -/
theorem readToken_cursor_ended {w : List Char} (hp : p.IsLookFree) (hw : IsBlank w)
    (hs : Spans l n w l.length) (hempty : p.matchAt [] 0 true = .ok .noMatch) :
    readToken p (place journal l n) =
      some (.error (.expected p.source l.length), place journal l l.length) := by
  have hskip : matchPattern spaces (place journal l n) = _ :=
    spaces_cursor hw hs (Nat.le_refl _) fun b hb => by
      rw [List.drop_length] at hb
      cases hb
  refine (bind_of_ok hskip _).trans (matchPattern_cursor_refuses hp.streamable (Nat.le_refl _) ?_)
  rw [List.drop_length]
  exact hempty

end Action

/-! ### Lists -/

namespace Grammar

open StreamParser.Action Session

variable {ρ υ ν α β : Type}

/-- A word, and white space before it. -/
def word : Grammar ρ υ ν String := token "[a-z]+"

/-- A comma, and white space before it. -/
def comma : Grammar ρ υ ν String := token ","

theorem action_word {ω : Type} [Input ω] (rules : ρ → Action ω ν υ) (bound : Nat) :
    action rules bound (word : Grammar ρ υ ν String) = readToken wordPattern := by
  unfold word token trim whitespace regex
  rw [compile_spaces, compile_word]
  rfl

theorem action_comma {ω : Type} [Input ω] (rules : ρ → Action ω ν υ) (bound : Nat) :
    action rules bound (comma : Grammar ρ υ ν String) = readToken (sign "," ',') := by
  unfold comma token trim whitespace regex
  rw [compile_spaces, compile_comma]
  rfl

variable {journal : List ν} {l : List UInt8} {n n' : Nat}

/-- A word is read behind white space, up to what is behind it. -/
theorem readToken_word (w : SpacedWord) (ws : List SpacedWord)
    (hs : Spans l n (w.before ++ w.word) n') (hrest : Spans l n' (w.behind ws) l.length) :
    readToken wordPattern (place journal l n) = some (.ok w.text, place journal l n') := by
  obtain ⟨b, hhead, hb⟩ := w.exists_head
  obtain ⟨n₁, hfinds, hword⟩ := exists_finds w.isBlank_before hs hhead hb
  have htells := Pattern.tells_of_walk (p := wordPattern) rfl w.walk_word rfl
    (m := l.drop n') fun c hc o ho => by
      rw [options_inWord] at ho
      rw [List.mem_singleton.1 ho]
      rw [hrest.drop_eq, List.drop_length, List.append_nil] at hc
      exact w.not_lets_behind ws hc
  rw [← hword.drop_eq] at htells
  exact readToken_cursor (p := wordPattern) rfl hfinds hword hrest.le htells

/-- A comma is read behind white space. -/
theorem readToken_comma {w : List Char} (hw : IsBlank w) (hs : Spans l n (w ++ [',']) n')
    (hn' : n' ≤ l.length) : readToken (sign "," ',') (place journal l n) =
      some (.ok ",", place journal l n') := by
  obtain ⟨n₁, hfinds, hcomma⟩ := exists_finds (b := 0x2C) hw hs rfl (by decide)
  have htells := tells_sign "," ',' (l.drop n')
  rw [← hcomma.drop_eq] at htells
  exact readToken_cursor (p := sign "," ',') rfl hfinds hcomma hn' htells

/-- Behind a word the words after it are a row, each behind a comma; after the last of them there is
no comma, but white space. -/
theorem row_words (rules : ρ → Action Cursor ν υ) (bound : Nat) (w : SpacedWord)
    (ws : List SpacedWord) (hs : Spans l n (w.behind ws) l.length) :
    ∃ items, (∀ journal, Row (action rules bound (comma.skipLeft (word : Grammar ρ υ ν String)))
        (.expected "," l.length) (place journal l n) items) ∧
      items.map Prod.fst = ws.map SpacedWord.text ∧
      (items.map Prod.snd).getLastD n + (Utf8.encode (ws.getLastD w).after).length = l.length := by
  have haction : action rules bound (comma.skipLeft (word : Grammar ρ υ ν String)) =
      Action.bind (readToken (sign "," ',')) fun _ => readToken wordPattern := by
    rw [← action_word rules bound, ← action_comma rules bound]
    rfl
  rw [haction]
  induction ws generalizing w n with
  | nil =>
    have hblank : Spans l n w.after l.length := by
      rwa [SpacedWord.behind, List.flatMap_nil, List.append_nil] at hs
    refine ⟨[], fun journal => .stop (t := place journal l l.length) (bind_of_error ?_ _) rfl, rfl,
      hblank.length_eq.symm⟩
    exact readToken_cursor_ended (p := sign "," ',') rfl w.isBlank_after hblank rfl
  | cons v ws ih =>
    rw [SpacedWord.behind_cons] at hs
    obtain ⟨n₁, hcomma, hs⟩ := hs.split
    obtain ⟨n₂, hword, hrest⟩ := hs.split
    obtain ⟨items, hrow, houtputs, hend⟩ := ih v hrest
    have hreads : ∀ journal : List ν,
        Action.bind (readToken (sign "," ',')) (fun _ => readToken wordPattern)
          (place journal l n) = some (.ok v.text, place journal l n₂) := fun journal =>
      (bind_of_ok (readToken_comma w.isBlank_after hcomma hs.le) _).trans
        (readToken_word v ws hword hrest)
    have hgoes : n < n₂ := Nat.lt_of_lt_of_le (hcomma.lt (by simp)) hword.le
    refine ⟨(v.text, n₂) :: items, fun journal => .more (hreads journal) hgoes (hrow journal), ?_, ?_⟩
    · rw [List.map_cons, List.map_cons, houtputs]
    · rw [List.map_cons, List.getLastD_cons, List.getLastD_cons]
      exact hend

/-- All the words of a list, with commas between them. -/
def words : Grammar ρ υ ν (List String) := separatedByZeroOrMore word comma

/-- The words of a list with one word or more. -/
def someWords : Grammar ρ υ ν (List String) := separatedByOneOrMore word comma

/-- The text of a list of words. -/
def listText (ws : List SpacedWord) : String := String.ofList (SpacedWord.list ws)

/-- A list that has words is read back, up to the white space behind the last word. -/
theorem words_reads {rules : Nat → ρ → Action Cursor ν υ} (hrules : Deepens rules) (w : SpacedWord)
    (ws : List SpacedWord) {bound : Nat} (hbound : ws.length < bound) :
    ∃ stop, stop + (Utf8.encode (SpacedWord.trailing (w :: ws))).length =
        (Utf8.bytes (listText (w :: ws))).length ∧
      ∀ journal, Reads (action (rules bound) bound someWords)
          ⟨.start (listText (w :: ws)), journal⟩ ((w :: ws).map SpacedWord.text) stop ∧
        Reads (action (rules bound) bound words) ⟨.start (listText (w :: ws)), journal⟩
          ((w :: ws).map SpacedWord.text) stop := by
  have hspans : Spans (Utf8.bytes (listText (w :: ws))) 0 (SpacedWord.list (w :: ws))
      (Utf8.bytes (listText (w :: ws))).length := by
    unfold listText
    rw [Utf8.bytes_ofList]
    exact ⟨by simp, by simp⟩
  rw [SpacedWord.list_cons] at hspans
  obtain ⟨n, hword, hrest⟩ := hspans.split
  obtain ⟨items, hrow, houtputs, hend⟩ := row_words (rules bound) bound w ws hrest
  have hitems : items.length < bound := by
    have hlength := congrArg List.length houtputs
    rw [List.length_map, List.length_map] at hlength
    omega
  refine ⟨(items.map Prod.snd).getLastD n, ?_, fun journal => ?_⟩
  · rw [SpacedWord.trailing_cons]
    exact hend
  · have hfirst : action (rules bound) bound word (place journal _ 0) = _ :=
      (congrFun (action_word (rules bound) bound) _).trans (readToken_word w ws hword hrest)
    obtain ⟨hone, hzero⟩ := separated_reads hrules hfirst (hrow journal) (Nat.le_refl bound) hitems
    rw [houtputs] at hone hzero
    exact ⟨hone, hzero⟩

/-- In an empty text there are no words. -/
theorem words_reads_nil {rules : Nat → ρ → Action Cursor ν υ} (hrules : Deepens rules)
    (bound : Nat) :
    Reads (action (rules bound) bound words) ⟨.start (listText []), journal⟩ [] 0 := by
  have hspans : Spans (Utf8.bytes (listText [])) 0 [] (Utf8.bytes (listText [])).length :=
    spans_nil.2 rfl
  have hfirst : action (rules bound) bound word (place journal _ 0) = _ :=
    (congrFun (action_word (rules bound) bound) _).trans
      (readToken_cursor_ended (p := wordPattern) rfl (fun c hc => absurd hc List.not_mem_nil)
        hspans rfl)
  exact (separated_fails hrules hfirst (Nat.le_refl bound)).2.1 rfl

/-! ### Streams -/

/-- What a plain grammar reads over a cursor it reads over a fresh stream, if the window is longer than
the text. -/
theorem run_stream_of_reads {σ : Type} [Source σ] {rules : ρ → Grammar ρ υ ν υ}
    (hrules : ∀ r, (rules r).IsPlain Pattern.Streamable) {g : Grammar ρ υ ν α}
    (hg : g.IsPlain Pattern.Streamable) {bound : Nat} {text : String} {a : α} {stop : Nat}
    (hreads : Reads (run rules bound g) ⟨.start text, journal⟩ a stop) {source : σ}
    (hs : Delivers source (Utf8.bytes text)) {t : Tokenizer σ} (ht : t.Fresh source)
    (hroom : (Utf8.bytes text).length < t.window.capacity) :
    ∃ u, run rules bound g ⟨Stream.start t, journal⟩ = some (.ok a, u) ∧
      u.input.position = stop := by
  obtain ⟨c, hrun, rfl⟩ := hreads
  have hposition : t.position = 0 := by
    unfold Tokenizer.position
    rw [ht.window_eq]
    rfl
  have hsim : Sim (Utf8.bytes text) t.window.capacity
      (⟨Cursor.start text, journal⟩ : Session Cursor ν) ⟨Stream.start t, journal⟩ :=
    ⟨rfl, hposition, rfl, ht.serves hs⟩
  obtain ⟨⟨r, u⟩, hstream, hcorresponds⟩ := simulates_action (simulates_ruleAction hrules bound bound)
    (keeps_ruleAction (Tokenizer.stable_serves _) hrules bound bound) bound g hg _ _ hsim _ hrun
  cases hcorresponds with
  | overflow he hn => exact absurd hn (Nat.not_le.2 hroom)
  | ok h => exact ⟨u, hstream, h.position_eq⟩

/-- Words and commas are told without looking around. -/
theorem isPlain_word : (word : Grammar ρ υ ν String).IsPlain Pattern.Streamable := by
  unfold word token trim whitespace regex
  rw [compile_spaces, compile_word]
  exact ⟨Pattern.IsLookFree.streamable (p := spaces) rfl,
    fun _ => Pattern.IsLookFree.streamable (p := wordPattern) rfl⟩

theorem isPlain_comma : (comma : Grammar ρ υ ν String).IsPlain Pattern.Streamable := by
  unfold comma token trim whitespace regex
  rw [compile_spaces, compile_comma]
  exact ⟨Pattern.IsLookFree.streamable (p := spaces) rfl,
    fun _ => Pattern.IsLookFree.streamable (p := sign "," ',') rfl⟩

theorem isPlain_separatedTail {P : Pattern → Prop} {g : Grammar ρ υ ν α}
    {separator : Grammar ρ υ ν β} (hg : g.IsPlain P) (hseparator : separator.IsPlain P) (first : α) :
    (separatedTail g separator first).IsPlain P :=
  ⟨⟨hseparator, fun _ => hg⟩, fun _ => trivial⟩

theorem isPlain_someWords : (someWords : Grammar ρ υ ν (List String)).IsPlain Pattern.Streamable :=
  ⟨isPlain_word, isPlain_separatedTail isPlain_word isPlain_comma⟩

theorem isPlain_words : (words : Grammar ρ υ ν (List String)).IsPlain Pattern.Streamable := by
  refine ⟨⟨⟨isPlain_word, fun _ => trivial⟩, trivial⟩, fun first => ?_⟩
  cases first with
  | none => trivial
  | some first => exact isPlain_separatedTail isPlain_word isPlain_comma first

/-- From the text the grammar reads `a` and ends at the place `stop`: over a cursor, and over every
fresh stream of the text, however its source cuts it, if the window is longer than the text. -/
def ReadsText (g : Grammar Empty Unit ν α) (bound : Nat) (text : String) (a : α) (stop : Nat) :
    Prop :=
  ∀ journal, Reads (run Empty.elim bound g) ⟨.start text, journal⟩ a stop ∧
    ∀ {σ : Type} [Source σ] (source : σ) (t : Tokenizer σ), Delivers source (Utf8.bytes text) →
      t.Fresh source → (Utf8.bytes text).length < t.window.capacity →
      ∃ u, run Empty.elim bound g ⟨Stream.start t, journal⟩ = some (.ok a, u) ∧
        u.input.position = stop

theorem readsText_of_reads {g : Grammar Empty Unit ν α} (hg : g.IsPlain Pattern.Streamable)
    {bound : Nat} {text : String} {a : α} {stop : Nat}
    (h : ∀ journal, Reads (run Empty.elim bound g) ⟨.start text, journal⟩ a stop) :
    ReadsText g bound text a stop :=
  fun journal => ⟨h journal, fun _ _ hs ht hroom =>
    run_stream_of_reads (fun r => r.elim) hg (h journal) hs ht hroom⟩

/-- **Separated lists.**  Let a first thing be read, then a row of things each of which comes after a
separator, and let the attempt to read another one fail in a way that can be recovered from.  Then
both kinds of lists have the outputs of all the things in order, and end with the last thing.  Without
a first thing the one kind fails as that does, and the other kind is empty where there is recovery.

So every list of words is read back, whatever white space is around the words, up to the end of its
last word: over a cursor, and over every stream whose window is longer than the text. -/
theorem separated_lists {rules : Nat → ρ → Action Cursor ν υ} (hrules : Deepens rules)
    (g : Grammar ρ υ ν α) (separator : Grammar ρ υ ν β) (s : Session Cursor ν) {n m : Nat}
    (hn : n ≤ m) :
    (∀ a t e l, action (rules n) n g s = some (.ok a, t) →
      Row (action (rules n) n (separator.skipLeft g)) e t l → l.length < m →
      Reads (action (rules m) m (separatedByOneOrMore g separator)) s
          (a :: l.map Prod.fst) ((l.map Prod.snd).getLastD t.input.position) ∧
        Reads (action (rules m) m (separatedByZeroOrMore g separator)) s
          (a :: l.map Prod.fst) ((l.map Prod.snd).getLastD t.input.position)) ∧
    (∀ e t, action (rules n) n g s = some (.error e, t) →
      (∃ u, action (rules m) m (separatedByOneOrMore g separator) s = some (.error e, u)) ∧
        (e.isRecoverable = true →
          Reads (action (rules m) m (separatedByZeroOrMore g separator)) s [] s.input.position) ∧
        (e.isRecoverable = false →
          ∃ u, action (rules m) m (separatedByZeroOrMore g separator) s = some (.error e, u))) ∧
    ∀ (ws : List SpacedWord) (bound : Nat), ws.length ≤ bound →
      ∃ stop, stop + (Utf8.encode (SpacedWord.trailing ws)).length =
          (Utf8.bytes (listText ws)).length ∧
        ReadsText (words : Grammar Empty Unit ν _) bound (listText ws) (ws.map SpacedWord.text) stop ∧
        (ws ≠ [] → ReadsText (someWords : Grammar Empty Unit ν _) bound (listText ws)
          (ws.map SpacedWord.text) stop) := by
  refine ⟨fun a t e l hfirst hrow hm => separated_reads hrules hfirst hrow hn hm,
    fun e t hfirst => separated_fails hrules hfirst hn, fun ws bound hbound => ?_⟩
  have hdeepens : Deepens fun k => (ruleAction Empty.elim k k : Empty → Action Cursor ν Unit) :=
    deepens_ruleAction Empty.elim
  cases ws with
  | nil =>
    exact ⟨0, rfl, readsText_of_reads isPlain_words fun _ => words_reads_nil hdeepens bound,
      fun hne => absurd rfl hne⟩
  | cons w ws =>
    obtain ⟨stop, hstop, hreads⟩ := words_reads (ν := ν) hdeepens w ws hbound
    exact ⟨stop, hstop, readsText_of_reads isPlain_words fun journal => (hreads journal).2,
      fun _ => readsText_of_reads isPlain_someWords fun journal => (hreads journal).1⟩

/-- The words `ab` and `c`, with white space around the comma. -/
def spacedWords : List SpacedWord :=
  [⟨[], ['a', 'b'], [' '], nofun, List.forall_mem_singleton.2 (by decide), by decide,
      List.forall_mem_cons.2 ⟨by decide, List.forall_mem_singleton.2 (by decide)⟩⟩,
    ⟨[' ', '\n'], ['c'], [],
      List.forall_mem_cons.2 ⟨by decide, List.forall_mem_singleton.2 (by decide)⟩, nofun, by decide,
      List.forall_mem_singleton.2 (by decide)⟩]

/-- A tokenizer that gets the list byte by byte. -/
def drippingList : Tokenizer Script :=
  ⟨⟨Utf8.bytes "ab , \nc", [.hand 0], some 1⟩, .empty 16, .uninitialized, false, .empty 1, none, []⟩

/-- A single comma. -/
def bareComma : Grammar Empty Unit Empty String := pattern (.ok (sign "," ','))

/-- The text in which a comma comes behind the last letter. -/
def beforeCommas : Session Cursor Empty := ⟨.start "a,a,", []⟩

/-- A comma behind the last letter is left, and the words are read from a stream. -/
theorem trailing_comma_left :
    Reads (action Empty.elim 2 (separatedByOneOrMore letterA bareComma)) beforeCommas
        ["a", "a"] 3 ∧
      ∃ u, run Empty.elim 2 (words : Grammar Empty Unit Empty _)
        (⟨Stream.start drippingList, []⟩ : Session (Stream Script) Empty) = some (.ok ["ab", "c"], u) ∧
          u.input.position = 7 := by
  have hrules : Deepens fun _ => (Empty.elim : Empty → Action Cursor Empty Unit) :=
    deepens_const Empty.elim
  have hlists := separated_lists hrules letterA bareComma beforeCommas (Nat.le_refl 2)
  have hrow : Row (action Empty.elim 2 (bareComma.skipLeft letterA)) (.expected "a" 4)
      (⟨⟨Utf8.bytes "a,a,", 1⟩, []⟩ : Session Cursor Empty) [("a", 3)] :=
    .more (t := ⟨⟨Utf8.bytes "a,a,", 3⟩, []⟩) rfl (by decide)
      (.stop (t := ⟨⟨Utf8.bytes "a,a,", 4⟩, []⟩) rfl rfl)
  obtain ⟨stop, hstop, hread, -⟩ := hlists.2.2 spacedWords 2 (Nat.le_refl 2)
  have hs : Delivers drippingList.source (Utf8.bytes "ab , \nc") :=
    Script.delivers (by simp [drippingList])
  have ht : drippingList.Fresh drippingList.source := .inr ⟨⟨16, 1, none⟩, rfl⟩
  obtain ⟨u, hu, hplace⟩ := (hread []).2 drippingList.source drippingList hs ht (by decide)
  have hlast : stop + 0 = 7 := hstop
  exact ⟨(hlists.1 "a" _ _ _ rfl hrow (by decide)).1, u, hu, hplace.trans hlast⟩

end Grammar

end StreamParser
