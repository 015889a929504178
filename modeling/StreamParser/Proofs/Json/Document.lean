import StreamParser.Proofs.Json.Soundness
import StreamParser.Proofs.Json.Streaming

/-!
# Documents

* `parseText_iff_document`: to read a text is to find out of which value it is a document.
* `parseTokens_of_parseText`: what can be read from a text can be read from a stream that delivers
  it, however the source cuts it, with a window that has room for each piece of the document and one
  byte more.

Reading over a cursor and over a stream agree (`Grammar.eq_ok_of_stream`).  So a document is read
from its text because it is read from a stream with a window that has room for all of it.
-/

namespace StreamParser.Json

open StreamParser.Action Grammar StreamParser.Expr Pattern

variable {σ ν : Type} [Source σ]

/-! ### Documents from a text -/

section Uses

variable {ρ : Type}

theorem uses_pattern {p : Pattern} {regex : Except PatternError Pattern} (h : regex = .ok p)
    (hp : p.Streamable) : (pattern regex : Grammar ρ Value ν String).Uses Streamable := by
  subst h
  exact hp

theorem uses_token {p : Pattern} {regex : Except PatternError Pattern} (h : regex = .ok p)
    (hp : p.Streamable) : (token regex : Grammar ρ Value ν String).Uses Streamable :=
  ⟨uses_pattern spacePattern_eq (IsLookFree.streamable (p := spaces) rfl), fun _ => uses_pattern h hp⟩

theorem uses_string : (string : Grammar ρ Value ν String).Uses Streamable := by
  refine ⟨uses_token stringPattern_eq (IsLookFree.streamable (p := quoted) rfl), fun t => ?_⟩
  beta_reduce
  split <;> trivial

theorem uses_number : (number : Grammar ρ Value ν Value).Uses Streamable := by
  refine ⟨uses_token numberPattern_eq (IsLookFree.streamable (p := numeral) rfl), fun t => ?_⟩
  beta_reduce
  split <;> trivial

theorem uses_separated {α β : Type} {g : Grammar ρ Value ν α} {h : Grammar ρ Value ν β}
    (hg : g.Uses Streamable) (hh : h.Uses Streamable) :
    (separatedByZeroOrMore g h).Uses Streamable := by
  refine ⟨⟨⟨hg, fun _ => trivial⟩, trivial⟩, fun first => ?_⟩
  cases first with
  | none => trivial
  | some first => exact ⟨⟨hh, fun _ => hg⟩, fun _ => trivial⟩

theorem uses_sign {source : String} {c : Char} {regex : Except PatternError Pattern}
    (h : regex = .ok (sign source c)) : (token regex : Grammar ρ Value ν String).Uses Streamable :=
  uses_token h (IsLookFree.streamable (p := sign source c) rfl)

/-- The patterns of JSON can be matched piece by piece. -/
theorem uses_value (item : ρ) : (value item : Grammar ρ Value ν Value).Uses Streamable := by
  have hnull : (null : Grammar ρ Value ν Value).Uses Streamable :=
    ⟨uses_token nullPattern_eq (IsLookFree.streamable (p := nothing) rfl), fun _ => trivial⟩
  have hboolean : (boolean : Grammar ρ Value ν Value).Uses Streamable :=
    ⟨uses_token booleanPattern_eq (IsLookFree.streamable (p := truth) rfl), fun _ => trivial⟩
  have hproperty : (property item : Grammar ρ Value ν (String × Value)).Uses Streamable :=
    ⟨uses_string, fun _ => ⟨⟨uses_sign colonPattern_eq, fun _ => trivial⟩, fun _ => trivial⟩⟩
  have hobject : (object item : Grammar ρ Value ν Value).Uses Streamable :=
    ⟨⟨uses_sign openBracePattern_eq, fun _ => ⟨uses_separated hproperty (uses_sign commaPattern_eq),
      fun _ => ⟨uses_sign closeBracePattern_eq, fun _ => trivial⟩⟩⟩, fun _ => trivial⟩
  have harray : (array item : Grammar ρ Value ν Value).Uses Streamable :=
    ⟨⟨uses_sign openBracketPattern_eq, fun _ => ⟨uses_separated trivial (uses_sign commaPattern_eq),
      fun _ => ⟨uses_sign closeBracketPattern_eq, fun _ => trivial⟩⟩⟩, fun _ => trivial⟩
  exact ⟨⟨⟨⟨⟨hnull, hboolean⟩, uses_number⟩, uses_string, fun _ => trivial⟩, hobject⟩, harray⟩

theorem uses_document (item : ρ) : (document item : Grammar ρ Value ν Value).Uses Streamable :=
  ⟨uses_value item, fun _ => ⟨⟨uses_pattern spacePattern_eq (IsLookFree.streamable (p := spaces) rfl),
    fun _ => ⟨uses_pattern endPattern_eq (streamable_of_textEnd (p := ending) rfl),
      fun _ => trivial⟩⟩, fun _ => trivial⟩⟩

end Uses

/-- A piece is no longer than all pieces together. -/
theorem fits_of_mem {pieces : List (List Char)} {piece : List Char} (h : piece ∈ pieces) :
    Fits ((Utf8.encode pieces.flatten).length + 1) piece := by
  obtain ⟨before, after, rfl⟩ := List.append_of_mem h
  unfold Fits
  rw [List.flatten_append, List.flatten_cons, Utf8.encode_append, Utf8.encode_append,
    List.length_append, List.length_append]
  omega

/-- A tokenizer with a window that has room for the whole text. -/
def roomy (t : String) : Tokenizer Script :=
  ⟨⟨Utf8.bytes t, [], none⟩, .empty ((Utf8.bytes t).length + 1), .uninitialized, false, .empty 1,
    none, []⟩

/-- A document is read from a text, since it could be read from a stream with enough room. -/
theorem parseText_of_document {t : String} {v : Value} (h : Document v t.toList) :
    parseText t = some (.ok v) := by
  obtain ⟨pieces, hpieces, hflatten⟩ := exists_documentCut h
  have hbytes : Utf8.bytes t = Utf8.encode pieces.flatten := by
    rw [hflatten, Utf8.bytes_eq_encode]
  have hdelivers : Delivers (roomy t).source (Utf8.bytes t) :=
    Script.delivers fun _ hstep => absurd hstep List.not_mem_nil
  have hfresh : (roomy t).Fresh (roomy t).source :=
    .inr ⟨⟨(Utf8.bytes t).length + 1, 1, none⟩, rfl⟩
  obtain ⟨t', hstream⟩ := parseTokens_of_cut hpieces (hbytes ▸ hdelivers) hfresh
    (fun piece hpiece => by
      show Fits ((Utf8.bytes t).length + 1) piece
      rw [hbytes]
      exact fits_of_mem hpiece)
    (Nat.le_trans (Nat.le_of_eq (congrArg List.length hbytes.symm))
      (Nat.le_add_right (Utf8.bytes t).length 2))
  obtain ⟨r, hr, -⟩ := parseText_ends t
  obtain ⟨⟨r₁, c'⟩, hcursor, rfl⟩ := Option.map_eq_some_iff.1 hr
  obtain ⟨⟨r₂, s'⟩, hrun, hr₂⟩ := Option.map_eq_some_iff.1 hstream
  obtain ⟨rfl, -⟩ := Prod.mk.inj hr₂
  have hsim : Session.Sim (Utf8.bytes t) ((Utf8.bytes t).length + 1)
      (⟨Cursor.start t, []⟩ : Session Cursor Empty) ⟨Stream.start (roomy t), []⟩ :=
    ⟨rfl, rfl, rfl, hfresh.serves hdelivers⟩
  have heq := eq_ok_of_stream (fun _ => uses_value ()) (uses_document ()) _ hsim hcursor hrun
  rw [hr]
  exact congrArg some heq

/-! ### Reading documents -/

/-- **Reading a text.**  Reading a text ends.  It yields a value if and only if the text is a document
of this value; and it fails if the text is a document of no value. -/
theorem parseText_iff_document (t : String) :
    (∀ v, parseText t = some (.ok v) ↔ Document v t.toList) ∧
      ((∃ v, Document v t.toList) ∨ ∃ e, parseText t = some (.error e)) := by
  obtain ⟨r, hr, hok⟩ := parseText_ends t
  refine ⟨fun v => ⟨fun h => ?_, parseText_of_document⟩, ?_⟩
  · rw [hr] at h
    exact hok v (Option.some.inj h)
  · cases r with
    | ok v => exact .inl ⟨v, hok v rfl⟩
    | error e => exact .inr ⟨e, hr⟩

/-- **Reading a document piece by piece.**  Let a value be read from a text.  Then the text can be cut
into the pieces of a document.  Let it be cut so, and let a source deliver the text, however it cuts
it.  Then the value is read from every fresh tokenizer of this source whose window is longer than
each of the pieces, however long the text is. -/
theorem parseTokens_of_parseText {t : String} {v : Value} (h : parseText t = some (.ok v)) :
    (∃ pieces, DocumentCut v pieces ∧ pieces.flatten = t.toList) ∧
      ∀ pieces, DocumentCut v pieces → pieces.flatten = t.toList →
        ∀ source : σ, Delivers source (Utf8.bytes t) →
          ∀ tokenizer : Tokenizer σ, tokenizer.Fresh source →
            (∀ piece ∈ pieces, (Utf8.encode piece).length + 1 ≤ tokenizer.window.capacity) →
              ∀ bound, (Utf8.bytes t).length ≤ bound →
                ∃ tokenizer', parseTokens bound tokenizer = some (.ok v, tokenizer') := by
  obtain ⟨r, hr, hok⟩ := parseText_ends t
  rw [hr] at h
  refine ⟨exists_documentCut (hok v (Option.some.inj h)), ?_⟩
  intro pieces hpieces hflatten source hs tokenizer ht hfits bound hbound
  rw [Utf8.bytes_eq_encode, ← hflatten] at hs hbound
  exact parseTokens_of_cut hpieces hs ht hfits hbound

/-- A list of a truth value and the null value, with white space. -/
def spacedList : String := " [ true , null ] "

/-- Its pieces. -/
def spacedPieces : List (List Char) :=
  [" [".toList, " true".toList, " , null".toList, " ]".toList, " ".toList]

/-- A tokenizer that gets it byte by byte, with room for seven bytes and one more. -/
def tight : Tokenizer Script :=
  ⟨⟨Utf8.bytes spacedList, [], some 1⟩, .empty 8, .uninitialized, false, .empty 1, none, []⟩

theorem documentCut_spacedList :
    DocumentCut (.array [.boolean true, .null]) spacedPieces := by
  have hblank : IsBlank [' '] := List.forall_mem_singleton.2 rfl
  have hnull : Cut (.items false [.null]) [" , null".toList] :=
    .item hblank (.scalar hblank .null) .noItems
  have hitems : Cut (.items true [.boolean true, .null]) [" true".toList, " , null".toList] :=
    .item hblank (.scalar hblank .true) hnull
  exact .enclosed (.array hblank hitems hblank) rfl hblank

/-- The text is longer than the window, but none of its pieces is. -/
theorem spacedList_fits : parseText spacedList = some (.ok (.array [.boolean true, .null])) ∧
    tight.window.capacity < (Utf8.bytes spacedList).length ∧
    ∃ t', parseTokens 17 tight = some (.ok (.array [.boolean true, .null]), t') := by
  have hdocument : Document (.array [.boolean true, .null]) spacedList.toList :=
    document_of_cut documentCut_spacedList
  have hparse := parseText_of_document hdocument
  have hdelivers : Delivers tight.source (Utf8.bytes spacedList) :=
    Script.delivers fun _ hstep => absurd hstep List.not_mem_nil
  have hfresh : tight.Fresh tight.source := .inr ⟨⟨8, 1, none⟩, rfl⟩
  obtain ⟨-, hread⟩ := parseTokens_of_parseText (σ := Script) hparse
  exact ⟨hparse, by decide, hread spacedPieces documentCut_spacedList (by decide) tight.source
    hdelivers tight hfresh (by decide) 17 (by decide)⟩

end StreamParser.Json
