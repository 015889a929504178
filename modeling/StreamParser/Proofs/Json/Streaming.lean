import StreamParser.Proofs.Json.TokenRoom

/-!
# JSON is read piece by piece

A document is read from a stream with a window that has room for each of its pieces and one byte
more.

* `StreamsOne`, `StreamsList` and `Streams` say what reading a text does, given its pieces: up to the
  end of the first piece it needs the room that there is; then it commits, if there are more pieces,
  and each of the others has a window to itself.
* `streams_of_cut`: this is true of every text that is cut into pieces.
* `parseTokens_of_cut`: a document is read from every tokenizer with enough room.
-/

namespace StreamParser.Json

open StreamParser.Action Grammar StreamParser.Expr Pattern

variable {σ ν α β : Type} [Source σ] {l : List UInt8} {m n n₁ n' : Nat}

/-! ### Lists and brackets -/

section Lists

variable {x : Action (Stream σ) ν α} {y : Action (Stream σ) ν β} {a : α} {as : List α} {c : β}
  {b : Bool} {bound k : Nat}

theorem passes_separated_nil (hx : Declines l m n (n + m) x) :
    Passes l m n (separated x y bound) [] n := by
  have hnone : Yields l m n (n + m) _ false (none : Option α) n :=
    Yields.orElse_right (hx.bind fun a => pure (some a)) (yields_pure none)
  exact (hnone.bind (yields_pure [])).passes

theorem passes_separated_cons (hx : Yields l m n (n + m) x b a n₁)
    (hrest : Passes l m n₁ (many (transaction (bind y fun _ => x)) none bound) as n') :
    Passes l m n (separated x y bound) (a :: as) n' := by
  have hfirst : Yields l m n (n + m) (orElse (bind x fun a => pure (some a)) (pure none)) b
      (some a) n₁ := (hx.map some).orElse_left _
  exact hfirst.passes.bind (hrest.bind (yields_pure (a :: as)).passes)

/-- What is between brackets is committed to, and has to fit for itself. -/
theorem yields_enclosed {opening closing : Pattern} {t t' : String} {n₂ : Nat}
    (hopening : Yields l m n k (readToken opening : Action (Stream σ) ν String) false t n₁)
    (hx : Passes l m n₁ x a n₂)
    (hclosing : Yields l m n₂ (n₂ + m) (readToken closing : Action (Stream σ) ν String) false t' n') :
    Yields l m n k (enclosed opening closing x) true a n' :=
  (hopening.bind (hx.bind (hclosing.map fun _ => a).passes).transaction.commit).transaction

end Lists

/-- White space and the byte `b`, which fit in a window with one byte more. -/
def Closes (l : List UInt8) (m n : Nat) (b : UInt8) : Prop :=
  ∃ w c n', IsBlank w ∧ String.utf8EncodeChar c = [b] ∧ Spans l n (w ++ [c]) n' ∧ n' < n + m

section Closes

variable {b : UInt8}

theorem Closes.exists_finds (h : Closes l m n b) (hb : CodePoints.space.lets b = false) :
    ∃ n₁, Finds l n n₁ b ∧ n₁ < n + m := by
  obtain ⟨w, c, n', hw, hc, hs, hlt⟩ := h
  obtain ⟨n₁, hfinds, hspans⟩ := Json.exists_finds (b := b) hw hs
    (by rw [Utf8.encode_cons, hc]; rfl) hb
  exact ⟨n₁, hfinds, Nat.lt_of_le_of_lt hspans.le hlt⟩

/-- A lexeme ends before white space and a byte that belongs to no number. -/
theorem delimited_of_spans {w x : List Char} {c : Char} (hw : IsBlank w)
    (hs : Spans l n (w ++ c :: x) n') (hc : String.utf8EncodeChar c = [b])
    (hb : numeric.lets b = false) : Delimited (l.drop n) := by
  rw [hs.drop_eq, Utf8.encode_append, Utf8.encode_cons, hc, List.append_assoc]
  exact delimited_append hw (delimited_cons hb _)

theorem Closes.delimited (h : Closes l m n b) (hb : numeric.lets b = false) :
    Delimited (l.drop n) := by
  obtain ⟨w, c, n', hw, hc, hs, -⟩ := h
  exact delimited_of_spans hw hs hc hb

end Closes

/-! ### Texts -/

/-- There is room for the piece and one byte more in a window of `m` bytes. -/
def Fits (m : Nat) (piece : List Char) : Prop := (Utf8.encode piece).length < m

/-- The action that reads the items of an array behind the first one. -/
def readNext (x : Action (Stream σ) ν α) (bound : Nat) : Action (Stream σ) ν (List α) :=
  many (transaction (bind (readToken (sign "," ',')) fun _ => x)) none bound

/-- What `x` reads: an output and the text of its pieces.  The text has to fit up to the end of the
first piece; `b` tells whether there is a commit. -/
def StreamsOne (l : List UInt8) (m bound : Nat) (x : Nat → Action (Stream σ) ν α) (b : Bool) (a : α)
    (pieces : List (List Char)) : Prop :=
  ∀ n n' depth, Spans l n pieces.flatten n' → Delimited (l.drop n') →
    (∀ piece ∈ pieces.tail, Fits m piece) → n' ≤ n + depth → n' ≤ n + bound →
    Yields l m n (n + (Utf8.encode (pieces.headD [])).length + 1) (x depth) b a n'

/-- What a list of such things reads before the closing bracket `b`.  Behind the first thing each has
a comma before it. -/
def StreamsList (l : List UInt8) (m bound : Nat) (b : UInt8) (x : Nat → Action (Stream σ) ν α)
    (first : Bool) (as : List α) (pieces : List (List Char)) : Prop :=
  ∀ n n' depth, Spans l n pieces.flatten n' → Closes l m n' b → (∀ piece ∈ pieces, Fits m piece) →
    n' < n + depth → n' < n + bound →
    if first then Passes l m n (separated (x depth) (readToken (sign "," ',')) bound) as n'
    else Delimited (l.drop n) ∧ ∀ i, n' < n + i → Passes l m n (readNext (x depth) i) as n'

section Lists

variable {bound : Nat} {b : UInt8} {x : Nat → Action (Stream σ) ν α} {a : α} {as : List α}
  {pieces pieces' : List (List Char)}

/-- The brackets that close a list. -/
def IsClosing (b : UInt8) : Prop := b = 0x5D ∨ b = 0x7D

theorem streamsList_nil (hb : IsClosing b)
    (hx : ∀ {n n' depth}, 0 < depth → Finds l n n' b → Declines l m n (n' + 1) (x depth))
    (first : Bool) : StreamsList l m bound b x first [] [] := by
  have hbyte : CodePoints.space.lets b = false ∧ numeric.lets b = false ∧
      Refuses (sign "," ',') b := by
    rcases hb with rfl | rfl <;> decide
  obtain ⟨hblank, hnumeric, hcomma⟩ := hbyte
  intro n n' depth hs hcloses _ hdepth _
  obtain rfl := spans_nil.1 hs
  obtain ⟨n₁, hfinds, hlt⟩ := hcloses.exists_finds hblank
  cases first with
  | true => exact passes_separated_nil ((hx (by omega) hfinds).mono hlt)
  | false =>
    refine ⟨hcloses.delimited hnumeric, fun i hi => ?_⟩
    have hnext : Declines l m n' (n' + m) (readToken (sign "," ',') : Action (Stream σ) ν String) :=
      (hfinds.declines hcomma rfl).mono hlt
    exact passes_many_nil (hnext.bind _).transaction (by omega)

/-- One thing before the others. -/
theorem streamsList_cons {flag first : Bool} {w : List Char} (hw : IsBlank w)
    (hx : StreamsOne l m bound x flag a pieces)
    (hrest : StreamsList l m bound b x false as pieces') :
    StreamsList l m bound b x first (a :: as) (putBehind (separator first w) pieces ++ pieces') := by
  intro n n' depth hs hcloses hfits hdepth hbound
  rw [List.flatten_append, flatten_putBehind, List.append_assoc] at hs
  obtain ⟨n₁, hseparator, hs⟩ := hs.split
  obtain ⟨n₂, hthing, hothers⟩ := hs.split
  have hle := hseparator.le
  have hle₁ := hthing.le
  have hle₂ := hothers.le
  rw [putBehind_eq] at hfits
  have hfirst : Fits m (separator first w ++ pieces.headD []) := hfits _ List.mem_cons_self
  have hroom : n₁ + (Utf8.encode (pieces.headD [])).length + 1 ≤ n + m := by
    have hlength := hseparator.length_eq
    unfold Fits at hfirst
    rw [Utf8.encode_append, List.length_append] at hfirst
    omega
  obtain ⟨hdelimited, hmore⟩ := hrest n₂ n' depth hothers hcloses
    (fun piece hpiece => hfits piece (List.mem_append_right _ hpiece)) (by omega) (by omega)
  have hyields : Yields l m n₁ (n + m) (x depth) flag a n₂ :=
    (hx n₁ n₂ depth hthing hdelimited (fun piece hpiece => hfits piece
      (List.mem_append_left _ (List.mem_cons_of_mem _ hpiece))) (by omega) (by omega)).mono hroom
  cases first with
  | true =>
    obtain rfl := spans_nil.1 hseparator
    exact passes_separated_cons hyields (hmore bound (by omega))
  | false =>
    have hseparator : Spans l n (w ++ [',']) n₁ := hseparator
    have hlt := hseparator.lt (by simp)
    refine ⟨delimited_of_spans hw hseparator rfl (by decide), fun i hi => ?_⟩
    obtain ⟨i, rfl⟩ : ∃ i', i = i' + 1 := ⟨i - 1, by omega⟩
    have hcomma : Yields l m n (n + m) (readToken (sign "," ',') : Action (Stream σ) ν String)
        false _ n₁ :=
      (yields_readSign "," hw hseparator rfl (by decide)).mono (by omega)
    exact passes_many_cons (hcomma.bind hyields).transaction (by omega) (hmore i (by omega))

end Lists

section Enclosed

variable {bound depth : Nat} {b b' : UInt8} {c d : Char} {w w' : List Char}
  {x : Nat → Action (Stream σ) ν α} {as : List α} {pieces : List (List Char)}

/-- A list between brackets: the first piece ends with the opening bracket, and the last one is the
closing bracket. -/
theorem yields_list (opening closing : String) (hw : IsBlank w) (hw' : IsBlank w')
    (hc : String.utf8EncodeChar c = [b']) (hb' : CodePoints.space.lets b' = false)
    (hd : String.utf8EncodeChar d = [b]) (hb : CodePoints.space.lets b = false)
    (hlist : StreamsList l m bound b x true as pieces)
    (hs : Spans l n ((w ++ [c]) :: (pieces ++ [w' ++ [d]])).flatten n')
    (hfits : ∀ piece ∈ pieces ++ [w' ++ [d]], Fits m piece) (hdepth : n' ≤ n + (depth + 1))
    (hbound : n' ≤ n + bound) :
    Yields l m n (n + (Utf8.encode (w ++ [c])).length + 1)
      (enclosed (sign opening c) (sign closing d)
        (separated (x depth) (readToken (sign "," ',')) bound)) true as n' := by
  rw [List.flatten_cons, List.flatten_append, List.flatten_singleton] at hs
  obtain ⟨n₁, hopen, hs⟩ := hs.split
  obtain ⟨n₂, hitems, hclose⟩ := hs.split
  have hlt := hopen.lt (by simp)
  have hle := hitems.le
  have hlt' := hclose.lt (by simp)
  have hfit : n' < n₂ + m := by
    have hlast : Fits m (w' ++ [d]) :=
      hfits _ (List.mem_append_right _ (List.mem_singleton.2 rfl))
    rw [hclose.length_eq]
    exact Nat.add_lt_add_left hlast n₂
  have hcontents := hlist n₁ n₂ depth hitems ⟨w', d, n', hw', hd, hclose, hfit⟩
    (fun piece hpiece => hfits piece (List.mem_append_left _ hpiece)) (by omega) (by omega)
  rw [← hopen.length_eq]
  exact yields_enclosed (yields_readSign opening hw hopen hc hb') hcontents
    ((yields_readSign closing hw' hclose hd hb).mono hfit)

theorem Finds.declines_enclosed {opening closing : Pattern} {y : Action (Stream σ) ν α}
    (h : Finds l n n' b) (hb : Refuses opening b) (hp : opening.IsLookFree) :
    Declines l m n (n' + 1) (enclosed opening closing y) :=
  ((h.declines hb hp).bind _).transaction

end Enclosed

/-! ### Values -/

section Value

variable {bound depth k : Nat} {b : UInt8} {v : Value} {z : Action (Stream σ) ν Value}
  {pieces : List (List Char)} {w w' : List Char}

theorem Finds.declines_readObject (h : Finds l n n' b) (hb : Refuses (sign "\\\x7b" '\x7b') b) :
    Declines l m n (n' + 1) (readObject z bound) :=
  (h.declines_enclosed hb rfl).bind _

/-- No value begins with a closing bracket. -/
theorem Finds.declines_value (hb : IsClosing b) (hdepth : 0 < depth) (h : Finds l n n' b) :
    Declines l m n (n' + 1) (readNested bound depth : Action (Stream σ) ν Value) := by
  have hbyte : (Refuses nothing b ∧ Refuses truth b ∧ Refuses numeral b ∧ Refuses quoted b) ∧
      Refuses (sign "\\\x7b" '\x7b') b ∧ Refuses (sign "\\[" '[') b := by
    rcases hb with rfl | rfl <;> decide
  obtain ⟨⟨hnothing, htruth, hnumeral, hquoted⟩, hobject, harray⟩ := hbyte
  obtain ⟨depth, rfl⟩ := Nat.exists_eq_succ_of_ne_zero (Nat.ne_of_gt hdepth)
  exact ((h.declines_scalar ⟨hnothing, htruth, hnumeral, hquoted⟩).orElse
    (h.declines_readObject hobject)).orElse ((h.declines_enclosed harray rfl).bind _)

theorem Finds.declines_member (hb : IsClosing b) (h : Finds l n n' b) :
    Declines l m n (n' + 1) (readMember z) := by
  have hbyte : Refuses quoted b := by rcases hb with rfl | rfl <;> decide
  exact ((h.declines_readLexeme hbyte rfl _ _).bind _).transaction

/-- A member is read as its value is. -/
theorem streamsOne_member {flag : Bool} {w₁ w₂ x : List Char} {key : String} (hw₁ : IsBlank w₁)
    (hx : IsString x key) (hw₂ : IsBlank w₂)
    (hv : StreamsOne (σ := σ) (ν := ν) l m bound (readNested bound) flag v pieces) :
    StreamsOne (σ := σ) (ν := ν) l m bound (fun depth => readMember (readNested bound depth)) flag
      (key, v) (putBehind (w₁ ++ x ++ (w₂ ++ [':'])) pieces) := by
  intro n n' depth hs hrest hfits hdepth hbound
  rw [flatten_putBehind] at hs
  rw [putBehind_eq] at hfits ⊢
  obtain ⟨n₁, hname, hvalue⟩ := hs.split
  obtain ⟨n₂, hkey, hcolon⟩ := hname.split
  have hle := hname.le
  have hlt := hcolon.lt (by simp)
  have hplace : n + (Utf8.encode ((w₁ ++ x ++ (w₂ ++ [':'])) ++ pieces.headD [])).length + 1 =
      n₁ + (Utf8.encode (pieces.headD [])).length + 1 := by
    rw [hname.length_eq, Utf8.encode_append _ (pieces.headD []), List.length_append]
    omega
  rw [List.headD_cons, hplace]
  have hstring : Yields l m n (n₂ + 1) (readString : Action (Stream σ) ν String) false key n₂ :=
    yields_readString hw₁ hx hkey (delimited_of_spans hw₂ hcolon rfl (by decide))
  have hsign : Yields l m n₂ (n₁ + 1) (readToken (sign ":" ':') : Action (Stream σ) ν String) false
      _ n₁ := yields_readSign ":" hw₂ hcolon rfl (by decide)
  have hyields := hv n₁ n' depth hvalue hrest hfits (by omega) (by omega)
  exact ((hstring.mono (by omega)).bind
    ((((hsign.mono (by omega)).bind hyields).transaction).map fun v => (key, v))).transaction

/-- There is something to read, so the depth is not used up. -/
theorem Spans.exists_depth {x y : List Char} (hs : Spans l n (x ++ y) n') (hx : x ≠ [])
    (hdepth : n' ≤ n + depth) : ∃ depth', depth = depth' + 1 := by
  obtain ⟨n₁, hfirst, hrest⟩ := hs.split
  have hlt := hfirst.lt hx
  have hle := hrest.le
  exact ⟨depth - 1, by omega⟩

theorem streamsOne_scalar {x : List Char} (hw : IsBlank w) (hx : Scalar x v) :
    StreamsOne (σ := σ) (ν := ν) l m bound (readNested bound) v.isEnclosed v [w ++ x] := by
  intro n n' depth hs hrest _ hdepth _
  obtain ⟨depth, rfl⟩ := hs.exists_depth (by simp [hx.ne_nil]) hdepth
  rw [List.flatten_singleton] at hs
  have hflag : v.isEnclosed = false := by cases hx <;> rfl
  rw [hflag, List.headD_cons, ← hs.length_eq]
  exact yields_scalar hw hx hs hrest

/-- What begins with an opening bracket is no scalar. -/
theorem declines_before_bracket {c : Char} {y : List Char} (hw : IsBlank w)
    (hs : Spans l n ((w ++ [c]) ++ y) n') (hc : String.utf8EncodeChar c = [b])
    (hb : CodePoints.space.lets b = false) :
    ∃ n₁, Finds l n n₁ b ∧ n₁ + 1 ≤ n + (Utf8.encode (w ++ [c])).length + 1 := by
  obtain ⟨n₂, hopen, -⟩ := hs.split
  obtain ⟨n₁, hfinds, hbracket⟩ := exists_finds (b := b) hw hopen
    (by rw [Utf8.encode_cons, hc]; rfl) hb
  rw [← hopen.length_eq]
  exact ⟨n₁, hfinds, Nat.succ_le_succ hbracket.le⟩

theorem streamsOne_array {vs : List Value} (hw : IsBlank w) (hw' : IsBlank w')
    (hlist : StreamsList (σ := σ) (ν := ν) l m bound 0x5D (readNested bound) true vs pieces) :
    StreamsOne (σ := σ) (ν := ν) l m bound (readNested bound) true (.array vs)
      ((w ++ ['[']) :: (pieces ++ [w' ++ [']']])) := by
  intro n n' depth hs _ hfits hdepth hbound
  obtain ⟨depth, rfl⟩ := hs.exists_depth (by simp) hdepth
  obtain ⟨n₁, hfinds, hle⟩ := declines_before_bracket (b := 0x5B) hw hs rfl (by decide)
  have hitems := yields_list "\\[" "\\]" hw hw' rfl (by decide) rfl (by decide) hlist hs hfits
    hdepth hbound
  have hscalar : RefusesScalars 0x5B := ⟨by decide, by decide, by decide, by decide⟩
  exact Yields.orElse_right (((hfinds.declines_scalar hscalar).orElse
    (hfinds.declines_readObject (by decide))).mono hle) (hitems.map Value.array)

theorem streamsOne_object {as as' : List (String × Value)} (hw : IsBlank w) (hw' : IsBlank w')
    (has : IsObjectOf as as')
    (hlist : StreamsList (σ := σ) (ν := ν) l m bound 0x7D
      (fun depth => readMember (readNested bound depth)) true as pieces) :
    StreamsOne (σ := σ) (ν := ν) l m bound (readNested bound) true (.object as')
      ((w ++ ['\x7b']) :: (pieces ++ [w' ++ ['\x7d']])) := by
  intro n n' depth hs _ hfits hdepth hbound
  obtain ⟨depth, rfl⟩ := hs.exists_depth (by simp) hdepth
  obtain ⟨n₁, hfinds, hle⟩ := declines_before_bracket (b := 0x7B) hw hs rfl (by decide)
  have hmembers := (yields_list "\\\x7b" "\\\x7d" hw hw' rfl (by decide) rfl (by decide) hlist hs
    hfits hdepth hbound).map Value.ofMembers
  rw [Value.ofMembers_eq_iff.2 has] at hmembers
  have hscalar : RefusesScalars 0x7B := ⟨by decide, by decide, by decide, by decide⟩
  exact (Yields.orElse_right ((hfinds.declines_scalar hscalar).mono hle) hmembers).orElse_left _

end Value

/-- What reading a text of a shape does. -/
def Streams (σ : Type) [Source σ] (ν : Type) (l : List UInt8) (m bound : Nat) :
    Shape → List (List Char) → Prop
  | .value v => StreamsOne (σ := σ) (ν := ν) l m bound (readNested bound) v.isEnclosed v
  | .items first vs => StreamsList (σ := σ) (ν := ν) l m bound 0x5D (readNested bound) first vs
  | .members first as =>
    StreamsList (σ := σ) (ν := ν) l m bound 0x7D (fun depth => readMember (readNested bound depth))
      first as

/-- **JSON is read piece by piece.**  Whatever has the syntax of JSON is read, if there is room for
each of its pieces. -/
theorem streams_of_cut {bound : Nat} {shape : Shape} {pieces : List (List Char)}
    (h : Cut shape pieces) : Streams σ ν l m bound shape pieces := by
  induction h with
  | scalar hw hx => exact streamsOne_scalar hw hx
  | array hw _ hw' ih => exact streamsOne_array hw hw' ih
  | object hw _ hm hw' ih => exact streamsOne_object hw hw' hm ih
  | noItems =>
    exact streamsList_nil (.inl rfl) (fun hdepth hfinds => hfinds.declines_value (.inl rfl) hdepth) _
  | item hw _ _ ihv ihl => exact streamsList_cons hw ihv ihl
  | noMembers =>
    exact streamsList_nil (.inr rfl) (fun _ hfinds => hfinds.declines_member (.inr rfl)) _
  | member hw hw₁ hx hw₂ _ _ ihv ihl =>
    rw [putBehind_append]
    exact streamsList_cons hw (streamsOne_member hw₁ hx hw₂ ihv) ihl

/-! ### The end of a document -/

theorem tells_ending : ending.Tells [] 1 (.matched 0) where
  pos := Nat.one_pos
  isSettled := MatchStatus.noConfusion
  inside h := absurd h (by decide)
  ended _ := matchAt_of_textEnd rfl [] (Nat.le_refl 0) true

/-- White space and the end of the stream. -/
theorem yields_readEnd {w : List Char} (hw : IsBlank w) (hs : Spans l n w n')
    (hend : l.drop n' = []) :
    Yields l m n (n' + 1) (readEnd : Action (Stream σ) ν Unit) false () n' := by
  have hspaces : Yields l m n (n' + 1) (matchPattern spaces : Action (Stream σ) ν String) false
      (String.ofList w) n' := by
    refine yields_spaces hw hs fun b hb => ?_
    rw [hend] at hb
    cases hb
  have htells := tells_ending
  rw [← hend] at htells
  have hending : Yields l m n' (n' + 1) (matchPattern ending : Action (Stream σ) ν String) false ""
      n' := by
    refine yields_matchPattern (streamable_of_textEnd rfl) htells ?_
    rw [hend]
    rfl
  exact (hspaces.bind (hending.bind (yields_pure ()))).transaction

/-- The white space at the end of the stream ends a lexeme. -/
theorem delimited_at_end {w : List Char} (hw : IsBlank w) (hs : Spans l n w n')
    (hend : l.drop n' = []) : Delimited (l.drop n) := by
  rw [hs.drop_eq, hend]
  exact delimited_append hw fun b hb => by cases hb

/-- A document is read if there is room for each of its pieces. -/
theorem yields_document {bound depth : Nat} {v : Value} {pieces : List (List Char)}
    (h : DocumentCut v pieces) (hs : Spans l n pieces.flatten n') (hend : l.drop n' = [])
    (hfits : ∀ piece ∈ pieces, Fits m piece) (hdepth : n' ≤ n + depth) (hbound : n' ≤ n + bound) :
    Yields l m n (n + m) (bind (readNested bound depth) fun v => bind readEnd fun _ => pure v :
      Action (Stream σ) ν Value) v.isEnclosed v n' := by
  cases h with
  | @scalar w x w' v hw hx hw' =>
    have hfit : Fits m (w ++ x ++ w') := hfits _ (List.mem_singleton.2 rfl)
    rw [List.flatten_singleton] at hs
    have hroom : n' < n + m := hs.length_eq ▸ Nat.add_lt_add_left hfit n
    obtain ⟨n₁, hvalue, hblank⟩ := hs.split
    have hle := hblank.le
    have hv : StreamsOne (σ := σ) (ν := ν) l m bound (readNested bound) v.isEnclosed v [w ++ x] :=
      streams_of_cut (.scalar hw hx)
    have hyields := hv n n₁ depth (by rwa [List.flatten_singleton])
      (delimited_at_end hw' hblank hend) (fun _ hno => absurd hno List.not_mem_nil) (by omega)
      (by omega)
    rw [List.headD_cons, ← hvalue.length_eq] at hyields
    have hflag : v.isEnclosed = false := by cases hx <;> rfl
    rw [hflag] at hyields ⊢
    exact (hyields.mono (by omega)).bind
      (((yields_readEnd hw' hblank hend).mono hroom).map fun _ => v)
  | @enclosed w' v pieces hv henclosed hw' =>
    rw [List.flatten_append, List.flatten_singleton] at hs
    obtain ⟨n₁, hvalue, hblank⟩ := hs.split
    have hle := hblank.le
    have hlast : Fits m w' := hfits _ (List.mem_append_right _ (List.mem_singleton.2 rfl))
    have hroom : n' < n₁ + m := hblank.length_eq ▸ Nat.add_lt_add_left hlast n₁
    have hfirst : (Utf8.encode (pieces.headD [])).length < m := by
      cases pieces with
      | nil => exact Nat.zero_lt_of_lt hlast
      | cons piece pieces => exact hfits piece (List.mem_append_left _ List.mem_cons_self)
    have hv : StreamsOne (σ := σ) (ν := ν) l m bound (readNested bound) v.isEnclosed v pieces :=
      streams_of_cut hv
    have hyields := hv n n₁ depth hvalue (delimited_at_end hw' hblank hend)
      (fun piece hpiece => hfits piece (List.mem_append_left _ (List.mem_of_mem_tail hpiece)))
      (by omega) (by omega)
    rw [henclosed] at hyields ⊢
    exact (hyields.mono (by omega)).bind_committed
      (((yields_readEnd hw' hblank hend).mono hroom).map fun _ => v)

/-! ### Documents from a tokenizer -/

/-- A document is read from a fresh tokenizer that has room for each of its pieces and one byte
more. -/
theorem parseTokens_of_cut {v : Value} {pieces : List (List Char)} (h : DocumentCut v pieces)
    {source : σ} (hs : Delivers source (Utf8.encode pieces.flatten)) {t : Tokenizer σ}
    (ht : t.Fresh source) (hfits : ∀ piece ∈ pieces, Fits t.window.capacity piece) {bound : Nat}
    (hbound : (Utf8.encode pieces.flatten).length ≤ bound) :
    ∃ t', parseTokens bound t = some (.ok v, t') := by
  have hposition : t.position = 0 := by
    unfold Tokenizer.position
    rw [ht.window_eq]
    rfl
  have hserves := ht.serves hs
  have hmarks : t.window.marks = [] := by
    rw [ht.window_eq]
    rfl
  have hspans : Spans (Utf8.encode pieces.flatten) 0 pieces.flatten
      (Utf8.encode pieces.flatten).length := by
    refine ⟨?_, (Nat.zero_add _).symm⟩
    rw [List.drop_length, List.append_nil]
    rfl
  have hyields : Yields (Utf8.encode pieces.flatten) t.window.capacity 0 (0 + t.window.capacity)
      (bind (readNested bound (bound + 1)) fun v => bind readEnd fun _ => pure v :
        Action (Stream σ) Empty Value) _ v _ :=
    yields_document h hspans List.drop_length hfits (by omega) (by omega)
  have hbegun : (begun (⟨Stream.start t, []⟩ : Session (Stream σ) Empty)).At
      (Utf8.encode pieces.flatten) t.window.capacity 0 :=
    ⟨(Tokenizer.stable_serves _).mark _ hserves, rfl, hposition, Nat.one_pos⟩
  have hreach : 0 + t.window.capacity ≤ (Stream.start t).reach := by
    unfold Stream.reach
    show _ ≤ oldest t.position t.window.marks + t.window.capacity
    rw [hmarks, hposition]
    exact Nat.le_refl _
  obtain ⟨s', hs', -⟩ := hyields.attempt_ok (s := ⟨Stream.start t, []⟩) hbegun hserves hreach
  refine ⟨s'.input.tokenizer, ?_⟩
  -- no trial has begun yet, so the document is tried
  have hrun : readDocument (readNested bound (bound + 1))
      (⟨Stream.start t, []⟩ : Session (Stream σ) Empty) = some (.ok v, s') := hs'
  rw [parseTokens_eq, hrun]
  rfl

end StreamParser.Json
