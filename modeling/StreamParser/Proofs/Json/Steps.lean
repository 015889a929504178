import StreamParser.Proofs.Json.Tokens

/-!
# The steps of the grammar of JSON

The grammar is put together from a few kinds of steps.

* `readToken p` reads white space and a token, and `readLexeme p read refusal` converts the token.
* `separated x y bound` reads things `x` with separators `y` between them.
* `enclosed p q x` reads an opening bracket, commits, and reads `x` and the closing bracket.

`readValue x bound` is what the grammar of values does if `x` is what its rule does
(`action_value`), `readNested` calls itself to a given depth, and `readDocument` reads a value with
nothing but white space after it.  To parse is to do this (`parseText_eq`, `parseTokens_eq`).
-/

namespace StreamParser.Json

open StreamParser.Action Grammar

variable {ω ρ ν α β : Type} [Input ω]

/-- Read white space and a token. -/
def readToken (p : Pattern) : Action ω ν String :=
  transaction (bind (matchPattern spaces) fun _ => matchPattern p)

/-- Read a token and convert it.  One that cannot be converted is refused. -/
def readLexeme (p : Pattern) (read : String → Except Fault α) (refusal : String → Fault → String) :
    Action ω ν α :=
  transaction (bind (readToken p) fun t =>
    match read t with
    | .ok a => pure a
    | .error e => fail (.failure (refusal t e)))

/-- Read white space and the end of the input. -/
def readEnd : Action ω ν Unit :=
  transaction (bind (matchPattern spaces) fun _ => bind (matchPattern ending) fun _ => pure ())

/-- Read any number of things with separators between them; the bound is on their number. -/
def separated (x : Action ω ν α) (y : Action ω ν β) (bound : Nat) : Action ω ν (List α) :=
  bind (orElse (bind x fun a => pure (some a)) (pure none)) fun
    | some first =>
      bind (many (transaction (bind y fun _ => x)) none bound) fun rest => pure (first :: rest)
    | none => pure []

/-- Read a thing between brackets.  After the opening bracket there is a commit. -/
def enclosed (opening closing : Pattern) (x : Action ω ν α) : Action ω ν α :=
  transaction (bind (readToken opening) fun _ =>
    Action.commit (transaction (bind x fun a => bind (readToken closing) fun _ => pure a)))

variable {rules : ρ → Action ω ν Value} (bound : Nat)

theorem action_map (f : α → β) (g : Grammar ρ Value ν α) :
    (g.map f).action rules bound = bind (g.action rules bound) fun a => pure (f a) := by
  simp only [Grammar.map, action]

theorem action_andThen (g : Grammar ρ Value ν α) (next : α → Grammar ρ Value ν β) :
    (g.andThen next).action rules bound =
      transaction (bind (g.action rules bound) fun a => (next a).action rules bound) := by
  simp only [Grammar.andThen, action]

theorem action_skip (g : Grammar ρ Value ν α) (h : Grammar ρ Value ν β) :
    (g.skip h).action rules bound = transaction (bind (g.action rules bound) fun a =>
      bind (h.action rules bound) fun _ => pure a) := by
  simp only [Grammar.skip, action_andThen, action_map]

theorem action_skipLeft (g : Grammar ρ Value ν α) (h : Grammar ρ Value ν β) :
    (g.skipLeft h).action rules bound =
      transaction (bind (g.action rules bound) fun _ => h.action rules bound) := by
  simp only [Grammar.skipLeft, action_andThen]

theorem action_token {p : Pattern} {regex : Except PatternError Pattern} (h : regex = .ok p) :
    (token regex : Grammar ρ Value ν String).action rules bound = readToken p := by
  subst h
  simp only [token, trim, action_skipLeft, action, spacePattern_eq]
  rfl

theorem action_separated (g : Grammar ρ Value ν α) (h : Grammar ρ Value ν β) :
    (separatedByZeroOrMore g h).action rules bound =
      separated (g.action rules bound) (h.action rules bound) bound := by
  simp only [separatedByZeroOrMore, zeroOrOne, action, action_map, separated]
  congr 1
  funext first
  cases first with
  | none => simp only [action]
  | some first => simp only [separatedTail, action_map, action, action_skipLeft]

theorem action_enclosed {p q : Pattern} {opening closing : Except PatternError Pattern}
    (hp : opening = .ok p) (hq : closing = .ok q) (g : Grammar ρ Value ν α) :
    ((token opening).skipLeft (Grammar.commit (g.skip (token closing)))).action rules bound =
      enclosed p q (g.action rules bound) := by
  simp only [action_skipLeft, action, action_skip, action_token bound hp, action_token bound hq]
  rfl

/-! ### The parts of the grammar -/

/-- Read a number. -/
def readNumber : Action ω ν Value :=
  readLexeme numeral (fun t => (Number.ofText t).map .number)
    fun t e => "invalid number `" ++ t ++ "`: " ++ e.message

/-- Read a string. -/
def readString : Action ω ν String :=
  readLexeme quoted StringLiteral.ofText fun t e => "invalid string " ++ t ++ ": " ++ e.message

theorem action_number : (number : Grammar ρ Value ν Value).action rules bound = readNumber := by
  simp only [number, action_andThen, action_token bound numberPattern_eq, readNumber, readLexeme]
  congr 2
  funext t
  cases Number.ofText t with
  | ok n => simp only [action, Except.map]
  | error e => simp only [Grammar.failure, action, Except.map]

theorem action_string : (string : Grammar ρ Value ν String).action rules bound = readString := by
  simp only [string, action_andThen, action_token bound stringPattern_eq, readString, readLexeme]
  congr 2
  funext t
  cases StringLiteral.ofText t with
  | ok s => simp only [action]
  | error e => simp only [Grammar.failure, action]

/-- Read a member of an object: a key, a colon and a value. -/
def readMember (x : Action ω ν Value) : Action ω ν (String × Value) :=
  transaction (bind readString fun k =>
    bind (transaction (bind (readToken (sign ":" ':')) fun _ => x)) fun v => pure (k, v))

theorem action_property (item : ρ) : (property item : Grammar ρ Value ν _).action rules bound =
    readMember (rules item) := by
  simp only [property, Grammar.seq, action_andThen, action_map, action_string, action_skipLeft,
    action, action_token bound colonPattern_eq]
  rfl

/-- Read an array. -/
def readArray (x : Action ω ν Value) (bound : Nat) : Action ω ν Value :=
  bind (enclosed (sign "\\[" '[') (sign "\\]" ']')
    (separated x (readToken (sign "," ',')) bound)) fun l => pure (.array l)

theorem action_array (item : ρ) : (array item : Grammar ρ Value ν Value).action rules bound =
    readArray (rules item) bound := by
  simp only [array, action_map, action_enclosed bound openBracketPattern_eq closeBracketPattern_eq,
    action_separated, action, action_token bound commaPattern_eq, readArray]

/-- Read an object. -/
def readObject (x : Action ω ν Value) (bound : Nat) : Action ω ν Value :=
  bind (enclosed (sign "\\\x7b" '\x7b') (sign "\\\x7d" '\x7d')
    (separated (readMember x) (readToken (sign "," ',')) bound)) fun m => pure (Value.ofMembers m)

theorem action_object (item : ρ) : (object item : Grammar ρ Value ν Value).action rules bound =
    readObject (rules item) bound := by
  simp only [object, action_map, action_enclosed bound openBracePattern_eq closeBracePattern_eq,
    action_separated, action_property, action_token bound commaPattern_eq, readObject]

/-- Read a value: what it may be is tried in turn. -/
def readValue (x : Action ω ν Value) (bound : Nat) : Action ω ν Value :=
  orElse (orElse (orElse (orElse (orElse
    (bind (readToken nothing) fun _ => pure .null)
    (bind (readToken truth) fun t => pure (.boolean (t == "true"))))
    readNumber)
    (bind readString fun s => pure (.string s)))
    (readObject x bound))
    (readArray x bound)

theorem action_value (item : ρ) : (value item : Grammar ρ Value ν Value).action rules bound =
    readValue (rules item) bound := by
  simp only [value, null, boolean, action, action_map, action_token bound nullPattern_eq,
    action_token bound booleanPattern_eq, action_number, action_string, action_array,
    action_object, readValue]

/-- Read a value and nothing but white space after it. -/
def readDocument (x : Action ω ν Value) : Action ω ν Value :=
  transaction (bind x fun v => bind readEnd fun _ => pure v)

theorem action_document (item : ρ) : (document item : Grammar ρ Value ν Value).action rules bound =
    readDocument (readValue (rules item) bound) := by
  simp only [document, action_skip, action_value, trim, action_skipLeft, action_map, action,
    spacePattern_eq, endPattern_eq]
  rfl

/-- Read a value of at most a given depth. -/
def readNested (bound : Nat) : Nat → Action ω ν Value
  | 0 => fun _ => none
  | n + 1 => readValue (readNested bound n) bound

/-- This is what the rule of values does when it may call itself to the depth. -/
theorem ruleAction_eq (n : Nat) :
    (ruleAction valueRule bound n () : Action ω Empty Value) = readNested bound n := by
  induction n with
  | zero => rfl
  | succ n ih =>
    show (value ()).action (ruleAction valueRule bound n) bound = _
    rw [action_value, ih]
    rfl

theorem run_document : (run valueRule bound documentGrammar : Action ω Empty Value) =
    readDocument (readNested bound (bound + 1)) := by
  rw [run, documentGrammar, action_document, ruleAction_eq]
  rfl

theorem parseText_eq (t : String) :
    parseText t = (readDocument (readNested ((Utf8.bytes t).length + 2) ((Utf8.bytes t).length + 3))
      (⟨Cursor.start t, []⟩ : Session Cursor Empty)).map (·.1) := by
  simp only [parseText, run_document]
  rfl

theorem parseTokens_eq {σ : Type} [Source σ] (t : Tokenizer σ) :
    parseTokens bound t = (readDocument (readNested bound (bound + 1))
      (⟨Stream.start t, []⟩ : Session (Stream σ) Empty)).map fun x =>
        (x.1, x.2.input.tokenizer) := by
  unfold parseTokens
  rw [run_document]

end StreamParser.Json
