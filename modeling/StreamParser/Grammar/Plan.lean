import StreamParser.Json.Grammar

/-!
# Grammars as data

A plan describes a grammar with values of JSON as outputs, so that a grammar can be written down and
read in.  `Plan.build` makes the grammar, or refuses the plan.  Some parts of a plan are built late,
when the grammar runs: one of those that is refused becomes a grammar that fails.
-/

namespace StreamParser

open Json (Value Number)

/-- A change of an output. -/
inductive Transform
  /-- Capital letters for small ones, within ASCII. -/
  | upper
  /-- The number of items of an array, or of bytes of a text. -/
  | size
  /-- The texts in nested arrays, one after the other. -/
  | concat
  /-- The integer that a text writes, or null. -/
  | int
  /-- An array with the output as its only item. -/
  | wrap
  /-- How deeply arrays and objects are nested. -/
  | depth
  /-- The next integer. -/
  | succ
  /-- The sum of the integers in an array. -/
  | sum
  deriving DecidableEq, Repr

/-- A test of an output. -/
inductive Test
  | sizeEq (n : Nat)
  | sizeLt (n : Nat)
  | equal (v : Value)
  | never

/-- The parts of the grammar of JSON. -/
inductive JsonPart
  | null | boolean | number | string | array | object | value | document
  deriving DecidableEq, Repr

mutual

/-- The description of a grammar. -/
inductive Plan
  /-- What matches a regular expression; one that cannot be compiled makes a grammar that fails. -/
  | regex (r : String)
  /-- What matches a regular expression; one that cannot be compiled is refused. -/
  | checkedRegex (r : String)
  | literal (t : String)
  | token (r : String)
  | trim (p : Plan)
  | whitespace
  | endOfInput
  | succeed (v : Value)
  | failure (message : String)
  /-- Built late. -/
  | late (p : Plan)
  /-- What a rule says. -/
  | named (name : String)
  | andThen (p : Plan) (next : Continuation)
  | map (p : Plan) (f : Transform)
  | filter (p : Plan) (t : Test)
  | or (p q : Plan)
  /-- The second is built late, and this is noted. -/
  | orElse (p q : Plan)
  | label (p : Plan) (message : String)
  | seq (p q : Plan)
  | skip (p q : Plan)
  | skipLeft (p q : Plan)
  | commit (p : Plan)
  | letGo (p : Plan)
  | attempt (p : Plan)
  | transaction (p : Plan)
  | zeroOrOne (p : Plan)
  | zeroOrMore (p : Plan)
  | oneOrMore (p : Plan)
  | exactly (p : Plan) (n : Nat)
  | atLeast (p : Plan) (n : Nat)
  | between (p : Plan) (least most : Nat)
  | separatedByOneOrMore (p separator : Plan)
  | separatedByZeroOrMore (p separator : Plan)
  | surroundedWith (p opening closing : Plan)
  | json (part : JsonPart)
  /-- The beginning and the end are noted. -/
  | log (label : String) (p : Plan)

/-- How a grammar goes on after an output.  The plans in it are built late. -/
inductive Continuation
  /-- The text of the output once more. -/
  | again
  /-- As many things as the output says. -/
  | count (p : Plan)
  /-- The output together with another one. -/
  | pair (p : Plan)
  /-- The plan that belongs to the text of the output. -/
  | switch (cases : List (String × Plan))

end

/-- The names of rules: values of JSON, and the rules that come with a plan. -/
inductive RuleName
  | jsonValue
  | named (name : String)
  deriving DecidableEq, Repr

/-- What is noted in the journal of a run. -/
inductive Remark
  /-- The grammar goes on after an output. -/
  | continuing (output : Value)
  /-- The second of two alternatives is built. -/
  | buildingAlternative
  /-- A part begins. -/
  | started (label : String) (position : Nat)
  /-- A part has been read. -/
  | finished (label : String) (position : Nat)
  /-- A part has failed. -/
  | failed (label : String) (position : Nat)

namespace Plan

/-- The grammars that plans describe. -/
abbrev Built : Type 1 := Grammar RuleName Value Remark Value

/-- The text of a value. -/
def text : Value → String
  | .string s => s
  | _ => ""

/-- The number of items of an array, or of bytes of a text. -/
def size : Value → Nat
  | .array items => items.length
  | v => (text v).utf8ByteSize

/-- An integer, if it fits into 64 bits with a sign. -/
def smallInt? (n : Int) : Option Int :=
  if -0x8000000000000000 ≤ n ∧ n < 0x8000000000000000 then some n else none

/-- The integer that a value is. -/
def int? : Value → Option Int
  | .number (.integer n) => smallInt? n
  | _ => none

/-- The integer that a text writes, with digits and perhaps a sign. -/
def readInt? (t : String) : Option Int :=
  let digits? (l : List Char) : Option Int :=
    if l.isEmpty || !l.all Char.isDigit then none
    else some (l.foldl (fun (n : Int) c => 10 * n + (c.toNat - '0'.toNat : Nat)) 0)
  match t.toList with
  | '-' :: l => (digits? l).bind fun n => smallInt? (-n)
  | '+' :: l => (digits? l).bind smallInt?
  | l => (digits? l).bind smallInt?

/-- An integer as a value, or null. -/
def ofInt? : Option Int → Value
  | some n => .number (.integer n)
  | none => .null

/-- Apply a change. -/
def transform : Transform → Value → Value
  | .upper, v => .string (text v).toUpper
  | .size, v => .number (.integer (size v))
  | .concat, v => .string v.concatenated
  | .int, v => ofInt? (readInt? (text v))
  | .wrap, v => .array [v]
  | .depth, v => .number (.integer v.depth)
  | .succ, v => ofInt? ((int? v).map (· + 1))
  | .sum, .array items => .number (.integer ((items.filterMap int?).foldl (· + ·) 0))
  | .sum, _ => .number (.integer 0)

/-- Apply a test. -/
def holds : Test → Value → Bool
  | .sizeEq n, v => size v == n
  | .sizeLt n, v => size v < n
  | .equal w, v => v.equal w
  | .never, _ => false

/-- The number that a value is, or zero. -/
def countOf : Value → Nat
  | .number (.integer (.ofNat n)) => n
  | _ => 0

/-- A part of the grammar of JSON. -/
def ofJson : JsonPart → Built
  | .null => Json.null
  | .boolean => Json.boolean
  | .number => Json.number
  | .string => Json.string.map .string
  | .array => Json.array .jsonValue
  | .object => Json.object .jsonValue
  | .value => Json.value .jsonValue
  | .document => Json.document .jsonValue

/-- A list of outputs as one output. -/
def listed (g : Grammar RuleName Value Remark (List Value)) : Built := g.map .array

/-- A grammar that is built late: if it is refused, it fails. -/
def lateBuilt : Except ParseError Built → Built
  | .ok g => g
  | .error e => .fail e

/-- Note the beginning and the end of a part. -/
def logged (label : String) (g : Built) : Built :=
  g.remark fun
    | .entry, n => [.started label n]
    | .success, n => [.finished label n]
    | .failure, n => [.failed label n]

/-- What a compiled regular expression matches; one that cannot be compiled is refused. -/
def checked (r : String) : Except ParseError Built :=
  match Pattern.compile r with
  | .ok p => .ok ((Grammar.pattern (.ok p)).map .string)
  | .error e => .error (.pattern e)

end Plan

open Plan

mutual

/-- The grammar of a plan, if it is not refused. -/
def Plan.build : Plan → Except ParseError Built
  | .regex r => .ok ((Grammar.regex r).map .string)
  | .checkedRegex r => checked r
  | .literal t => .ok ((Grammar.literal t).map .string)
  | .token r => .ok ((Grammar.token r).map .string)
  | .trim p => do return (← p.build).trim
  | .whitespace => .ok (Grammar.whitespace.map .string)
  | .endOfInput => .ok (Grammar.endOfInput.map fun _ => .null)
  | .succeed v => .ok (.succeed v)
  | .failure m => .ok (Grammar.failure m)
  | .late p => .ok (lateBuilt p.build)
  | .named n => .ok (.rule (.named n))
  | .andThen p next => do
    let go := next.build
    return (← p.build).andThen fun v => (go v).remarking (.continuing v)
  | .map p f => do return (← p.build).map (transform f)
  | .filter p t => do return (← p.build).filter (holds t)
  | .or p q => do return (← p.build).orElse (← q.build)
  | .orElse p q => do return (← p.build).orElse ((lateBuilt q.build).remarking .buildingAlternative)
  | .label p m => do return (← p.build).label m
  | .seq p q => do return ((← p.build).seq (← q.build)).map fun (v, w) => .array [v, w]
  | .skip p q => do return (← p.build).skip (← q.build)
  | .skipLeft p q => do return (← p.build).skipLeft (← q.build)
  | .commit p => do return (← p.build).commit
  | .letGo p => do return (← p.build).letGo
  | .attempt p => do return (← p.build).attempt
  | .transaction p => do return (← p.build).transaction
  | .zeroOrOne p => do return (← p.build).zeroOrOne.map fun v => .array v.toList
  | .zeroOrMore p => do return listed (← p.build).zeroOrMore
  | .oneOrMore p => do return listed (← p.build).oneOrMore
  | .exactly p n => do return listed (.exactly n (← p.build))
  | .atLeast p n => do return listed (.atLeast n (← p.build))
  | .between p least most => do return listed (← Grammar.between least most (← p.build))
  | .separatedByOneOrMore p s => do
    let g ← p.build
    return listed (g.separatedByOneOrMore (← s.build))
  | .separatedByZeroOrMore p s => do
    let g ← p.build
    return listed (g.separatedByZeroOrMore (← s.build))
  | .surroundedWith p opening closing => do
    let g ← p.build
    return g.surroundedWith (← opening.build) (← closing.build)
  | .json part => .ok (ofJson part)
  | .log l p => do return logged l (← p.build)

/-- The grammar that a continuation goes on with. -/
def Continuation.build : Continuation → Value → Built
  | .again => fun v => (Grammar.literal (text v)).map .string
  | .count p =>
    let g := lateBuilt p.build
    fun v => listed (g.exactly (countOf v))
  | .pair p =>
    let g := lateBuilt p.build
    fun v => g.map fun w => .array [v, w]
  | .switch cases =>
    let built := Plan.buildCases cases
    fun v =>
      match built.find? (·.1 == text v) with
      | some (_, g) => g
      | none => Grammar.failure ("no case for " ++ text v)

/-- The grammars of the cases of a continuation. -/
def Plan.buildCases : List (String × Plan) → List (String × Built)
  | [] => []
  | (k, p) :: rest => (k, lateBuilt p.build) :: Plan.buildCases rest

end

namespace Plan

/-- What rules mean, given their plans. -/
def rules (plans : List (String × Plan)) : RuleName → Built :=
  let built := plans.map fun (n, p) => (n, lateBuilt p.build)
  fun
    | .jsonValue => Json.value .jsonValue
    | .named n =>
      match built.find? (·.1 == n) with
      | some (_, g) => g
      | none => Grammar.failure ("no rule " ++ n)

end Plan

end StreamParser
