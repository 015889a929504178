import StreamParser.Regex.Expr
import StreamParser.Text.Utf8

/-!
# Scanning bytes with a regular expression

The state of a scan is a list of threads in order of priority.  A thread is what is left to be
matched; it may stand in the middle of an encoded character.

* `Scan.spread` follows a thread as far as it goes without reading: to the sets of which a character
  has to be read, to the assertions that are not known to hold, and to the end.  All places on the
  way are kept, in the order in which they are reached.  A place that has been reached is not
  followed again, so a repetition that has matched the empty text does not repeat that.
* `State.step` reads one byte.  If the byte makes some assertion hold at which a thread waits, all
  threads are first followed once more, in their order.  Then the threads read the byte in order of
  priority, up to the first that has nothing left to match: whatever comes after that one is
  dropped, and the state that is reached reports the match.  So a match is reported by the step
  *after* its last byte, when the byte that follows it, or the end of the input, is known.
* `State.isDead` says that no thread is left.  A thread that waits for a character of the set
  without members counts as one, though no byte lets it go on.
-/

namespace StreamParser

namespace Scan

/-- What is left to be matched. -/
inductive Thread
  /-- Between two characters: expressions that are matched one after the other.  The `rank` is that
  of the list; when threads are compared, it tells most of them apart before their lists are looked
  at. -/
  | start (rank : Nat) (rest : List Expr)
  /-- After the first bytes of a character, which must be one of `set`. -/
  | inside (lead : Utf8.Lead) (set : CodePoints) (rest : List Expr)
  deriving DecidableEq

namespace Thread

/-- The thread that has a list of expressions to match. -/
def ofList (rest : List Expr) : Thread := start (Expr.rank rest) rest

/-- Nothing is left to be matched. -/
def isDone : Thread → Bool
  | start _ [] => true
  | _ => false

/-- The ways on that read nothing, in order of priority, where the assertions `known` hold. -/
def ways (known : Look → Bool) : Thread → List Thread
  | start _ (.empty :: k) => [ofList k]
  | start _ (.look l :: k) => if known l then [ofList k] else []
  | start _ (.seq a b :: k) => [ofList (a :: b :: k)]
  | start _ (.alt a b :: k) => [ofList (a :: k), ofList (b :: k)]
  | start _ (.rep greedy (least + 1) most e :: k) =>
    [ofList (e :: .rep greedy least (most.map (· - 1)) e :: k)]
  | start _ (.rep _ 0 (some 0) _ :: k) => [ofList k]
  | start _ (.rep greedy 0 most e :: k) =>
    let again := ofList (e :: .rep greedy 0 (most.map (· - 1)) e :: k)
    if greedy then [again, ofList k] else [ofList k, again]
  | _ => []

/-- The assertion that the thread waits at. -/
def look? : Thread → Option Look
  | start _ (.look l :: _) => some l
  | _ => none

/-- A bound on the number of places that a thread reaches without reading. -/
def weight : Thread → Nat
  | start _ k => k.foldr (fun e bound => e.size + bound) 1
  | inside _ _ _ => 1

/-- Read a byte at the start of a character or after a lead, for a character of `set`. -/
def readInto (pending : Option Utf8.Lead) (set : CodePoints) (rest : List Expr) (b : UInt8) :
    Option Thread :=
  match Utf8.read pending b with
  | .char c => if set.contains c.toNat then some (ofList rest) else none
  | .lead l => if set.meets l.low l.high then some (inside l set rest) else none
  | .invalid => none

/-- What the thread is after a byte, if it can read it. -/
def read (b : UInt8) : Thread → Option Thread
  | start _ (.chars s :: k) => readInto none s k b
  | start _ _ => none
  | inside l s k => readInto (some l) s k b

end Thread

/-- Follow the threads in `stack` as far as they go without reading, and add what they reach to
`found`, each place once, the last one in front.  The first argument bounds the number of threads
that are looked at. -/
def follow (known : Look → Bool) : Nat → (stack found : List Thread) → List Thread
  | 0, _, found => found
  | _, [], found => found
  | n + 1, t :: stack, found =>
    if t ∈ found then follow known n stack found
    else follow known n (t.ways known ++ stack) (t :: found)

/-- What the threads reach without reading, themselves included, in the order in which it is
reached: one thread after the other is followed.  Each place that it reaches adds at most two
threads to those that have to be looked at. -/
def spread (known : Look → Bool) (threads : List Thread) : List Thread :=
  (threads.foldl (fun found t => follow known (2 * t.weight + 1) [t] found) []).reverse

/-- What has been found is kept. -/
theorem isSuffix_follow (known : Look → Bool) (n : Nat) (stack found : List Thread) :
    found <:+ follow known n stack found := by
  induction n generalizing stack found with
  | zero => exact List.suffix_rfl
  | succ n ih =>
    cases stack with
    | nil => exact List.suffix_rfl
    | cons t stack =>
      unfold follow
      split
      · exact ih _ _
      · exact (List.suffix_cons _ _).trans (ih _ _)

/-- A thread that is followed is found. -/
theorem mem_follow (known : Look → Bool) (n : Nat) (t : Thread) (found : List Thread) :
    t ∈ follow known (n + 1) [t] found := by
  unfold follow
  split
  · exact (isSuffix_follow known n [] found).subset ‹_›
  · exact (isSuffix_follow known n _ _).subset (by simp)

/-- Nothing is reached only from nothing. -/
theorem spread_eq_nil {known : Look → Bool} {threads : List Thread} :
    spread known threads = [] ↔ threads = [] := by
  rcases List.eq_nil_or_concat threads with rfl | ⟨l, t, rfl⟩
  · simp [spread]
  · simpa [spread] using List.ne_nil_of_mem (mem_follow known _ t _)

/-- The state of a scan between two bytes. -/
structure State where
  /-- The byte before. -/
  before : Option UInt8
  /-- The threads in order of priority, each before those that it leads to without reading. -/
  threads : List Thread
  /-- The scan matches up to the place before the last step. -/
  matched : Bool
  deriving DecidableEq

namespace State

/-- The state after the byte `before` with the threads that have come to it. -/
def arrive (before : Option UInt8) (threads : List Thread) (matched : Bool) : State :=
  ⟨before, spread (Look.holdsAfter before) threads, matched⟩

/-- The state in which a scan for `e` starts, after the byte `before`. -/
def init (before : Option UInt8) (e : Expr) : State := arrive before [.ofList [e]] false

/-- Nothing is matched from here on. -/
def isDead (s : State) : Bool := !s.matched && s.threads.isEmpty

/-- The threads once the next byte is known, or the end of the input.  If some thread waits at an
assertion that holds for that reason, all are followed again. -/
def threadsBefore (s : State) (next : Option UInt8) : List Thread :=
  let isNew (l : Look) : Bool := l.holds s.before next && !l.holdsAfter s.before
  if s.threads.any fun t => t.look?.any isNew then spread (·.holds s.before next) s.threads
  else s.threads

/-- What the threads make of a byte, up to the first that has nothing left to match; and whether
there is one. -/
def readAll (b : UInt8) (threads : List Thread) : List Thread × Bool :=
  ((threads.takeWhile (!·.isDone)).filterMap (Thread.read b), threads.any Thread.isDone)

/-- What the threads are after one more byte, before they are followed; and whether the scan matches
up to that byte. -/
def read (s : State) (b : UInt8) : List Thread × Bool := readAll b (s.threadsBefore (some b))

/-- The byte cannot be judged: with `asciiOnly` it must be of ASCII, unless the state is dead. -/
def isStuckAt (asciiOnly : Bool) (s : State) (b : UInt8) : Bool :=
  asciiOnly && 0x80 ≤ b && !s.isDead

/-- The state after one more byte, or none if the byte cannot be judged. -/
def step (asciiOnly : Bool) (s : State) (b : UInt8) : Option State :=
  if s.isStuckAt asciiOnly b then none
  else some (arrive (some b) (s.read b).1 (s.read b).2)

/-- The byte leads to a dead state. -/
def diesAt (asciiOnly : Bool) (s : State) (b : UInt8) : Bool :=
  !s.isStuckAt asciiOnly b && !(s.read b).2 && (s.read b).1.isEmpty

/-- Threads that are followed stay threads, so a state is dead if no thread comes to it. -/
theorem isDead_arrive (p : Option UInt8) (threads : List Thread) (matched : Bool) :
    (arrive p threads matched).isDead = (!matched && threads.isEmpty) := by
  simp only [isDead, arrive]
  congr 1
  rw [Bool.eq_iff_iff, List.isEmpty_iff, List.isEmpty_iff, spread_eq_nil]

/-- To tell whether a step leads to a dead state the threads need not be followed. -/
theorem diesAt_eq (asciiOnly : Bool) (s : State) (b : UInt8) :
    s.diesAt asciiOnly b = (s.step asciiOnly b).any isDead := by
  unfold diesAt step
  cases s.isStuckAt asciiOnly b <;> simp [isDead_arrive]

/-- The scan matches up to here if the input ends here. -/
def endsMatched (s : State) : Bool := (s.threadsBefore none).any Thread.isDone

/-- No byte leads to a state that matches or may match. -/
def isBarren (asciiOnly : Bool) (s : State) : Bool :=
  s.threads.isEmpty && !asciiOnly ||
    (List.range 256).all fun b => s.diesAt asciiOnly (UInt8.ofNat b)

end State

end Scan

end StreamParser
