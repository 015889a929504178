/-!
# Sets of code points

A set of characters as a list of inclusive ranges of code points, in increasing order, with a gap
between each range and the next.  A range starts and ends with a character; the halves of surrogate
pairs (`isSurrogate`), which are no characters, may lie within.

* `contains` is membership; `add` puts a range into such a list;
* `union`, `inter`, `diff`, `symmDiff` and `compl` are the set operations, where the complement
  is taken among the code points that are characters;
* `meets` asks whether any member lies between two bounds.
-/

namespace StreamParser

/-- A set of code points: inclusive ranges in increasing order, no two of them adjacent. -/
structure CodePoints where
  ranges : List (Nat × Nat)
  deriving Repr

namespace CodePoints

/-- Equality is that of the ranges, which need not be looked at if both are the same object. -/
instance : DecidableEq CodePoints := fun s t =>
  withPtrEqDecEq s t fun () =>
    if h : s.ranges = t.ranges then .isTrue (by cases s; cases t; exact congrArg mk h)
    else .isFalse fun e => h (congrArg ranges e)

/-- The largest code point. -/
def greatest : Nat := 0x10FFFF

/-- A half of a surrogate pair, which is no character. -/
def isSurrogate (c : Nat) : Bool := 0xD800 ≤ c && c ≤ 0xDFFF

/-- The character after another one. -/
def next (c : Nat) : Nat := if c = 0xD7FF then 0xE000 else c + 1

/-- The character before another one. -/
def previous (c : Nat) : Nat := if c = 0xE000 then 0xD7FF else c - 1

/-- Put the range from `a` to `b` into an ordered list, joining it with what it touches. -/
def add (a b : Nat) : List (Nat × Nat) → List (Nat × Nat)
  | [] => [(a, b)]
  | (c, d) :: rest =>
    if b + 1 < c then (a, b) :: (c, d) :: rest
    else if d + 1 < a then (c, d) :: add a b rest
    else add (min a c) (max b d) rest

/-- The empty set. -/
def empty : CodePoints := ⟨[]⟩

/-- The code points from `a` to `b`, both included. -/
def range (a b : Nat) : CodePoints := ⟨[(a, b)]⟩

/-- The set with one member. -/
def single (c : Char) : CodePoints := range c.toNat c.toNat

/-- The union of ranges given in any order. -/
def ofRanges (l : List (Nat × Nat)) : CodePoints := ⟨l.foldr (fun r acc => add r.1 r.2 acc) []⟩

/-- Membership. -/
def contains (s : CodePoints) (c : Nat) : Bool := s.ranges.any fun r => r.1 ≤ c && c ≤ r.2

/-- Some member lies between `a` and `b`, both included, surrogates apart. -/
def meets (s : CodePoints) (a b : Nat) : Bool :=
  s.ranges.any fun r =>
    let low := max r.1 a
    let high := min r.2 b
    low ≤ high && !(isSurrogate low && isSurrogate high)

/-- No member at all. -/
def isEmpty (s : CodePoints) : Bool := s.ranges.isEmpty

/-- Every member is less than `bound`. -/
def below (s : CodePoints) (bound : Nat) : Bool := s.ranges.all fun r => r.2 < bound

/-- Members of either set. -/
def union (s t : CodePoints) : CodePoints :=
  ⟨s.ranges.foldr (fun r acc => add r.1 r.2 acc) t.ranges⟩

/-- Members of both sets. -/
def inter (s t : CodePoints) : CodePoints :=
  ofRanges (s.ranges.flatMap fun r => t.ranges.filterMap fun q =>
    if max r.1 q.1 ≤ min r.2 q.2 then some (max r.1 q.1, min r.2 q.2) else none)

/-- What is left of the range from `a` to `b` without the members of ordered ranges. -/
def cut (a b : Nat) : List (Nat × Nat) → List (Nat × Nat)
  | [] => [(a, b)]
  | (c, d) :: rest =>
    if b < c then [(a, b)]
    else if d < a then cut a b rest
    else
      (if a < c then [(a, previous c)] else []) ++ if d < b then cut (next d) b rest else []

/-- Members of the first set that are no members of the second. -/
def diff (s t : CodePoints) : CodePoints :=
  ofRanges (s.ranges.flatMap fun r => cut r.1 r.2 t.ranges)

/-- Members of exactly one of the two sets. -/
def symmDiff (s t : CodePoints) : CodePoints := (s.union t).diff (s.inter t)

/-- The gaps after a range that ends with `last`: between it and the first of the ranges that
follow, and so on.  Where only surrogates divide two ranges, the gap is taken to be made of the two
characters beside them. -/
def gapsAfter (last : Nat) : List (Nat × Nat) → List (Nat × Nat)
  | [] => if last < greatest then [(next last, greatest)] else []
  | (a, b) :: rest =>
    (min (next last) (previous a), max (next last) (previous a)) :: gapsAfter b rest

/-- Characters that are no members. -/
def compl (s : CodePoints) : CodePoints :=
  match s.ranges with
  | [] => range 0 greatest
  | (a, b) :: rest =>
    ofRanges ((if 0 < a then [(0, previous a)] else []) ++ gapsAfter b rest)

/-- Every character. -/
def all : CodePoints := range 0 greatest

end CodePoints

end StreamParser
