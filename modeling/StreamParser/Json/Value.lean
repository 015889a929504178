import StreamParser.Json.Number

/-!
# Values of JSON

The members of an object have different keys, and stand in the order of their keys.
-/

namespace StreamParser.Json

/-- A value. -/
inductive Value
  | null
  | boolean (b : Bool)
  | number (n : Number)
  | string (s : String)
  | array (items : List Value)
  | object (members : List (String × Value))

namespace Value

/-- Put a member among others that are in the order of their keys.  It replaces the one with the
same key. -/
def insert (key : String) (v : Value) : List (String × Value) → List (String × Value)
  | [] => [(key, v)]
  | (k, w) :: rest =>
    if key < k then (key, v) :: (k, w) :: rest
    else if key = k then (key, v) :: rest
    else (k, w) :: insert key v rest

/-- The object with some members.  Of several with the same key the last one counts. -/
def ofMembers (l : List (String × Value)) : Value :=
  object (l.foldl (fun members m => insert m.1 m.2 members) [])

mutual

/-- Equality of values. -/
def equal : Value → Value → Bool
  | null, null => true
  | boolean a, boolean b => a == b
  | number m, number n => m.equal n
  | string s, string t => s == t
  | array a, array b => equalItems a b
  | object a, object b => equalMembers a b
  | _, _ => false

/-- Equality of lists of values. -/
def equalItems : List Value → List Value → Bool
  | [], [] => true
  | v :: a, w :: b => v.equal w && equalItems a b
  | _, _ => false

/-- Equality of lists of members. -/
def equalMembers : List (String × Value) → List (String × Value) → Bool
  | [], [] => true
  | (k, v) :: a, (l, w) :: b => k == l && v.equal w && equalMembers a b
  | _, _ => false

end

mutual

/-- How deeply arrays and objects are nested. -/
def depth : Value → Nat
  | array items => depthOfItems items + 1
  | object members => depthOfMembers members + 1
  | _ => 0

/-- The greatest depth in a list. -/
def depthOfItems : List Value → Nat
  | [] => 0
  | v :: rest => max v.depth (depthOfItems rest)

/-- The greatest depth in a list of members. -/
def depthOfMembers : List (String × Value) → Nat
  | [] => 0
  | (_, v) :: rest => max v.depth (depthOfMembers rest)

end

mutual

/-- The strings in nested arrays, one after the other. -/
def concatenated : Value → String
  | string s => s
  | array items => concatenatedItems items
  | _ => ""

/-- The same for a list. -/
def concatenatedItems : List Value → String
  | [] => ""
  | v :: rest => v.concatenated ++ concatenatedItems rest

end

end Value

end StreamParser.Json
