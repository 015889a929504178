import StreamParser.Config.Json
import StreamParser.Proofs.Json.Writing
import StreamParser.Proofs.Text.Boundaries

/-!
# Configurations survive writing and reading

The text of a configuration is an object with a member for each field.  A reader that knows the
fields must take a standard one for each that is missing, but not for one that is `null`.

* `Config.write c fields` is the object that has members for some of the fields only.  With all of
  them it is what is written (`Config.toJson_eq_write`).
* `Config.Given.taken c done` is what is known when the fields `done` of `c` have been read;
  `Config.members_member` is the step that reads one more, and `Config.members_following` goes
  through all that are left.
* So every field that is there is read back, and no other one is (`Config.ofJson_write`).  Both
  together are `Config.round_trip`.
-/

namespace StreamParser.Config

open Json

/-! ### Objects with some of the fields -/

/-- The value of a field as it is written. -/
def written (c : Config) : Field → String
  | .bufferCapacity => toString c.bufferCapacity
  | .cacheCapacity => toString c.cacheCapacity
  | .skipPattern => c.skipPattern.elim "null" StringLiteral.encode

/-- A member as it is written. -/
def member (c : Config) (f : Field) : String :=
  "\"" ++ f.key ++ "\":" ++ c.written f

/-- The object with members for the fields `fields`, in this order. -/
def write (c : Config) (fields : List Field) : String :=
  "\x7b" ++ ",".intercalate (fields.map c.member) ++ "\x7d"

/-- The configuration with the fields `fields` of `c`, and standard ones for the others. -/
def only (c : Config) (fields : List Field) : Config where
  bufferCapacity :=
    if .bufferCapacity ∈ fields then c.bufferCapacity else standard.bufferCapacity
  cacheCapacity := if .cacheCapacity ∈ fields then c.cacheCapacity else standard.cacheCapacity
  skipPattern := if .skipPattern ∈ fields then c.skipPattern else standard.skipPattern

/-- All fields, in the order in which they are written. -/
def allFields : List Field := [.bufferCapacity, .cacheCapacity, .skipPattern]

/-- A configuration is written with all its fields. -/
theorem toJson_eq_write (c : Config) : c.toJson = c.write allFields := by
  obtain ⟨buffer, cache, skip⟩ := c
  apply String.toList_inj.1
  cases skip <;>
    simp [toJson, write, allFields, member, written, Field.key]

theorem only_allFields (c : Config) : c.only allFields = c := rfl

/-- The order of the fields makes no difference. -/
theorem only_reverse (c : Config) (fields : List Field) : c.only fields.reverse = c.only fields := by
  simp [only]

/-- The bytes of the members for the fields `fields`, each behind a comma. -/
def following (c : Config) (fields : List Field) : List UInt8 :=
  fields.flatMap fun f => 0x2C :: Utf8.bytes (c.member f)

theorem following_cons (c : Config) (f : Field) (fields : List Field) :
    c.following (f :: fields) = 0x2C :: (Utf8.bytes (c.member f) ++ c.following fields) :=
  List.flatMap_cons

/-- Every member takes a byte. -/
theorem length_le_length_following (c : Config) (fields : List Field) :
    fields.length ≤ (c.following fields).length := by
  induction fields with
  | nil => exact Nat.le_refl 0
  | cons f fields ih =>
    rw [following_cons, List.length_cons, List.length_cons, List.length_append]
    omega

/-- No character of a key needs an escape. -/
theorem encode_key (f : Field) : StringLiteral.encode f.key = "\"" ++ f.key ++ "\"" := by
  cases f <;> decide

/-- A member is its key, a colon and its value. -/
theorem bytes_member (c : Config) (f : Field) :
    Utf8.bytes (c.member f) =
      Utf8.bytes (StringLiteral.encode f.key) ++ 0x3A :: Utf8.bytes (c.written f) := by
  rw [encode_key]
  simp only [member, Utf8.bytes_append, List.append_assoc]
  rfl

/-- An object is its first member and those that follow it, within braces. -/
theorem bytes_write (c : Config) (f : Field) (fields : List Field) :
    Utf8.bytes (c.write (f :: fields)) =
      0x7B :: (Utf8.bytes (c.member f) ++ (c.following fields ++ [0x7D])) := by
  have hrow : Utf8.bytes (",".intercalate ((f :: fields).map c.member)) =
      Utf8.bytes (c.member f) ++ c.following fields := by
    induction fields generalizing f with
    | nil => simp [following]
    | cons g fields ih =>
      have hstring : ",".intercalate ((f :: g :: fields).map c.member) =
          c.member f ++ "," ++ ",".intercalate ((g :: fields).map c.member) :=
        String.intercalate_cons_cons
      rw [following_cons, ← ih g, hstring, Utf8.bytes_append, Utf8.bytes_append, List.append_assoc]
      rfl
  have hobject : Utf8.bytes (c.write (f :: fields)) =
      0x7B :: (Utf8.bytes (",".intercalate ((f :: fields).map c.member)) ++ [0x7D]) := by
    rw [write, Utf8.bytes_append, Utf8.bytes_append, List.append_assoc]
    rfl
  rw [hobject, hrow, List.append_assoc]

/-! ### Reading them -/

/-- The fields `done` of a configuration have been read. -/
def Given.taken (c : Config) (done : List Field) : Given where
  bufferCapacity := if .bufferCapacity ∈ done then some c.bufferCapacity else none
  cacheCapacity := if .cacheCapacity ∈ done then some c.cacheCapacity else none
  skipPattern := if .skipPattern ∈ done then some c.skipPattern else none

theorem Given.taken_nil (c : Config) : taken c [] = nothing := rfl

theorem Given.has_taken (c : Config) (done : List Field) (f : Field) :
    (taken c done).has f = decide (f ∈ done) := by
  cases f <;> simp only [has, taken] <;> split <;> simp_all

theorem Given.complete_taken (c : Config) (done : List Field) :
    (taken c done).complete = c.only done := by
  simp only [complete, taken, only, Config.mk.injEq]
  refine ⟨?_, ?_, ?_⟩ <;> split <;> rfl

theorem ofKey?_key (f : Field) : Field.ofKey? f.key = some f := by
  cases f <;> decide

section Members

variable {c : Config} {done fields : List Field} {f : Field} {n : Nat} {l rest : List UInt8}

/-- The value of a field is read back. -/
theorem Given.read_written (hbuffer : c.bufferCapacity < Number.limit)
    (hcache : c.cacheCapacity < Number.limit) (hl : ∀ b ∈ l.head?, IsBehindNumber b) (f : Field) :
    (taken c done).read f (Utf8.bytes (c.written f) ++ l) = .ok (taken c (f :: done), l) := by
  unfold read
  cases f with
  | bufferCapacity =>
    simp only [written, natural_written hbuffer hl]
    simp [taken, Bind.bind, Except.bind, pure, Except.pure]
  | cacheCapacity =>
    simp only [written, natural_written hcache hl]
    simp [taken, Bind.bind, Except.bind, pure, Except.pure]
  | skipPattern =>
    simp only [written, stringOrNull_written]
    simp [taken, Bind.bind, Except.bind, pure, Except.pure]

/-- One step through an object: a member that has not been read before is read back. -/
theorem members_member (hbuffer : c.bufferCapacity < Number.limit)
    (hcache : c.cacheCapacity < Number.limit) (hl : ∀ b ∈ l.head?, IsBehindNumber b)
    (hf : f ∉ done) (first : Bool) :
    members (n + 1) first (.taken c done)
        ((if first then [] else [0x2C]) ++ (Utf8.bytes (c.member f) ++ l)) =
      members n false (.taken c (f :: done)) l := by
  have hkey := key_written first f.key (0x3A :: (Utf8.bytes (c.written f) ++ l))
  rw [bytes_member, List.append_assoc, List.cons_append]
  conv_lhs => unfold members
  rw [hkey]
  dsimp only [Bind.bind, Except.bind]
  rw [ofKey?_key]
  show (if (Given.taken c done).has f = true then _ else _) = _
  rw [Given.has_taken, decide_eq_false hf, if_neg Bool.false_ne_true]
  show ((Given.taken c done).read f (Utf8.bytes (c.written f) ++ l)).bind _ = _
  rw [Given.read_written hbuffer hcache hl]
  rfl

/-- What follows a member is a comma or the closing brace. -/
theorem isBehindNumber_following (c : Config) (fields : List Field) (rest : List UInt8) :
    ∀ b ∈ (c.following fields ++ 0x7D :: rest).head?, IsBehindNumber b := by
  have hcomma : IsBehindNumber 0x2C := by decide
  have hbrace : IsBehindNumber 0x7D := by decide
  cases fields with
  | nil =>
    rintro b ⟨⟩
    exact hbrace
  | cons f fields =>
    rintro b ⟨⟩
    exact hcomma

/-- All members that are left are read back, each of another field. -/
theorem members_following (hbuffer : c.bufferCapacity < Number.limit)
    (hcache : c.cacheCapacity < Number.limit) (hfields : fields.Nodup)
    (hdone : ∀ f ∈ fields, f ∉ done) (hn : fields.length < n) :
    members n false (.taken c done) (c.following fields ++ 0x7D :: rest) =
      .ok (.taken c (fields.reverse ++ done), rest) := by
  induction fields generalizing done n with
  | nil =>
    obtain ⟨n, rfl⟩ := Nat.exists_eq_add_of_le' hn
    rfl
  | cons f fields ih =>
    obtain ⟨hnew, hfields⟩ := List.nodup_cons.1 hfields
    obtain ⟨hf, hothers⟩ := List.forall_mem_cons.1 hdone
    rw [List.length_cons] at hn
    obtain ⟨n, rfl⟩ := Nat.exists_eq_add_of_lt (Nat.zero_lt_of_lt hn)
    rw [Nat.zero_add, following_cons, List.cons_append, List.append_assoc]
    refine (members_member hbuffer hcache (isBehindNumber_following c fields rest) hf false).trans ?_
    rw [ih hfields ?_ (by omega), List.reverse_cons, List.append_assoc, List.singleton_append]
    intro g hg hmem
    obtain rfl | hmem := List.mem_cons.1 hmem
    · exact hnew hg
    · exact hothers g hg hmem

end Members

/-! ### Back again -/

section Back

variable {c : Config}

/-- The members of an object are read back behind its opening brace. -/
theorem members_write (hbuffer : c.bufferCapacity < Number.limit)
    (hcache : c.cacheCapacity < Number.limit) {fields : List Field} (hfields : fields.Nodup) :
    ∃ l, Utf8.bytes (c.write fields) = 0x7B :: l ∧
      members (l.length + 1) true .nothing l = .ok (.taken c fields.reverse, []) := by
  cases fields with
  | nil =>
    refine ⟨[0x7D], ?_, rfl⟩
    show Utf8.bytes ("\x7b" ++ ",".intercalate [] ++ "\x7d") = _
    decide
  | cons f fields =>
    obtain ⟨hnew, hfields⟩ := List.nodup_cons.1 hfields
    have hlong := length_le_length_following c fields
    refine ⟨_, bytes_write c f fields, ?_⟩
    rw [← Given.taken_nil c]
    refine (members_member hbuffer hcache (isBehindNumber_following c fields []) List.not_mem_nil
      true).trans ?_
    rw [members_following hbuffer hcache hfields ?_ ?_, List.reverse_cons]
    · rintro g hg hmem
      obtain rfl := List.mem_singleton.1 hmem
      exact hnew hg
    · simp only [List.length_append, List.length_cons]
      omega

/-- An object with members for some of the fields gives these back, and standard ones for the
others. -/
theorem ofJson_write (hbuffer : c.bufferCapacity < Number.limit)
    (hcache : c.cacheCapacity < Number.limit) {fields : List Field} (hfields : fields.Nodup) :
    ofJson (c.write fields) = .ok (c.only fields) := by
  obtain ⟨l, hbytes, hmembers⟩ := members_write hbuffer hcache hfields
  have hread : read (Utf8.bytes (c.write fields)) = .ok (c.only fields, []) := by
    rw [hbytes]
    show (members (l.length + 1) true .nothing l).map _ = _
    rw [hmembers]
    show Except.ok ((Given.taken c fields.reverse).complete, []) = _
    rw [Given.complete_taken, only_reverse]
  show Except.mapError _ ((read (Utf8.bytes (c.write fields))).bind _) = _
  rw [hread]
  rfl

end Back

/-- A configuration with capacities of 64 bits is read back as it was written.  Of any of its fields
those that are written are read back, be they `null` or not, and only what is missing is standard. -/
theorem round_trip (c : Config) (hbuffer : c.bufferCapacity < 2 ^ 64)
    (hcache : c.cacheCapacity < 2 ^ 64) :
    ofJson c.toJson = .ok c ∧
      ∀ fields : List Field, fields.Nodup → ofJson (c.write fields) = .ok (c.only fields) := by
  have hwrite : ∀ fields : List Field, fields.Nodup →
      ofJson (c.write fields) = .ok (c.only fields) :=
    fun _ hfields => ofJson_write hbuffer hcache hfields
  refine ⟨?_, hwrite⟩
  rw [toJson_eq_write, hwrite allFields (by decide), only_allFields]

/-- A pattern that is absent on purpose stays absent, and one with all kinds of characters is read
back. -/
theorem absent_skip_survives :
    (ofJson (toJson ⟨2 ^ 64 - 1, 0, none⟩) = .ok ⟨2 ^ 64 - 1, 0, none⟩ ∧
      ofJson (write ⟨2 ^ 64 - 1, 0, none⟩ [.skipPattern]) = .ok ⟨65536, 16, none⟩) ∧
    ofJson (toJson ⟨128, 1, some "\"[\\t\n\x01é😀]"⟩) =
      .ok ⟨128, 1, some "\"[\\t\n\x01é😀]"⟩ :=
  have habsent := round_trip ⟨2 ^ 64 - 1, 0, none⟩ (by decide) (by decide)
  ⟨⟨habsent.1, habsent.2 [.skipPattern] (by decide)⟩,
    (round_trip ⟨128, 1, some "\"[\\t\n\x01é😀]"⟩ (by decide) (by decide)).1⟩

end StreamParser.Config
