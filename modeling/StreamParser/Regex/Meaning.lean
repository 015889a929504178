import StreamParser.Regex.Tree.Reader
import StreamParser.Text.CodePoints.CaseFold
import StreamParser.Text.CodePoints.Digit
import StreamParser.Text.CodePoints.Word
import StreamParser.Text.PropertyNames

/-!
# What a written regular expression matches

`Tree.toExpr` turns a regular expression as it is written into the core of regular expressions.
The flags say how each construct is read; a list of flags holds for the rest of the group in which
it stands, across the branches of that group.

A regular expression is refused if it could match bytes that are no text.  Where Unicode is switched
off, only sets within ASCII are left, since every other set of bytes contains such bytes.
-/

namespace StreamParser.Regex

/-- How the constructs of a regular expression are read. -/
structure Flags where
  caseInsensitive : Bool
  multiLine : Bool
  dotMatchesLineEnd : Bool
  swapGreed : Bool
  unicode : Bool
  crlf : Bool
  deriving DecidableEq, Repr

namespace Flags

/-- The flags at the beginning of a text. -/
def initial : Flags := ⟨false, false, false, false, true, false⟩

/-- Set one flag. -/
def set (f : Flags) (b : Bool) : Flag → Flags
  | .caseInsensitive => { f with caseInsensitive := b }
  | .multiLine => { f with multiLine := b }
  | .dotMatchesLineEnd => { f with dotMatchesLineEnd := b }
  | .swapGreed => { f with swapGreed := b }
  | .unicode => { f with unicode := b }
  | .crlf => { f with crlf := b }
  | .ignoreSpace => f

/-- The flags after a list of flags. -/
def apply : (negated : Bool) → Flags → List FlagItem → Flags
  | _, f, [] => f
  | _, f, .negation :: rest => apply true f rest
  | negated, f, .flag g :: rest => apply negated (f.set (!negated) g) rest

end Flags

/-- The characters of a class with a name. -/
def AsciiClass.set : AsciiClass → CodePoints
  | alnum => ⟨[(0x30, 0x39), (0x41, 0x5A), (0x61, 0x7A)]⟩
  | alpha => ⟨[(0x41, 0x5A), (0x61, 0x7A)]⟩
  | ascii => ⟨[(0x00, 0x7F)]⟩
  | blank => ⟨[(0x09, 0x09), (0x20, 0x20)]⟩
  | cntrl => ⟨[(0x00, 0x1F), (0x7F, 0x7F)]⟩
  | digit => ⟨[(0x30, 0x39)]⟩
  | graph => ⟨[(0x21, 0x7E)]⟩
  | lower => ⟨[(0x61, 0x7A)]⟩
  | print => ⟨[(0x20, 0x7E)]⟩
  | punct => ⟨[(0x21, 0x2F), (0x3A, 0x40), (0x5B, 0x60), (0x7B, 0x7E)]⟩
  | space => ⟨[(0x09, 0x0D), (0x20, 0x20)]⟩
  | upper => ⟨[(0x41, 0x5A)]⟩
  | word => ⟨[(0x30, 0x39), (0x41, 0x5A), (0x5F, 0x5F), (0x61, 0x7A)]⟩
  | xdigit => ⟨[(0x30, 0x39), (0x41, 0x46), (0x61, 0x66)]⟩

/-- The characters of a class with a letter, among all characters or within ASCII. -/
def LetterClass.set : LetterClass → (unicode : Bool) → CodePoints
  | digit, true => CodePoints.digit
  | digit, false => AsciiClass.digit.set
  | space, true => CodePoints.space
  | space, false => AsciiClass.space.set
  | word, true => CodePoints.word
  | word, false => AsciiClass.word.set

namespace Flags

/-- Add the other case of the members, where case is ignored. -/
def fold (f : Flags) (s : CodePoints) : CodePoints :=
  if !f.caseInsensitive then s else if f.unicode then s.foldCase else s.foldAscii

/-- The complement if it is asked for.  Without Unicode the set has to be within ASCII, and so no
complement is allowed. -/
def complement (f : Flags) (span : Span) (negated : Bool) (s : CodePoints) :
    Except Fault CodePoints :=
  let t := if negated then s.compl else s
  if f.unicode || t.below 0x80 then .ok t else .error ⟨.invalidUtf8, span⟩

/-- A character as it is written.  Without Unicode a byte beyond ASCII is no text. -/
def character (f : Flags) (l : Literal) : Except Fault Char :=
  if !f.unicode && l.asByte && 0x80 ≤ l.char.toNat then .error ⟨.invalidUtf8, l.span⟩
  else .ok l.char

/-- A character in a class.  Without Unicode it has to be within ASCII. -/
def classCharacter (f : Flags) (l : Literal) : Except Fault Char := do
  let c ← f.character l
  if !f.unicode && 0x80 ≤ c.toNat then throw ⟨.unicodeNotAllowed, l.span⟩
  return c

/-- The characters with a property.  No table of characters is kept for any property, so a property
alone is unknown, and one that has to have a value has none of its values. -/
def property (f : Flags) (span : Span) (p : Property) : Except Fault CodePoints :=
  if !f.unicode then .error ⟨.unicodeNotAllowed, span⟩
  else
    match p with
    | .named _ => .error ⟨.propertyUnknown, span⟩
    | .valued name _ =>
      .error ⟨if PropertyName.isKnown name then .propertyValueUnknown else .propertyUnknown, span⟩

end Flags

/-- The set that an operation makes of two sets. -/
def ClassOp.apply : ClassOp → CodePoints → CodePoints → CodePoints
  | intersection, s, t => s.inter t
  | difference, s, t => s.diff t
  | symmetricDifference, s, t => s.symmDiff t

mutual

/-- The characters of a part of a class. -/
def ClassItem.set (f : Flags) : ClassItem → Except Fault CodePoints
  | .empty _ => .ok CodePoints.empty
  | .literal l => return CodePoints.single (← f.classCharacter l)
  | .range _ first last =>
    return CodePoints.range (← f.classCharacter first).toNat (← f.classCharacter last).toNat
  | .ascii span kind negated => f.complement span negated (f.fold kind.set)
  | .letter span kind negated => f.complement span negated (kind.set f.unicode)
  | .property span p _ => f.property span p
  | .bracketed span negated i => do f.complement span negated (f.fold (← i.set f))
  | .union _ is => ClassItem.setOfAll f is
  | .operation _ op l r => return op.apply (f.fold (← l.set f)) (f.fold (← r.set f))

/-- The characters of some part of a list. -/
def ClassItem.setOfAll (f : Flags) : List ClassItem → Except Fault CodePoints
  | [] => .ok CodePoints.empty
  | i :: is => return (← i.set f).union (← setOfAll f is)

end

namespace Flags

/-- The characters that a literal matches. -/
def literal (f : Flags) (l : Literal) : Except Fault CodePoints :=
  return f.fold (CodePoints.single (← f.character l))

/-- The characters that the dot matches. -/
def dot (f : Flags) (span : Span) : Except Fault CodePoints :=
  if !f.unicode then .error ⟨.invalidUtf8, span⟩
  else if f.dotMatchesLineEnd then .ok CodePoints.all
  else if f.crlf then .ok (CodePoints.ofRanges [(0x0A, 0x0A), (0x0D, 0x0D)]).compl
  else .ok (CodePoints.single '\n').compl

/-- The assertion that an anchor stands for. -/
def look (f : Flags) : Anchor → Look
  | .lineStart =>
    if !f.multiLine then .textStart else if f.crlf then .crlfLineStart else .lineStart
  | .lineEnd => if !f.multiLine then .textEnd else if f.crlf then .crlfLineEnd else .lineEnd
  | .textStart => .textStart
  | .textEnd => .textEnd
  | .word e => .word f.unicode e

end Flags

mutual

/-- What a regular expression matches where the flags `f` hold, and the flags after it. -/
def Tree.meaning (f : Flags) : Tree → Except Fault (Expr × Flags)
  | .empty _ => .ok (.empty, f)
  | .flags _ items => .ok (.empty, f.apply false items)
  | .literal l => return (.chars (← f.literal l), f)
  | .dot span => return (.chars (← f.dot span), f)
  | .anchor _ a => .ok (.look (f.look a), f)
  | .letter span kind negated =>
    return (.chars (← f.complement span negated (kind.set f.unicode)), f)
  | .property span p _ => return (.chars (← f.property span p), f)
  | .bracketed span negated i =>
    return (.chars (← f.complement span negated (f.fold (← i.set f))), f)
  | .repetition _ least most greedy t => do
    let (e, f) ← t.meaning f
    return (e.repeated (greedy != f.swapGreed) least most, f)
  | .group _ items t => do
    let (e, _) ← t.meaning (f.apply false items)
    return (e, f)
  | .concat _ ts => do
    let (es, f) ← Tree.meanings f ts
    return (Expr.sequence es, f)
  | .alternation _ ts => do
    let (es, f) ← Tree.meanings f ts
    return (Expr.choice es, f)

/-- The same for a list, from left to right. -/
def Tree.meanings (f : Flags) : List Tree → Except Fault (List Expr × Flags)
  | [] => .ok ([], f)
  | t :: ts => do
    let (e, f) ← t.meaning f
    let (es, f) ← Tree.meanings f ts
    return (e :: es, f)

end

/-- What a regular expression matches. -/
def Tree.toExpr (t : Tree) : Except Fault Expr := return (← t.meaning Flags.initial).1

/-- The expression that a text stands for. -/
def compile (text : String) : Except Fault Expr := do (← Tree.read text).toExpr

end StreamParser.Regex
