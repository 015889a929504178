import StreamParser.Error

/-!
# Reports

What is shown of an error to the one who has to mend it: a stable code, a hint, and the place in
the text of a pattern.  `Report.ofError` gathers these, and `Report.text` writes them on one line.
-/

namespace StreamParser

/-- A stretch of bytes with a remark about it. -/
structure Label where
  offset : Nat
  length : Nat
  text : String
  deriving DecidableEq, Repr

namespace PatternError

/-- The code of the error. -/
def code : PatternError → String
  | malformed _ _ _ _ => "braid::pattern::syntax"
  | unbuildable _ _ => "braid::pattern::build"
  | unsupported _ _ => "braid::pattern::unsupported"

/-- A hint how the error can be avoided. -/
def help : PatternError → Option String
  | unsupported _ _ => some "use ASCII word boundaries `(?-u:\\b)` when matching non-ASCII text"
  | _ => none

/-- The place in the pattern. -/
def labels : PatternError → List Label
  | malformed _ o n _ => [⟨o, n, "here"⟩]
  | _ => []

/-- The text that the labels are about. -/
def excerpt : PatternError → Option String
  | malformed p _ _ _ => some p
  | _ => none

end PatternError

namespace TokenError

/-- The code of the error. -/
def code : TokenError → String
  | inputMismatch _ => "braid::token::input_mismatch"
  | noSuchElement _ => "braid::token::no_such_element"
  | io _ => "braid::token::io"
  | invalidUtf8 _ => "braid::token::invalid_utf8"
  | staleMark _ => "braid::token::stale_mark"
  | windowFull _ _ => "braid::token::window_full"
  | pattern e => e.code

/-- A hint how the error can be avoided. -/
def help : TokenError → Option String
  | staleMark _ => some "reset a mark before releasing it"
  | windowFull _ _ =>
    some "commit to a branch once its first token decides it, or raise buffer_capacity"
  | pattern e => e.help
  | _ => none

/-- The place in a pattern. -/
def labels : TokenError → List Label
  | pattern e => e.labels
  | _ => []

/-- The text that the labels are about. -/
def excerpt : TokenError → Option String
  | pattern e => e.excerpt
  | _ => none

end TokenError

namespace ParseError

/-- The code of the error. -/
def code : ParseError → String
  | failure _ => "braid::parse::failure"
  | caused _ _ => "braid::parse::failure"
  | expected _ _ => "braid::parse::expected"
  | noMatchingElement => "braid::parse::no_matching_element"
  | invalidArgument _ => "braid::parse::invalid_argument"
  | committed _ _ => "braid::parse::committed"
  | token e => e.code
  | pattern e => e.code

/-- A hint how the error can be avoided. -/
def help : ParseError → Option String
  | invalidArgument _ => some "this is a grammar construction bug, not an input problem"
  | token e => e.help
  | pattern e => e.help
  | _ => none

/-- The place in a pattern. -/
def labels : ParseError → List Label
  | token e => e.labels
  | pattern e => e.labels
  | _ => []

/-- The text that the labels are about. -/
def excerpt : ParseError → Option String
  | token e => e.excerpt
  | pattern e => e.excerpt
  | _ => none

end ParseError

/-- What is shown of an error. -/
structure Report where
  code : String
  message : String
  causes : List String
  help : Option String
  labels : List Label
  /-- The text that the labels are about. -/
  excerpt : Option String
  deriving DecidableEq, Repr

namespace Report

/-- The report on an error. -/
def ofError (e : ParseError) : Report :=
  ⟨e.code, e.message, e.causes, e.help, e.labels, e.excerpt⟩

/-- The report on one line. -/
def text (r : Report) : String :=
  "[" ++ r.code ++ "] " ++ r.message ++
    String.join (r.causes.map (" / caused by: " ++ ·)) ++
    (match r.help with | some h => " / help: " ++ h | none => "") ++
    String.join (r.labels.map fun l =>
      " / label " ++ toString l.offset ++ "+" ++ toString l.length ++ ": " ++ l.text)

end Report

end StreamParser
