/-!
# What can go wrong

Three families of errors travel through a parse.

* `PatternError`: a regular expression that cannot be compiled, or cannot judge the text before it.
* `TokenError`: what the tokenizer reports, and what its source reports through it.
* `ParseError`: what a grammar reports.  Such an error may be explained by another one, its cause.

`ParseError.isRecoverable` says whether an alternative may be tried after the error, and
`ParseError.deepest` is the error at the end of the chain of causes.
-/

namespace StreamParser

/-- A regular expression could not be used. -/
inductive PatternError
  /-- The text of the pattern is no regular expression; the span counts bytes of the pattern. -/
  | malformed (pattern : String) (offset length : Nat) (detail : String)
  /-- The pattern cannot be made into a matcher, or the matcher cannot start where it should. -/
  | unbuildable (pattern detail : String)
  /-- The matcher gives up at a byte. -/
  | unsupported (pattern : String) (offset : Nat)
  deriving DecidableEq, Repr

namespace PatternError

/-- The text of the pattern. -/
def pattern : PatternError → String
  | malformed p _ _ _ => p
  | unbuildable p _ => p
  | unsupported p _ => p

/-- The wording of the error. -/
def message : PatternError → String
  | malformed _ _ _ d => "invalid pattern: " ++ d
  | unbuildable p d => "pattern `" ++ p ++ "` could not be compiled: " ++ d
  | unsupported p o => "pattern `" ++ p ++ "` cannot be matched at byte offset " ++ toString o

end PatternError

/-- The kinds of failure of a source. -/
inductive IoKind
  | addrInUse | addrNotAvailable | alreadyExists | argumentListTooLong | brokenPipe
  | connectionAborted | connectionRefused | connectionReset | crossesDevices | deadlock
  | directoryNotEmpty | executableFileBusy | fileTooLarge | hostUnreachable | interrupted
  | invalidData | invalidFilename | invalidInput | isADirectory | networkDown | networkUnreachable
  | notADirectory | notConnected | notFound | notSeekable | other | outOfMemory | permissionDenied
  | quotaExceeded | readOnlyFilesystem | resourceBusy | staleNetworkFileHandle | storageFull
  | timedOut | tooManyLinks | unexpectedEof | unsupported | wouldBlock | writeZero
  deriving DecidableEq, Repr

/-- A failure of a source. -/
structure IoError where
  kind : IoKind
  message : String
  deriving DecidableEq, Repr

/-- Why there is no element to return. -/
inductive Absence
  /-- The input has ended. -/
  | exhausted
  /-- The tokenizer has been closed. -/
  | closed
  /-- The token is longer than the window. -/
  | exceedsBuffer (capacity : Nat)
  deriving DecidableEq, Repr

/-- The wording of the reason. -/
def Absence.message : Absence → String
  | exhausted => "input exhausted"
  | closed => "tokenizer is closed"
  | exceedsBuffer c => "token does not fit in a " ++ toString c ++ "-byte buffer"

/-- What a tokenizer reports. -/
inductive TokenError
  /-- What comes next does not match the pattern. -/
  | inputMismatch (pattern : String)
  /-- There is no element to return. -/
  | noSuchElement (reason : Absence)
  /-- The source failed. -/
  | io (error : IoError)
  /-- The bytes that were matched are no text. -/
  | invalidUtf8 (offset : Nat)
  /-- The mark is not held any more. -/
  | staleMark (offset : Nat)
  /-- The window is full of bytes that marks hold back, and of bytes not yet consumed. -/
  | windowFull (capacity pinned : Nat)
  /-- The pattern could not be used. -/
  | pattern (error : PatternError)
  deriving DecidableEq, Repr

namespace TokenError

/-- The wording of the error. -/
def message : TokenError → String
  | inputMismatch p => "input mismatch: remaining input does not match `" ++ p ++ "`"
  | noSuchElement r => "no such element: " ++ r.message
  | io e => "source read failed: " ++ e.message
  | invalidUtf8 o => "matched text at offset " ++ toString o ++ " is not valid UTF-8"
  | staleMark o => "mark at offset " ++ toString o ++ " is no longer buffered"
  | windowFull c p => "rollback window full: " ++ toString p ++ " of " ++ toString c ++
      " buffered bytes are held for backtracking"
  | pattern e => e.message

/-- The input does not match. -/
def isInputMismatch : TokenError → Bool
  | inputMismatch _ => true
  | _ => false

/-- There is no element to return. -/
def isNoSuchElement : TokenError → Bool
  | noSuchElement _ => true
  | _ => false

/-- Another pattern may be tried: the input does not match, or has ended. -/
def isRecoverable : TokenError → Bool
  | inputMismatch _ => true
  | noSuchElement .exhausted => true
  | _ => false

end TokenError

/-- What a grammar reports. -/
inductive ParseError
  /-- A failure that the grammar asks for. -/
  | failure (message : String)
  /-- A failure that is explained by another one. -/
  | caused (message : String) (cause : ParseError)
  /-- A pattern was expected. -/
  | expected (pattern : String) (position : Nat)
  /-- What was parsed is refused by a test. -/
  | noMatchingElement
  /-- A grammar was put together from parts that do not fit. -/
  | invalidArgument (message : String)
  /-- A failure after the grammar had committed itself to a branch. -/
  | committed (position : Nat) (cause : ParseError)
  /-- A failure of the tokenizer. -/
  | token (error : TokenError)
  /-- A pattern could not be used. -/
  | pattern (error : PatternError)
  deriving DecidableEq, Repr

namespace ParseError

/-- The wording of the error, without its causes. -/
def message : ParseError → String
  | failure m => m
  | caused m _ => m
  | expected p n => p ++ " expected at position " ++ toString n
  | noMatchingElement => "no matching element"
  | invalidArgument m => "invalid argument: " ++ m
  | committed n _ => "committed parse failed at position " ++ toString n
  | token e => e.message
  | pattern e => e.message

/-- An alternative may be tried after the error. -/
def isRecoverable : ParseError → Bool
  | failure _ => true
  | caused _ e => e.isRecoverable
  | expected _ _ => true
  | noMatchingElement => true
  | invalidArgument _ => false
  | committed _ _ => false
  | token e => e.isRecoverable
  | pattern _ => false

/-- The error as it is reported after a commit at `position`: a recoverable one is wrapped, so that
no alternative is tried any more. -/
def afterCommit (position : Nat) (e : ParseError) : ParseError :=
  if e.isRecoverable then committed position e else e

/-- The last error on the chain of causes. -/
def deepest : ParseError → ParseError
  | caused _ e => e.deepest
  | committed _ e => e.deepest
  | e => e

/-- The wordings of the causes, the nearest first.  An error of the tokenizer stands for itself, and
its cause, if it has one, is the failure of the source. -/
def causes : ParseError → List String
  | caused _ e => e.message :: e.causes
  | committed _ e => e.message :: e.causes
  | token (.io e) => [e.message]
  | _ => []

end ParseError

end StreamParser
