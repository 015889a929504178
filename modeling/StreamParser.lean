import StreamParser.Config.Json
import StreamParser.Grammar.Plan
import StreamParser.Outcome
import StreamParser.Source.Script
import StreamParser.Proofs.Text.Utf8
import StreamParser.Proofs.Pattern.Threads
import StreamParser.Proofs.Pattern.Progress
import StreamParser.Proofs.Pattern.Settlement
import StreamParser.Proofs.Pattern.Language
import StreamParser.Proofs.Pattern.Streamable
import StreamParser.Proofs.Pattern.Walk
import StreamParser.Proofs.Tokenizer.Search
import StreamParser.Proofs.Tokenizer.Delivery
import StreamParser.Proofs.Tokenizer.Whole
import StreamParser.Proofs.Pattern.Cache
import StreamParser.Proofs.Pattern.Recency
import StreamParser.Proofs.Tokenizer.Requests
import StreamParser.Proofs.Grammar.Trials
import StreamParser.Proofs.Tokenizer.Reachable
import StreamParser.Proofs.Grammar.Rollback
import StreamParser.Proofs.Grammar.Agreement
import StreamParser.Proofs.Grammar.Program
import StreamParser.Proofs.Grammar.Balance
import StreamParser.Proofs.Grammar.Commitment
import StreamParser.Proofs.Tokenizer.Operations
import StreamParser.Proofs.Tokenizer.Record
import StreamParser.Proofs.Tokenizer.Bounds
import StreamParser.Proofs.Tokenizer.Marks
import StreamParser.Proofs.Tokenizer.Supply
import StreamParser.Proofs.Tokenizer.LookBehind
import StreamParser.Proofs.Tokenizer.Failure
import StreamParser.Proofs.Grammar.Endings
import StreamParser.Proofs.Grammar.Consumption
import StreamParser.Proofs.Grammar.Room
import StreamParser.Proofs.Json.Tokens
import StreamParser.Proofs.Json.Steps
import StreamParser.Proofs.Json.Failure
import StreamParser.Proofs.Json.Lexemes
import StreamParser.Proofs.Json.Standard
import StreamParser.Proofs.Json.StringLiteral
import StreamParser.Proofs.Json.Syntax
import StreamParser.Proofs.Json.Soundness
import StreamParser.Proofs.Json.TokenRoom
import StreamParser.Proofs.Json.Streaming
import StreamParser.Proofs.Json.Document
import StreamParser.Proofs.Json.Conformance
import StreamParser.Proofs.Tokenizer.Protocol
import StreamParser.Proofs.Tokenizer.Caching
import StreamParser.Proofs.Tokenizer.Retry
import StreamParser.Proofs.Tokenizer.Errors
import StreamParser.Proofs.Grammar.Surfacing
import StreamParser.Proofs.Grammar.Coupling
import StreamParser.Proofs.Grammar.Guarded
import StreamParser.Proofs.Tokenizer.Endless
import StreamParser.Proofs.Tokenizer.Repeat
import StreamParser.Proofs.Grammar.Trying
import StreamParser.Proofs.Grammar.Backtracking
import StreamParser.Proofs.Grammar.Repetition
import StreamParser.Proofs.Tokenizer.Peeking
import StreamParser.Proofs.Tokenizer.SkippingTwice
import StreamParser.Proofs.Tokenizer.Termination
import StreamParser.Proofs.Grammar.CursorSteps
import StreamParser.Proofs.Grammar.Turns
import StreamParser.Proofs.Grammar.Stalling
import StreamParser.Proofs.Grammar.Separation
import StreamParser.Proofs.Grammar.WordList
import StreamParser.Proofs.Json.Integers
import StreamParser.Proofs.Tokenizer.GivingUp
import StreamParser.Proofs.Pattern.Escaping
import StreamParser.Proofs.Pattern.Literal
import StreamParser.Proofs.Pattern.Priority
import StreamParser.Proofs.Pattern.Places
import StreamParser.Proofs.Pattern.Closure
import StreamParser.Proofs.Pattern.Leftmost
import StreamParser.Proofs.Error.Causes
import StreamParser.Proofs.Json.Writing
import StreamParser.Proofs.Config.RoundTrip
import StreamParser.Proofs.Text.Boundaries
import StreamParser.Proofs.Tokenizer.Spending
import StreamParser.Proofs.Tokenizer.Characters
import StreamParser.Proofs.Grammar.Remarks
import StreamParser.Proofs.Grammar.Visits
import StreamParser.Proofs.Json.Nesting
