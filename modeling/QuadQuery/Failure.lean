import QuadQuery.Grammar.Text
import QuadQuery.JoinTree.State

/-!
# Failures

Everything that can go wrong, by cause, with the words that it is reported in.
-/

namespace QuadQuery

/-- What is wrong with settings. -/
inductive SettingsFault where
  | zeroCapacity
  /-- The settings text cannot be read, or a value does not fit its setting. -/
  | malformed
deriving DecidableEq

/-- Why a scan refuses to work. -/
inductive ScanFault where
  | openedBeforeInit (pattern : BasicPattern)
  | soughtBeforeInit (pattern : BasicPattern)
  | refused (reason : String)
deriving DecidableEq

namespace ScanFault

def message : ScanFault → String
  | .openedBeforeInit pattern => "scan over " ++ pattern.text ++ " opened before init"
  | .soughtBeforeInit pattern => "scan over " ++ pattern.text ++ " sought before init"
  | .refused reason => reason

end ScanFault

/-- Why a query, or a step of one, has failed. -/
inductive Failure where
  | settings (fault : SettingsFault)
  | text (refusal : Grammar.Refusal)
  | unsupported (operator : String)
  | scan (fault : ScanFault)
  | unknownTerm (id : TermId)
  | unreadable (path : String)
  | noPendingRow (state : NodeState)
  /-- A step took longer than its bound allows. -/
  | outOfSteps
deriving DecidableEq

namespace Failure

def message : Failure → String
  | .settings .zeroCapacity => "Config error: cache_capacity must be at least 1"
  | .settings .malformed => "Config error: malformed settings"
  | .text refusal => "Parse error: " ++ refusal.cause.message
  | .unsupported operator => "Unsupported operator: " ++ operator
  | .scan fault => "Scan error: " ++ fault.message
  | .unknownTerm id => "Unknown term: " ++ id.text
  | .unreadable path => "Execution error: cannot read " ++ path
  | .noPendingRow state =>
    "Internal invariant violated: row taken from a node without a pending row (" ++ state.text
      ++ ")"
  | .outOfSteps => "Internal invariant violated: step bound exceeded"

end Failure

end QuadQuery
