import CertWatch.Bytes

/-!
# Failures

What can go wrong, as causes. `Failure.message` is the one place that words them for a reader, and
`Failure.rootMessage` words the innermost cause.
-/

namespace CertWatch
set_option autoImplicit false

/-- Sealed bytes that could not be opened: the bytes as they were stored and the reason. -/
structure DecryptFailure where
  cipher : Bytes
  reason : String
  deriving DecidableEq, Repr

/-- A failure of the watching service or of what it is connected to. -/
inductive Failure where
  /-- The store could not be reached; a later attempt may succeed. -/
  | storeUnavailable (detail : String)
  /-- Sealed bytes could not be opened; no later attempt will succeed. -/
  | decrypt (cause : DecryptFailure)
  /-- A stored value is no envelope. -/
  | malformedEnvelope (detail : String)
  /-- A lease was not granted or was lost. -/
  | lockAcquisition (detail : String)
  /-- A setting or an argument is not acceptable. -/
  | validation (detail : String)
  /-- The client of the store is shutting down. -/
  | cancelled
  /-- A text is not the JSON that was asked for. -/
  | json (detail : String)
  /-- Anything else. -/
  | other (detail : String)
  deriving DecidableEq, Repr

namespace Failure

/-- The failure in words. -/
def message : Failure → String
  | storeUnavailable detail => "Store unavailable: " ++ detail
  | decrypt cause => "Decrypt failure: " ++ cause.reason
  | malformedEnvelope detail => "Malformed envelope: " ++ detail
  | lockAcquisition detail => "Lock acquisition failed: " ++ detail
  | validation detail => "Validation error: " ++ detail
  | cancelled => "Operation cancelled"
  | json detail => "JSON error: " ++ detail
  | other detail => detail

/-- The innermost cause in words: a failure to decrypt and a failure to read JSON wrap another, all
other failures are their own cause. -/
def rootMessage : Failure → String
  | decrypt cause => cause.reason
  | json detail => detail
  | f => f.message

/-- Whether the innermost cause is a failure of this type, and not one it wraps. -/
def isOwnCause : Failure → Bool
  | decrypt _ => false
  | json _ => false
  | _ => true

/-- Whether the failure only says that work was called off. -/
def isCancellation : Failure → Bool
  | cancelled => true
  | _ => false

/-- The failure that stands for a chain of explanations, outermost last: only the outermost is
kept. -/
def ofChain (innermost : String) (explanations : List String) : Failure :=
  other (explanations.getLast?.getD innermost)

end Failure
end CertWatch
