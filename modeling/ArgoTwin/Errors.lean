/-!
# Failures

What a call can raise: the `DigitalTwinError` family, and the exceptions
of the language and of SQLite that pass through the same code.
-/

namespace ArgoTwin

/-- A raised exception, with its message. -/
inductive PyError where
  | invariantViolation (message : String)
  | concurrencyConflict (message : String)
  | integrityError (message : String)
  | policyDenied (message : String)
  | authorizationDenied (message : String)
  | protocolViolation (message : String)
  | messageTooLarge (message : String)
  | resumeCursorRejected (message : String)
  | backpressureExceeded (message : String)
  | stopAsyncIteration
  | typeError (message : String)
  | attributeError (message : String)
  | keyError (key : String)
  | valueError (message : String)
  | overflowError (message : String)
  | databaseError (message : String)
  deriving DecidableEq, Repr

end ArgoTwin
