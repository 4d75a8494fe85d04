import Comsat.Types.Identity

set_option relaxedAutoImplicit false
set_option autoImplicit false

/-!
# Errors of sources

The classes of errors that a source, a tool or an HTTP client reports.

## Main definitions

* `ErrorClass`, `ErrorClass.debugName` — the classes and the names they are printed with.
* `SourceError` — an error of a source.
-/

namespace Comsat

/-- The class of an error. -/
inductive ErrorClass where
  | authentication
  | authorization
  | rateLimit
  | invalidQuery
  | notFound
  | unsupported
  | upstream
  | timeout
  | cancelled
  | protocol
  | internal
deriving DecidableEq, Repr

/-- The name a class is printed with. -/
def ErrorClass.debugName : ErrorClass → String
  | authentication => "Authentication"
  | authorization => "Authorization"
  | rateLimit => "RateLimit"
  | invalidQuery => "InvalidQuery"
  | notFound => "NotFound"
  | unsupported => "Unsupported"
  | upstream => "Upstream"
  | timeout => "Timeout"
  | cancelled => "Cancelled"
  | protocol => "Protocol"
  | internal => "Internal"

/-- An error of a source. -/
structure SourceError where
  source : SourceId
  errorClass : ErrorClass
  message : String
  retryAfterSeconds : Option ℕ
deriving DecidableEq

end Comsat
