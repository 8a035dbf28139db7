import RecordGate.Error.Report

/-!
# Failures of authentication

Why a caller is not known. The reply to a failure says no more than its kind.
-/

namespace RecordGate

/-- Why a caller is not known, or no credential can be made. -/
inductive AuthFailure
  | missingCredentials
  | invalidToken
  | tokenExpired
  | misconfigured (detail : String)
  | unsigned (detail : String)
deriving DecidableEq

namespace AuthFailure

/-- The code in replies and metrics. -/
def code : AuthFailure → String
  | .missingCredentials => "MISSING_CREDENTIALS"
  | .invalidToken => "INVALID_TOKEN"
  | .tokenExpired => "TOKEN_EXPIRED"
  | .misconfigured _ => "INTERNAL_ERROR"
  | .unsigned _ => "INTERNAL_ERROR"

/-- The text for those who run the service. -/
def message : AuthFailure → String
  | .missingCredentials => "Missing authentication credentials"
  | .invalidToken => "Invalid authentication token"
  | .tokenExpired => "Token has expired"
  | .misconfigured detail => "Authentication is misconfigured: " ++ detail
  | .unsigned detail => "Failed to sign credential: " ++ detail

def status : AuthFailure → Nat
  | .missingCredentials => 401
  | .invalidToken => 401
  | .tokenExpired => 401
  | .misconfigured _ => 500
  | .unsigned _ => 500

/-- The text for the caller. -/
def notice : AuthFailure → String
  | .missingCredentials => "Authentication credentials are required"
  | .invalidToken => "The provided token is invalid"
  | .tokenExpired => "The authentication token has expired"
  | .misconfigured _ => "An authentication error occurred"
  | .unsigned _ => "An authentication error occurred"

def reply (f : AuthFailure) : Reply :=
  ⟨f.status, .json (.object [("success", .bool false),
    ("error", .object [("code", .string f.code), ("message", .string f.notice)])])⟩

def reportCode : AuthFailure → ErrorCode
  | .missingCredentials => .unauthorized
  | .invalidToken => .invalidToken
  | .tokenExpired => .tokenExpired
  | .misconfigured _ => .invalidConfiguration
  | .unsigned _ => .internalError

def report (f : AuthFailure) : ErrorReport :=
  { code := f.reportCode, message := f.message, cause := some f.message }

end AuthFailure

end RecordGate
