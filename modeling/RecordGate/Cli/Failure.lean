import RecordGate.Auth.Failure
import RecordGate.Cli.Builtin
import RecordGate.Http.Status
import RecordGate.Http.Url

/-!
# Failures of commands

Why a command gives no result, and the words that tell it.
-/

namespace RecordGate.Cli

inductive Failure
  | unknownEntity (name : String)
  | malformedFilter (raw : String)
  | filter (error : FilterError)
  | malformedGrant (raw : String)
  | unknownAction (raw reason : String)
  | signing (failure : AuthFailure)
  | rejected (failure : AuthFailure)
  | tokenMissing
  | unreadableFile (path reason : String)
  | badDirectory (path reason : String)
  | unsent (method url : String) (causes : List String)
  | refused (status : Nat) (message : String)
  | unreadableAnswer (url : String)
  | unsuccessful (url : String)
  | noData

namespace Failure

/-- A chain of causes, each one told together with all that are behind it. -/
def chain : List String → String
  | [] => ""
  | [cause] => cause
  | cause :: rest => cause ++ ": " ++ Text.join ": " rest ++ ": " ++ chain rest

def message : Failure → String
  | .unknownEntity name =>
      "Unknown entity '" ++ name ++ "' (known: " ++ Text.join ", " (Builtin.all.map (·.name)) ++ ")"
  | .malformedFilter raw => "Invalid filter '" ++ raw ++ "', expected Property:operator:value"
  | .filter error => error.message
  | .malformedGrant raw => "Invalid grant '" ++ raw ++ "', expected Entity=actions"
  | .unknownAction raw reason => "Invalid grant '" ++ raw ++ "': " ++ reason
  | .signing failure => failure.message
  | .rejected failure => "Credential rejected: " ++ failure.message
  | .tokenMissing => "--remote requires --token or TESSERA_TOKEN"
  | .unreadableFile path reason => "Failed to read " ++ path ++ ": " ++ reason
  | .badDirectory path reason => "Invalid role directory " ++ path ++ ": " ++ reason
  | .unsent method url causes => method ++ " " ++ url ++ " failed: " ++ chain causes
  | .refused status message => "API error (" ++ Status.text status ++ "): " ++ message
  | .unreadableAnswer url =>
      "Failed to parse response from " ++ url ++ ": error decoding response body"
  | .unsuccessful url => "API reported failure for " ++ url
  | .noData => "API returned success but no data"

/-- Why an address cannot be used, from the outside in. -/
def ofUrlFault : UrlFault → List String
  | .relative => ["builder error", "relative URL without a base"]
  | .emptyHost => ["builder error", "empty host"]
  | .badHost => ["builder error", "invalid international domain name"]
  | .badPort => ["builder error", "invalid port number"]
  | .foreign address =>
      ["builder error for url (" ++ address ++ ")", "URL scheme is not allowed"]

end Failure

end RecordGate.Cli
