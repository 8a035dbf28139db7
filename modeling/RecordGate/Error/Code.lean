import RecordGate.Json.Decode

/-!
# Error codes

The kinds of errors that clients are told, with the number, the HTTP status, the category and the
severity of each.
-/

namespace RecordGate

inductive ErrorCode
  | unknownProperty
  | invalidFieldValue
  | unsupportedOperator
  | unknownEntity
  | storageError
  | recordNotFound
  | duplicateRecord
  | serializationError
  | deserializationError
  | invalidJson
  | unauthorized
  | invalidToken
  | tokenExpired
  | validationError
  | configurationError
  | missingConfiguration
  | invalidConfiguration
  | internalError
deriving DecidableEq, Repr

inductive Severity
  | low
  | medium
  | high
  | critical
deriving DecidableEq, Repr

namespace Severity

def name : Severity → String
  | .low => "Low"
  | .medium => "Medium"
  | .high => "High"
  | .critical => "Critical"

def wireName : Severity → String
  | .low => "low"
  | .medium => "medium"
  | .high => "high"
  | .critical => "critical"

end Severity

namespace ErrorCode

def all : List ErrorCode :=
  [.unknownProperty, .invalidFieldValue, .unsupportedOperator, .unknownEntity, .storageError,
    .recordNotFound, .duplicateRecord, .serializationError, .deserializationError, .invalidJson,
    .unauthorized, .invalidToken, .tokenExpired, .validationError, .configurationError,
    .missingConfiguration, .invalidConfiguration, .internalError]

def name : ErrorCode → String
  | .unknownProperty => "UnknownProperty"
  | .invalidFieldValue => "InvalidFieldValue"
  | .unsupportedOperator => "UnsupportedOperator"
  | .unknownEntity => "UnknownEntity"
  | .storageError => "StorageError"
  | .recordNotFound => "RecordNotFound"
  | .duplicateRecord => "DuplicateRecord"
  | .serializationError => "SerializationError"
  | .deserializationError => "DeserializationError"
  | .invalidJson => "InvalidJson"
  | .unauthorized => "Unauthorized"
  | .invalidToken => "InvalidToken"
  | .tokenExpired => "TokenExpired"
  | .validationError => "ValidationError"
  | .configurationError => "ConfigurationError"
  | .missingConfiguration => "MissingConfiguration"
  | .invalidConfiguration => "InvalidConfiguration"
  | .internalError => "InternalError"

def wireName : ErrorCode → String
  | .unknownProperty => "UNKNOWN_PROPERTY"
  | .invalidFieldValue => "INVALID_FIELD_VALUE"
  | .unsupportedOperator => "UNSUPPORTED_OPERATOR"
  | .unknownEntity => "UNKNOWN_ENTITY"
  | .storageError => "STORAGE_ERROR"
  | .recordNotFound => "RECORD_NOT_FOUND"
  | .duplicateRecord => "DUPLICATE_RECORD"
  | .serializationError => "SERIALIZATION_ERROR"
  | .deserializationError => "DESERIALIZATION_ERROR"
  | .invalidJson => "INVALID_JSON"
  | .unauthorized => "UNAUTHORIZED"
  | .invalidToken => "INVALID_TOKEN"
  | .tokenExpired => "TOKEN_EXPIRED"
  | .validationError => "VALIDATION_ERROR"
  | .configurationError => "CONFIGURATION_ERROR"
  | .missingConfiguration => "MISSING_CONFIGURATION"
  | .invalidConfiguration => "INVALID_CONFIGURATION"
  | .internalError => "INTERNAL_ERROR"

def number : ErrorCode → Nat
  | .unknownProperty => 1000
  | .invalidFieldValue => 1001
  | .unsupportedOperator => 1002
  | .unknownEntity => 1003
  | .storageError => 2000
  | .recordNotFound => 2001
  | .duplicateRecord => 2002
  | .serializationError => 2200
  | .deserializationError => 2201
  | .invalidJson => 2202
  | .unauthorized => 4000
  | .invalidToken => 4002
  | .tokenExpired => 4003
  | .validationError => 4100
  | .configurationError => 5000
  | .missingConfiguration => 5001
  | .invalidConfiguration => 5002
  | .internalError => 9000

/-- The HTTP status of an answer with this error. -/
def status : ErrorCode → Nat
  | .unknownProperty | .invalidFieldValue | .unsupportedOperator | .invalidJson
  | .deserializationError => 400
  | .unknownEntity | .recordNotFound => 404
  | .duplicateRecord => 409
  | .unauthorized | .invalidToken | .tokenExpired => 401
  | .validationError => 422
  | .storageError => 503
  | .serializationError | .configurationError | .missingConfiguration | .invalidConfiguration
  | .internalError => 500

/-- The category, which is decided by the hundreds of the number. -/
def category (code : ErrorCode) : String :=
  match code.number / 100 with
  | 10 => "filter"
  | 20 => "storage"
  | 22 => "serialization"
  | 40 => "authentication"
  | 41 => "validation"
  | 50 => "configuration"
  | 90 => "internal"
  | _ => "unknown"

def severity : ErrorCode → Severity
  | .unknownProperty | .invalidFieldValue | .unsupportedOperator | .unknownEntity | .recordNotFound
  | .duplicateRecord | .validationError | .invalidJson | .deserializationError => .low
  | .unauthorized | .invalidToken | .tokenExpired => .medium
  | .storageError | .serializationError => .high
  | .configurationError | .missingConfiguration | .invalidConfiguration | .internalError => .critical

def json (code : ErrorCode) : Json := .string code.wireName

def decode : Json.Decoder ErrorCode := Json.Decoder.choice (all.map fun code => (code.wireName, code))

end ErrorCode

end RecordGate
