import RecordGate.Acl.Aggregate
import RecordGate.Acl.Directory
import RecordGate.Acl.DirectoryFile
import RecordGate.Acl.Entitlement
import RecordGate.Acl.Model
import RecordGate.Auth.Bearer
import RecordGate.Auth.Claims
import RecordGate.Auth.Decision
import RecordGate.Auth.Failure
import RecordGate.Auth.Settings
import RecordGate.Auth.Signer
import RecordGate.Calendar.Date
import RecordGate.Calendar.Instant
import RecordGate.Calendar.Reader
import RecordGate.Calendar.Span
import RecordGate.Calendar.SpanReader
import RecordGate.Cli.Arguments
import RecordGate.Cli.Builtin
import RecordGate.Cli.Client
import RecordGate.Cli.Command
import RecordGate.Cli.Decisions
import RecordGate.Cli.Failure
import RecordGate.Cli.Grant
import RecordGate.Cli.Help
import RecordGate.Cli.Run
import RecordGate.Cli.Table
import RecordGate.Cli.Verb
import RecordGate.Crypto.Base64Url
import RecordGate.Crypto.Hmac
import RecordGate.Crypto.Sha256
import RecordGate.Entity.Author
import RecordGate.Entity.Book
import RecordGate.Error.Code
import RecordGate.Error.Report
import RecordGate.Event
import RecordGate.Filter.Compile
import RecordGate.Filter.Operator
import RecordGate.Filter.Predicate
import RecordGate.Filter.Query
import RecordGate.Filter.Sql
import RecordGate.Filter.Wire
import RecordGate.Gate
import RecordGate.Http.MediaType
import RecordGate.Http.Percent
import RecordGate.Http.Reply
import RecordGate.Http.Request
import RecordGate.Http.Status
import RecordGate.Http.Url
import RecordGate.Json.Decode
import RecordGate.Json.Node
import RecordGate.Json.Token
import RecordGate.Json.Value
import RecordGate.Number.Binary64
import RecordGate.Number.Decimal
import RecordGate.Number.Ranged
import RecordGate.Pattern.Basic
import RecordGate.Pattern.Reader
import RecordGate.Pattern.Replace
import RecordGate.Schema.Entity
import RecordGate.Schema.Registry
import RecordGate.Schema.Summary
import RecordGate.Schema.Value
import RecordGate.Schema.Wire
import RecordGate.Service.App
import RecordGate.Service.Resource
import RecordGate.Service.Route
import RecordGate.Settings.Reader
import RecordGate.Settings.Service
import RecordGate.Settings.Setting
import RecordGate.Store
import RecordGate.Supply
import RecordGate.Supply.Random
import RecordGate.Telemetry.Directive
import RecordGate.Telemetry.Logging
import RecordGate.Telemetry.Metrics
import RecordGate.Telemetry.Redaction
import RecordGate.Text.Blank
import RecordGate.Text.CaseTable
import RecordGate.Text.Caseless
import RecordGate.Text.Lowercase
import RecordGate.Text.Order
import RecordGate.Text.Quoted
import RecordGate.Text.Search
import RecordGate.Text.Utf8
import RecordGate.Text.Width
import RecordGate.Text.WidthTable
import RecordGate.Uuid
import RecordGate.Uuid.Fault
import RecordGate.Yaml.Decode
import RecordGate.Yaml.Node
import RecordGate.Yaml.Printer
import RecordGate.Yaml.Reader
import RecordGate.Yaml.Scalar
import RecordGate.Yaml.Spot
import RecordGate.Yaml.Written
import RecordGate.Main
import RecordGate.Proofs.Filter.Fold
import RecordGate.Proofs.Filter.Matching
import RecordGate.Proofs.Service.Routes
import RecordGate.Proofs.Auth.Signed
import RecordGate.Proofs.Service.Replies
import RecordGate.Proofs.Service.Refusal
import RecordGate.Proofs.Json.Written
import RecordGate.Proofs.Json.RoundTrip
import RecordGate.Proofs.Crypto.Base64Url
import RecordGate.Proofs.Text.Bytes
import RecordGate.Proofs.Uuid
import RecordGate.Proofs.Acl.Aggregate
import RecordGate.Proofs.Acl.History
import RecordGate.Proofs.Acl.Confinement
import RecordGate.Proofs.Acl.Seeding
import RecordGate.Proofs.Acl.Integrity
import RecordGate.Proofs.Acl.Reads
import RecordGate.Proofs.Auth.Credential
import RecordGate.Proofs.Auth.Issuer
import RecordGate.Proofs.Auth.Snapshot
import RecordGate.Proofs.Filter.SqlText
import RecordGate.Proofs.Filter.SqlOperands
import RecordGate.Proofs.Filter.SqlTruth
import RecordGate.Proofs.Filter.SqlClause
import RecordGate.Proofs.Store.Keys
import RecordGate.Proofs.Store.OrderedMap
import RecordGate.Proofs.Service.Changes
import RecordGate.Proofs.Auth.Lifetime
import RecordGate.Proofs.Json.Records
import RecordGate.Proofs.Auth.Verdict
import RecordGate.Proofs.Auth.Header
import RecordGate.Proofs.Service.Issue
import RecordGate.Proofs.Http.Escapes
import RecordGate.Proofs.Filter.QueryJson
import RecordGate.Proofs.Calendar.Written
import RecordGate.Proofs.Service.Search
import RecordGate.Proofs.Filter.PredicateJson
import RecordGate.Proofs.Text.Ascending
import RecordGate.Proofs.Text.Trimming
import RecordGate.Proofs.Acl.ActionTexts
import RecordGate.Proofs.Cli.Matrix
import RecordGate.Proofs.Filter.Faults
import RecordGate.Proofs.Filter.Leaves
import RecordGate.Proofs.Acl.Seeded
import RecordGate.Proofs.Text.Words
import RecordGate.Proofs.Auth.Judgement
import RecordGate.Proofs.Json.Members
import RecordGate.Proofs.Uuid.Forms
import RecordGate.Proofs.Auth.Claims
import RecordGate.Proofs.Auth.Unusable
import RecordGate.Proofs.Json.Accepted
import RecordGate.Proofs.Acl.Payload
import RecordGate.Proofs.Calendar.Typed
import RecordGate.Proofs.Schema.Shown
import RecordGate.Proofs.Schema.Order
import RecordGate.Proofs.Number.Rounding
import RecordGate.Proofs.Schema.Described
import RecordGate.Proofs.Schema.Mixed
import RecordGate.Proofs.Filter.Comparing
import RecordGate.Proofs.Service.PutBack
import RecordGate.Proofs.Acl.WireBits
import RecordGate.Proofs.Pattern.Runs
import RecordGate.Proofs.Json.Spellings
import RecordGate.Proofs.Telemetry.Tokens
import RecordGate.Proofs.Telemetry.Redaction
import RecordGate.Proofs.Cli.RemoteQuery
import RecordGate.Proofs.Filter.Shorthand
import RecordGate.Proofs.Telemetry.Counted
import RecordGate.Proofs.Service.Decisions
import RecordGate.Proofs.Service.Denied
