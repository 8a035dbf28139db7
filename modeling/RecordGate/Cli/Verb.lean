import RecordGate.Acl.Model
import RecordGate.Text.Search

/-!
# Verbs and switches

What can be asked for on a command line: the verbs, some of which have verbs below them, and the
switches that each verb knows. Some switches are known to every verb.
-/

namespace RecordGate.Cli

inductive OutputFormat
  | table
  | json
  | yaml
deriving DecidableEq, Repr

namespace OutputFormat

def names : List (String × OutputFormat) := [("table", .table), ("json", .json), ("yaml", .yaml)]

def parse? (s : String) : Option OutputFormat := names.lookup s

end OutputFormat

/-- A switch without a value, with one value, or with a value each time it is given. -/
inductive Arity
  | flag
  | single
  | repeated
deriving DecidableEq

/-- A switch: its name, what it is about, its letter, the name of its value, the values it accepts, the
value it has when none is given, and the variable of the environment that stands for it. -/
structure Switch where
  name : String
  about : String
  letter : Option Char := none
  arity : Arity := .single
  holder : String := ""
  accepts : String → Bool := fun _ => true
  choices : List (String × String) := []
  standard : Option String := none
  variableName : Option String := none
  showsVariable : Bool := true

namespace Switch

def output : Switch :=
  { name := "output", about := "Output format", letter := some 'o', holder := "OUTPUT"
    accepts := fun s => (OutputFormat.parse? s).isSome, standard := some "table"
    choices :=
      [("table", "Render as a formatted table"), ("json", "Render as JSON"),
        ("yaml", "Render as YAML")] }

def apiUrl : Switch :=
  { name := "api-url", about := "API server URL", holder := "API_URL"
    standard := some "http://localhost:8080", variableName := some "TESSERA_API_URL" }

def noColor : Switch :=
  { name := "no-color", about := "Disable colored output", arity := .flag }

def filter : Switch :=
  { name := "filter", about := "Filter criterion as Property:operator:value (repeatable)"
    letter := some 'f', arity := .repeated, holder := "FILTERS" }

def search : Switch :=
  { name := "search", about := "Free-text search term", letter := some 's', holder := "SEARCH" }

def token : Switch :=
  { name := "token", about := "Bearer credential", letter := some 't', holder := "TOKEN"
    variableName := some "TESSERA_TOKEN" }

def remote : Switch :=
  { name := "remote", about := "Fetch from the server instead of the built-in catalogue"
    arity := .flag }

def secret : Switch :=
  { name := "secret", about := "Signing secret", holder := "SECRET"
    variableName := some "TESSERA__AUTH__JWT_SECRET", showsVariable := false }

def tenant : Switch :=
  { name := "tenant", about := "Tenant id", holder := "TENANT"
    accepts := fun s => (TenantId.parse? s).isSome }

def user : Switch :=
  { name := "user", about := "User id", holder := "USER"
    accepts := fun s => (UserId.parse? s).isSome }

def superAdmin : Switch :=
  { name := "super-admin", about := "Issue a super-admin credential", arity := .flag }

def grant : Switch :=
  { name := "grant", about := "Entitlement grant as Entity=create,read (repeatable)"
    letter := some 'g', arity := .repeated, holder := "GRANTS" }

def directory : Switch :=
  { name := "directory", about := "Role directory (YAML or JSON) to aggregate the ACL from"
    holder := "DIRECTORY", accepts := fun s => !s.isEmpty }

/-- A whole number of 64 bits without a minus sign. -/
def seconds? (s : String) : Option Nat :=
  let digits :=
    match s.toList with
    | '+' :: r => r
    | r => r
  (natural? digits).filter fun n => Nat.blt n 18446744073709551616

def lifetime : Switch :=
  { name := "lifetime-secs", about := "Credential lifetime in seconds", holder := "LIFETIME_SECS"
    accepts := fun s => (seconds? s).isSome, standard := some "3600" }

def issuer : Switch := { name := "issuer", about := "\x60iss\x60 claim", holder := "ISSUER" }

/-- The switches of every verb. -/
def common : List Switch := [output, apiUrl, noColor]

end Switch

/-- What can be asked for; `root` and `token` need one of the verbs below them. -/
inductive Verb
  | root
  | compile
  | token
  | issue
  | inspect
  | query
  | schema
  | health
deriving DecidableEq, Repr

namespace Verb

def below : Verb → List (String × Verb)
  | .root =>
      [("compile", .compile), ("token", .token), ("query", .query), ("schema", .schema),
        ("health", .health)]
  | .token => [("issue", .issue), ("inspect", .inspect)]
  | _ => []

def path : Verb → List String
  | .root => ["tessera"]
  | .compile => ["tessera", "compile"]
  | .token => ["tessera", "token"]
  | .issue => ["tessera", "token", "issue"]
  | .inspect => ["tessera", "token", "inspect"]
  | .query => ["tessera", "query"]
  | .schema => ["tessera", "schema"]
  | .health => ["tessera", "health"]

def own : Verb → List Switch
  | .compile => [.filter, { Switch.search with standard := some "" }]
  | .issue => [.secret, .tenant, .user, .superAdmin, .grant, .directory, .lifetime, .issuer]
  | .inspect => [.secret]
  | .query => [.token, .filter, .search]
  | .schema =>
      [.remote, { Switch.token with about := "Bearer credential, required with --remote" }]
  | _ => []

def switches (v : Verb) : List Switch := v.own ++ Switch.common

def required : Verb → List Switch
  | .issue => [.secret, .tenant, .user]
  | .inspect => [.secret]
  | .query => [.token]
  | _ => []

def places : Verb → List (String × String)
  | .compile => [("ENTITY", "Entity name, e.g. Books")]
  | .inspect => [("TOKEN", "The credential to inspect")]
  | .query => [("ENTITY", "Entity name, e.g. Books")]
  | .schema => [("ENTITY", "Entity name, e.g. Books")]
  | _ => []

/-- What a verb is for, in few words. -/
def about : Verb → String
  | .root => "Tessera - multi-tenant, schema-agnostic CRUD core"
  | .compile => "Compile filter criteria into a predicate and SQL (offline)"
  | .token => "Credential operations"
  | .issue => "Sign a credential"
  | .inspect => "Verify a credential and show what it grants"
  | .query => "Query records on a running server"
  | .schema => "Describe an entity's fields"
  | .health => "Check server health"

/-- What a verb is for, in more words. -/
def purpose : Verb → String
  | .root =>
      "Compile filter criteria offline, issue and inspect credentials, and query a running " ++
        "Tessera server."
  | v => v.about

def versionText (v : Verb) : String := Text.join "-" v.path ++ " 0.1.0\n"

end Verb

end RecordGate.Cli
