import RecordGate.Acl.DirectoryFile
import RecordGate.Auth.Signer
import RecordGate.Cli.Client
import RecordGate.Cli.Command
import RecordGate.Cli.Decisions
import RecordGate.Cli.Grant
import RecordGate.Cli.Help
import RecordGate.Filter.Sql
import RecordGate.Filter.Wire
import RecordGate.Yaml.Printer

/-!
# Running a command line

What a command line prints and the code it ends with. All that it depends on beside its arguments is
given: the variables of the environment, the files, the network, the time and fresh identifiers.
-/

namespace RecordGate.Cli

/-- What a command line depends on beside its arguments. -/
structure Surroundings where
  env : List (String × String)
  file : String → Except String String
  network : Network
  now : Int
  supply : Supply

/-- What is printed as the result and what is printed about errors. -/
structure Printed where
  out : String
  err : String := ""

structure Ending where
  code : Nat
  printed : Printed

/-! ## Pieces of output -/

def header (title : String) : String := "\n" ++ title ++ "\n\n"

def detail (name value : String) : String := "  " ++ name ++ ": " ++ value ++ "\n"

def errorLine (message : String) : String := "[ERROR] " ++ message ++ "\n"

/-- A value in a format, or else the text for the table format. -/
def shownAs (format : OutputFormat) (value : Json) (table : String) : Printed :=
  match format with
  | .table => ⟨table, ""⟩
  | .json => ⟨value.pretty ++ "\n", ""⟩
  | .yaml => ⟨Yaml.text value, ""⟩

/-! ## Compiling -/

def readFilters : List String → Except Failure (List FilterCriterion)
  | [] => .ok []
  | raw :: rest =>
      match FilterCriterion.parseShorthand? raw with
      | none => .error (.malformedFilter raw)
      | some c => (readFilters rest).map fun cs => c :: cs

def resolveEntity (name : String) : Except Failure Builtin :=
  match Builtin.resolve? name with
  | some b => .ok b
  | none => .error (.unknownEntity name)

/-- The numbered parameters of a clause, one on a line. -/
def parameterLines : Nat → List Value → String
  | _, [] => ""
  | n, v :: rest => detail ("$" ++ toString n) v.display ++ parameterLines (n + 1) rest

/-- Shows the predicate of criteria and a search term, and its clause. -/
def runCompile (format : OutputFormat) (entity : String) (filters : List String) (search : String) :
    Except Failure Printed := do
  let criteria ← readFilters filters
  let b ← resolveEntity entity
  match b.compile criteria search with
  | .error e => throw (.filter e)
  | .ok predicate =>
      let clause := Sql.render predicate
      let value := Json.object
        [ ("entity", .string b.name), ("expression", .string predicate.text),
          ("predicate", predicate.json), ("sql", .string clause.sql),
          ("params", .array (clause.params.map Value.json)) ]
      return shownAs format value (header (b.name ++ " predicate") ++
        detail "Expression" predicate.text ++ detail "WHERE" clause.sql ++
        parameterLines 1 clause.params)

/-! ## Credentials -/

def readDirectory (w : Surroundings) (path : String) (supply : Supply) :
    Except Failure Directory :=
  match w.file path with
  | .error reason => .error (.unreadableFile path reason)
  | .ok text =>
      match DirectorySeed.readYaml text with
      | .error reason => .error (.badDirectory path reason)
      | .ok seed => .ok (Directory.ofSeed seed supply).1

def signerOf (settings : AuthSettings) : Except Failure Signer :=
  match Signer.ofSettings settings with
  | .ok signer => .ok signer
  | .error f => .error (.signing f)

def issueCredential (w : Surroundings) (order : IssueOrder) : Except Failure Credential := do
  let signer ← signerOf
    { secret := order.secret, lifetime := ⟨order.lifetime, 0⟩, issuer := order.issuer }
  let subject : Subject := ⟨order.tenant, order.user, order.isSuperAdmin⟩
  let (jti, supply) := w.supply.take
  match order.source with
  | .directory path =>
      let directory ← readDirectory w path supply
      return signer.issueFor w.now jti directory subject
  | .grants raw =>
      let acl ← grantedAcl raw
      return signer.issue w.now jti subject acl

def runIssue (w : Surroundings) (format : OutputFormat) (order : IssueOrder) :
    Except Failure Printed := do
  let credential ← issueCredential w order
  let value := Json.object
    [("token", .string credential.token), ("claims", credential.claims.json)]
  return shownAs format value (credential.token ++ "\n")

def readToken (w : Surroundings) (token secret : String) : Except Failure Identity := do
  let signer ← signerOf { secret := secret }
  match signer.authenticate w.now token with
  | .ok i => return i
  | .error f => throw (.rejected f)

def runInspect (w : Surroundings) (format : OutputFormat) (token secret : String) :
    Except Failure Printed := do
  let i ← readToken w token secret
  let rows := decisions i
  let value := Json.object [("claims", i.json), ("decisions", .array (rows.map DecisionRow.json))]
  return shownAs format value (header "Identity" ++
    detail "User" (i.user.elim "none" (·.uuid.text)) ++
    detail "Tenant" (i.tenant.elim "none" (·.uuid.text)) ++
    detail "Super admin" (if i.isSuperAdmin then "true" else "false") ++
    detail "ACL" (if i.acl.isSome then "present" else "absent") ++
    header "Decisions" ++ (decisionTable rows).text ++ "\n")

/-! ## Servers -/

def cellText : Option Json → String
  | none => ""
  | some .null => ""
  | some (.string s) => s
  | some value => value.compact

/-- Records as a table with a column for every member of the first one. -/
def recordTable : List Json → String
  | .object first :: rest =>
      let columns := first.map (·.1)
      let row (record : Json) : List String := columns.map fun name => cellText (record.member? name)
      (Table.mk columns ((.object first :: rest).map row)).text ++ "\n"
  | _ => "No results found.\n"

def runQuery (client : Client) (format : OutputFormat) (entity token : String)
    (filters : List String) (search : Option String) : Except Failure Printed := do
  let b ← resolveEntity entity
  let criteria ← readFilters filters
  let query : FilterQuery := ⟨criteria, search⟩
  let records ← client.post (Json.Decoder.list Json.Node.read) (b.route ++ "/query") query.json
    (some token)
  let records := records.map Json.sorted
  return shownAs format (.array records) (recordTable records ++ "[INFO] " ++
    toString records.length ++ " " ++ b.name ++ " record(s)\n")

def showSchema (format : OutputFormat) (s : SchemaSummary) : Printed :=
  let rows := s.fields.map fun f =>
    [f.name, f.type.name, if f.searchable then "true" else "false"]
  let table := if rows.isEmpty then "No results found."
    else (Table.mk ["Field", "Type", "Searchable"] rows).text
  shownAs format s.json (header s.entityName ++ table ++ "\n")

def runRemoteSchema (client : Client) (format : OutputFormat) (entity : String)
    (token : Option String) : Except Failure Printed :=
  match token with
  | none => .error .tokenMissing
  | some token =>
      (client.get SchemaSummary.decode ("/api/schema/" ++ entity) (some token)).map
        (showSchema format)

def runHealth (client : Client) (format : OutputFormat) : Except Failure Printed := do
  let health ← client.getRaw "/health"
  let text? (name : String) : Option String :=
    match health.member? name with
    | some (.string s) => some s
    | _ => none
  let status := (text? "status").getD "unknown"
  let line (name member : String) : String := (text? member).elim "" (detail name)
  let details := header "Server Health" ++ detail "Status" status ++
    detail "API URL" client.base ++ line "Version" "version" ++ line "Timestamp" "timestamp"
  if format != .table then return shownAs format health ""
  else if status == "healthy" then return ⟨details ++ "[OK] Server operational\n", ""⟩
  else return ⟨details, errorLine ("Server status: " ++ status)⟩

/-! ## Command lines -/

def runCommand (w : Surroundings) (i : Invocation) : Except Failure Printed :=
  let client := Client.ofUrl w.network i.apiUrl
  match i.command with
  | .compile entity filters search => runCompile i.format entity filters search
  | .issue order => runIssue w i.format order
  | .inspect token secret => runInspect w i.format token secret
  | .query entity token filters search => runQuery client i.format entity token filters search
  | .schema entity => (resolveEntity entity).map fun b => showSchema i.format b.summary
  | .remoteSchema entity token => runRemoteSchema client i.format entity token
  | .health => runHealth client i.format

/-- Runs a command line. The code is one for a command that fails and two for a wrong command line. -/
def run (w : Surroundings) (args : List String) : Ending :=
  match Invocation.read w.env args with
  | .error .misuse => ⟨2, ⟨"", "error: invalid usage\n\nFor more information, try '--help'.\n"⟩⟩
  | .error (.help verb long) => ⟨0, ⟨verb.help w.env long, ""⟩⟩
  | .error (.version verb) => ⟨0, ⟨verb.versionText, ""⟩⟩
  | .ok i =>
      match runCommand w i with
      | .ok printed => ⟨0, printed⟩
      | .error f => ⟨1, ⟨"", errorLine f.message⟩⟩

end RecordGate.Cli
