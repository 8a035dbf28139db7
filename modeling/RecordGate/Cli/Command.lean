import RecordGate.Cli.Arguments

/-!
# Commands

The commands that a command line can give, with everything that they need.
-/

namespace RecordGate.Cli

/-- Where the access control list of a new credential comes from. -/
inductive AclSource
  | grants (raw : List String)
  | directory (path : String)
deriving DecidableEq

structure IssueOrder where
  secret : String
  tenant : TenantId
  user : UserId
  isSuperAdmin : Bool
  source : AclSource
  lifetime : Nat
  issuer : Option String
deriving DecidableEq

inductive Command
  | compile (entity : String) (filters : List String) (search : String)
  | issue (order : IssueOrder)
  | inspect (token secret : String)
  | query (entity token : String) (filters : List String) (search : Option String)
  | schema (entity : String)
  | remoteSchema (entity : String) (token : Option String)
  | health
deriving DecidableEq

/-- A command, the form of its output, and the server that it may speak to. -/
structure Invocation where
  format : OutputFormat
  apiUrl : String
  command : Command
deriving DecidableEq

def needed {α : Type} : Option α → Except Interruption α
  | some v => .ok v
  | none => .error .misuse

/-- The source that the arguments name. Grants and a directory exclude each other. -/
def AclSource.ofArguments (a : Arguments) : Except Interruption AclSource :=
  match a.value? .directory, a.all .grant with
  | none, raw => .ok (.grants raw)
  | some path, [] => .ok (.directory path)
  | some _, _ :: _ => .error .misuse

def IssueOrder.ofArguments (a : Arguments) (env : List (String × String)) :
    Except Interruption IssueOrder := do
  let secret ← needed (a.setting? env .secret)
  let tenant ← needed ((a.value? .tenant).bind TenantId.parse?)
  let user ← needed ((a.value? .user).bind UserId.parse?)
  let source ← AclSource.ofArguments a
  return { secret, tenant, user, isSuperAdmin := a.has .superAdmin, source
           lifetime := ← needed ((a.setting? env .lifetime).bind Switch.seconds?)
           issuer := a.value? .issuer }

def Command.ofArguments (a : Arguments) (env : List (String × String)) :
    Except Interruption Command := do
  match a.verb with
  | .root => throw .misuse
  | .token => throw .misuse
  | .compile =>
      return .compile (← needed a.places.head?) (a.all .filter) ((a.value? .search).getD "")
  | .issue => return .issue (← IssueOrder.ofArguments a env)
  | .inspect => return .inspect (← needed a.places.head?) (← needed (a.setting? env .secret))
  | .query =>
      return .query (← needed a.places.head?) (← needed (a.setting? env .token))
        (a.all .filter) (a.value? .search)
  | .schema =>
      let entity ← needed a.places.head?
      return if a.has .remote then .remoteSchema entity (a.setting? env .token)
        else .schema entity
  | .health => return .health

def Command.file? : Command → Option String
  | .issue order =>
      match order.source with
      | .directory path => some path
      | .grants _ => none
  | _ => none

/-- Reads a command line, with the variables of the environment. -/
def Invocation.read (env : List (String × String)) (args : List String) :
    Except Interruption Invocation := do
  let a ← Arguments.read args
  let command ← Command.ofArguments a env
  return { format := ← needed ((a.setting? env .output).bind OutputFormat.parse?)
           apiUrl := ← needed (a.setting? env .apiUrl)
           command }

end RecordGate.Cli
