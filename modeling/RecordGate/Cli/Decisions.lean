import RecordGate.Auth.Decision
import RecordGate.Cli.Builtin
import RecordGate.Cli.Table
import RecordGate.Text.Order

/-!
# Decisions

What an identity may do: one row for every entity that is built in or named in its access control
list, in ascending order of names, with the decisions on the four actions.
-/

namespace RecordGate.Cli

/-- The decisions on one entity. -/
structure DecisionRow where
  entity : String
  decision : Entitlement → Decision

namespace DecisionRow

def cell (row : DecisionRow) (action : Entitlement) : String :=
  let d := row.decision action
  if d.allowed then "allow" else "deny (" ++ d.reason.name ++ ")"

def cells (row : DecisionRow) : List String := row.entity :: Entitlement.all.map row.cell

def json (row : DecisionRow) : Json :=
  .object (("entity", .string row.entity) ::
    Entitlement.all.map fun action => (action.name, .string (row.cell action)))

end DecisionRow

def decisions (i : Identity) : List DecisionRow :=
  let listed := (i.acl.map fun acl => acl.entries.map (·.entityName)).getD []
  (Text.ascending (Builtin.all.map (·.name) ++ listed)).map fun name => ⟨name, i.evaluate name⟩

def decisionTable (rows : List DecisionRow) : Table :=
  ⟨["Entity", "Create", "Read", "Update", "Delete"], rows.map DecisionRow.cells⟩

end RecordGate.Cli
