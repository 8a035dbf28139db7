import RecordGate.Cli.Verb

/-!
# Arguments

The arguments of a command line are taken one by one. A switch is given by its name after two
dashes or by its letter after one; its value is attached to it or is the next argument, which must
not look like a switch. After an argument of two dashes there are no switches any more. A verb leads
to its own switches, and those given before remain.
-/

namespace RecordGate.Cli

/-- Why a command line leads to no command: it is wrong, or it asks about the program. -/
inductive Interruption
  | misuse
  | help (verb : Verb) (long : Bool)
  | version (verb : Verb)
deriving DecidableEq

/-- What the arguments so far say: the verb, the values of switches in order, the arguments that are
no switches, and the switches given since the verb. -/
structure Arguments where
  verb : Verb := .root
  values : List (String × String) := []
  places : List String := []
  given : List String := []
  dashed : Bool := false
deriving DecidableEq

namespace Arguments

def all (a : Arguments) (s : Switch) : List String :=
  (a.values.filter fun v => v.1 == s.name).map (·.2)

def value? (a : Arguments) (s : Switch) : Option String := (a.all s).getLast?

def has (a : Arguments) (s : Switch) : Bool := (a.value? s).isSome

/-- The last value of a switch, or else that of the variable which stands for it, or else the one it
has when none is given. -/
def setting? (a : Arguments) (env : List (String × String)) (s : Switch) : Option String :=
  ((a.value? s).or (s.variableName.bind fun name => env.lookup name)).or s.standard

/-- A switch has a value. It must be one that the switch accepts, and be the only one of this verb
unless the switch may be repeated. -/
def take (a : Arguments) (s : Switch) (value : String) : Except Interruption Arguments :=
  if !s.accepts value || (s.arity != .repeated && a.given.contains s.name) then .error .misuse
  else .ok { a with values := a.values ++ [(s.name, value)], given := s.name :: a.given }

def place (a : Arguments) (arg : String) : Except Interruption Arguments :=
  if Nat.blt a.places.length a.verb.places.length then .ok { a with places := a.places ++ [arg] }
  else .error .misuse

def enter (a : Arguments) (v : Verb) : Arguments := { a with verb := v, given := [] }

/-- A switch with the value attached to it, if any. A switch that still waits for its value is
returned. -/
def give (a : Arguments) (s : Switch) (attached : Option String) :
    Except Interruption (Arguments × Option Switch) := do
  match s.arity, attached with
  | .flag, none => return (← a.take s "true", none)
  | .flag, some _ => throw .misuse
  | _, some value => return (← a.take s value, none)
  | _, none => return (a, some s)

/-- A switch that is given by its name, perhaps with a value behind an equals sign. -/
def long (a : Arguments) (body : List Char) :
    Except Interruption (Arguments × Option Switch) := do
  let (name, attached) :=
    match Text.splitFirst '=' body with
    | some (name, value) => (String.ofList name, some (String.ofList value))
    | none => (String.ofList body, none)
  match a.verb.switches.find? (·.name == name) with
  | some s => a.give s attached
  | none =>
      if attached.isSome then throw .misuse
      else if name == "help" then throw (.help a.verb true)
      else if name == "version" then throw (.version a.verb)
      else throw .misuse

/-- A switch that is given by its letter; the rest of the argument is its value. -/
def short (a : Arguments) (letter : Char) (rest : List Char) :
    Except Interruption (Arguments × Option Switch) := do
  let attached :=
    match rest with
    | [] => none
    | '=' :: value => some (String.ofList value)
    | value => some (String.ofList value)
  match a.verb.switches.find? (·.letter == some letter) with
  | some s => a.give s attached
  | none =>
      if letter == 'h' then throw (.help a.verb false)
      else if letter == 'V' then throw (.version a.verb)
      else throw .misuse

/-- Takes an argument that is no value of a switch. -/
def next (a : Arguments) (arg : String) : Except Interruption (Arguments × Option Switch) :=
  let placed := (a.place arg).map fun a => (a, none)
  if a.dashed then placed
  else
    match a.verb.below.lookup arg with
    | some v => .ok (a.enter v, none)
    | none =>
        match arg.toList with
        | ['-', '-'] => .ok ({ a with dashed := true }, none)
        | '-' :: '-' :: body => a.long body
        | '-' :: letter :: rest => a.short letter rest
        | _ => placed

/-- Says whether an argument cannot be the value of a switch. -/
def looksLikeSwitch (arg : String) : Bool :=
  match arg.toList with
  | '-' :: _ :: _ => true
  | _ => false

/-- The help on the verb that names lead to. -/
def helpOn : Verb → List String → Interruption
  | v, [] => .help v true
  | v, name :: rest =>
      match v.below.lookup name with
      | some w => helpOn w rest
      | none => .misuse

/-- Says whether an argument asks for help on the verbs below. -/
def asksHelp (a : Arguments) (arg : String) : Bool :=
  arg == "help" && !a.dashed && !a.verb.below.isEmpty

/-- Takes the arguments; a switch may wait for its value. -/
def scan (a : Arguments) : Option Switch → List String → Except Interruption Arguments
  | none, [] => .ok a
  | some _, [] => .error .misuse
  | some s, arg :: rest =>
      if looksLikeSwitch arg then .error .misuse
      else
        match a.take s arg with
        | .ok a => a.scan none rest
        | .error i => .error i
  | none, arg :: rest =>
      if a.asksHelp arg then .error (helpOn a.verb rest)
      else
        match a.next arg with
        | .ok (a, waiting) => a.scan waiting rest
        | .error i => .error i

def read (args : List String) : Except Interruption Arguments := ({} : Arguments).scan none args

end Arguments

end RecordGate.Cli
