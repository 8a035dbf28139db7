import RecordGate.Auth.Settings
import RecordGate.Settings.Reader
import RecordGate.Telemetry.Logging
import RecordGate.Telemetry.Metrics
import RecordGate.Text.Quoted

/-!
# Settings of the service

The settings of the service with their defaults. They come from a file, if there is one, and from
the environment, which has the last word: a variable `TESSERA__AUTH__ISSUER` writes the value of the
key `auth.issuer`, and letter case does not matter in its name.
-/

namespace RecordGate

structure ServerSettings where
  host : String := "0.0.0.0"
  port : Nat := 8080

def ServerSettings.bindAddress (s : ServerSettings) : String := s.host ++ ":" ++ toString s.port

/-- All settings. -/
structure ServiceSettings where
  server : ServerSettings := {}
  auth : AuthSettings := {}
  logging : LoggingSettings := {}
  metrics : MetricsSettings := {}

abbrev Environment := List (String × String)

namespace Environment

def value? (env : Environment) (name : String) : Option String :=
  (env.find? fun e => e.1 == name).map (·.2)

/-- The beginning of the names of the variables that write settings. -/
def marker : String := "tessera__"

/-- Two underscores in a row separate names. -/
def pointed : List Char → List Char
  | '_' :: '_' :: s => '.' :: pointed s
  | c :: s => c :: pointed s
  | [] => []

def key? (name : String) : Option String :=
  (Text.dropStart? marker.toList (Text.lowercase name).toList).map fun s => String.ofList (pointed s)

/-- The key of the one setting that is a list of texts between commas. -/
def listKey : String := "auth.public_paths"

def setting (key value : String) : Setting :=
  match Text.lowercase value with
  | "true" => .bool true
  | "false" => .bool false
  | _ =>
      match (signed? value.toList).bind Ranged.ofInt? with
      | some n => .integer n
      | none =>
          match Decimal.read? value.toList with
          | some x => .float x
          | none =>
              if key == listKey then .list ((Text.split ',' value).map .text) else .text value

/-- Writes what the variables say over older settings. -/
def appliedTo (env : Environment) (old : Setting) : Setting :=
  env.foldl (fun s e =>
    match key? e.1 with
    | some key => s.set key (setting key e.2)
    | none => s) old

end Environment

namespace ServerSettings

def fields : List (SettingField ServerSettings) :=
  [ .of "host" Setting.toText fun v s => { s with host := v },
    .of "port" (SettingReader.upTo 65535) fun v s => { s with port := v } ]

def read : SettingReader ServerSettings := SettingField.record {} fields

end ServerSettings

namespace AuthSettings

def fields : List (SettingField AuthSettings) :=
  [ .of "jwt_secret" Setting.toText fun v s => { s with secret := v },
    .of "issuer" (.option Setting.toText) fun v s => { s with issuer := v },
    .of "token_lifetime" SettingReader.span fun v s => { s with lifetime := v },
    .of "leeway_secs" Setting.toNatural fun v s => { s with leeway := v },
    .of "public_paths" (.list Setting.toText) fun v s => { s with publicPaths := v },
    .of "directory_file" (.option Setting.toText) fun v s => { s with directoryFile := v } ]

def read : SettingReader AuthSettings := SettingField.record {} fields

/-- The text for those who run the service, without the secret. -/
def debugText (s : AuthSettings) : String :=
  let shown : Option String → String
    | none => "None"
    | some v => "Some(" ++ Text.shown v ++ ")"
  "AuthConfig \x7b jwt_secret: \"[REDACTED]\", issuer: " ++ shown s.issuer ++ ", token_lifetime: " ++
    s.lifetime.text ++ ", leeway_secs: " ++ toString s.leeway ++ ", public_paths: [" ++
    Text.join ", " (s.publicPaths.map Text.shown) ++ "], directory_file: " ++
    shown s.directoryFile ++ " \x7d"

end AuthSettings

namespace RedactionRule

def fields : List (SettingField RedactionRule) :=
  [ .mandatory "name" Setting.toText fun v r => { r with name := v },
    .of "field_names" (.list Setting.toText) fun v r => { r with fieldNames := v },
    .of "value_pattern" (.option Setting.toText) fun v r => { r with valuePattern := v } ]

def read : SettingReader RedactionRule := SettingField.record { name := "" } fields

end RedactionRule

namespace RedactionSettings

def fields : List (SettingField RedactionSettings) :=
  [ .of "enabled" Setting.toBool fun v s => { s with enabled := v },
    .of "patterns" (.list RedactionRule.read) fun v s => { s with rules := v },
    .of "replacement" Setting.toText fun v s => { s with replacement := v } ]

def read : SettingReader RedactionSettings := SettingField.record {} fields

end RedactionSettings

namespace LoggingSettings

def fields : List (SettingField LoggingSettings) :=
  [ .of "level" Setting.toText fun v s => { s with level := v },
    .of "format" (.choice (LogFormat.all.map fun f => (f.settingName, f)))
      fun v s => { s with format := v },
    .of "module_levels" (.dictionary Setting.toText) fun v s => { s with moduleLevels := v },
    .of "include_location" Setting.toBool fun v s => { s with includeLocation := v },
    .of "include_target" Setting.toBool fun v s => { s with includeTarget := v },
    .of "redaction" RedactionSettings.read fun v s => { s with redaction := v } ]

/-- The settings that an environment has by itself. -/
def initial (env : Environment) : LoggingSettings :=
  { level := (env.value? "RUST_LOG").getD "info" }

def read (start : LoggingSettings) : SettingReader LoggingSettings :=
  SettingField.record start fields

end LoggingSettings

namespace MetricsSettings

def fields : List (SettingField MetricsSettings) :=
  [ .of "enabled" Setting.toBool fun v s => { s with enabled := v },
    .of "global_labels" (.dictionary Setting.toText) fun v s => { s with globalLabels := v } ]

def read : SettingReader MetricsSettings := SettingField.record {} fields

end MetricsSettings

/-- Why there are no settings. -/
inductive SettingsFailure
  | unread
  | fault (f : SettingFault)
  | secretMissing
  | lifetimeZero
deriving DecidableEq

namespace SettingsFailure

def report : SettingsFailure → ErrorReport
  | .unread => { code := .configurationError, message := "Configuration error" }
  | .fault .unfit => { code := .configurationError, message := "Configuration error" }
  | .fault .unconvertible => { code := .invalidConfiguration, message := "Configuration error" }
  | .secretMissing => { code := .invalidConfiguration, message := "auth.jwt_secret must be set" }
  | .lifetimeZero =>
      { code := .invalidConfiguration, message := "auth.token_lifetime must be greater than zero" }

end SettingsFailure

namespace ServiceSettings

def fields (logging : LoggingSettings) : List (SettingField ServiceSettings) :=
  [ .of "server" ServerSettings.read fun v s => { s with server := v },
    .of "auth" AuthSettings.read fun v s => { s with auth := v },
    .of "logging" (LoggingSettings.read logging) fun v s => { s with logging := v },
    .of "metrics" MetricsSettings.read fun v s => { s with metrics := v } ]

/-- The settings make a service that can issue credentials. -/
def validate (s : ServiceSettings) : Except SettingsFailure ServiceSettings :=
  if (Text.trim s.auth.secret).isEmpty then .error .secretMissing
  else if s.auth.lifetime.isZero then .error .lifetimeZero
  else .ok s

/-- The settings that a table and an environment give. -/
def ofTable (table : Setting) (env : Environment) : Except SettingsFailure ServiceSettings :=
  let logging := LoggingSettings.initial env
  let read := SettingField.record { logging := logging } (fields logging)
  match read (env.appliedTo table) with
  | .error f => .error (.fault f)
  | .ok s => s.validate

/-- The settings of an environment without a file. -/
def load (env : Environment) : Except SettingsFailure ServiceSettings := ofTable (.table []) env

/-- The settings of a file and an environment. The file holds a JSON object. -/
def ofFile (content : Option String) (env : Environment) :
    Except SettingsFailure ServiceSettings :=
  match content.map Json.parse with
  | some (.ok (.object members)) =>
      let table := (Setting.ofMembers [] members).foldl (fun s m => s.set m.1 m.2) (.table [])
      ofTable table env
  | _ => .error .unread

end ServiceSettings

end RecordGate
