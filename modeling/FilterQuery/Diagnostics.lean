import FilterQuery.Environment

/-!
How much is logged, and in what form, as the environment asks. Words are compared without regard to
ASCII case; no other letter folds to one of theirs.
-/

namespace FilterQuery

inductive LogLevel where
  | trace
  | debug
  | info
  | warn
  | error
  deriving DecidableEq, Repr

inductive LogFormat where
  | json
  | pretty
  | compact
  deriving DecidableEq, Repr

structure Diagnostics where
  debugging : Bool
  level : LogLevel
  format : LogFormat
  deriving DecidableEq, Repr

namespace LogLevel

def name : LogLevel → String
  | .trace => "trace"
  | .debug => "debug"
  | .info => "info"
  | .warn => "warn"
  | .error => "error"

def ofName? (name : String) : Option LogLevel :=
  [trace, debug, info, warn, error].find? (·.name = name)

end LogLevel

namespace LogFormat

def name : LogFormat → String
  | .json => "json"
  | .pretty => "pretty"
  | .compact => "compact"

def ofName? (name : String) : Option LogFormat :=
  [json, pretty, compact].find? (·.name = name)

end LogFormat

namespace Diagnostics

def debugVariable : String := "SIEVE_DEBUG"

def levelVariable : String := "SIEVE_LOG_LEVEL"

def formatVariable : String := "SIEVE_LOG_FORMAT"

def word? (environment : Environment) (variableName : String) : Option String :=
  (environment.value? variableName).map fun value =>
    String.ofList (value.toList.map Char.toLower)

def isDebugging (environment : Environment) : Bool :=
  match word? environment debugVariable with
  | some word => word ∈ ["true", "1", "yes"]
  | none => false

-- A level that is no level counts as none given.
def ofEnvironment (environment : Environment) : Diagnostics where
  debugging := isDebugging environment
  level := ((word? environment levelVariable).bind LogLevel.ofName?).getD
    (if isDebugging environment then .debug else .warn)
  format := ((word? environment formatVariable).bind LogFormat.ofName?).getD .json

def withDebugging (environment : Environment) : Environment :=
  environment.set debugVariable "true"

def withLevel (environment : Environment) (level : String) : Environment :=
  environment.set levelVariable level

end Diagnostics

end FilterQuery
