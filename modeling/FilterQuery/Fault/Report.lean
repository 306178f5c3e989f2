import FilterQuery.Fault
import FilterQuery.Text.Digits
import FilterQuery.Text.Pieces

/-!
What a caller is told about a fault: its code, a message that names what is at fault, the names by
themselves, and advice. A report can also be built by hand and added to.
-/

namespace FilterQuery

structure Suggestion where
  text : String
  sample : Option String
  deriving DecidableEq, Repr

structure Report where
  code : FaultCode
  message : String
  entity : Option String := none
  field : Option String := none
  operator : Option String := none
  value : Option String := none
  suggestions : List Suggestion := []
  help : Option String := none
  cause : Option String := none
  deriving DecidableEq, Repr

namespace FaultCode

def text (code : FaultCode) : String :=
  "SV" ++ Text.naturalText code.number

end FaultCode

namespace Report

def suggest (report : Report) (text : String) (sample : Option String) : Report :=
  { report with suggestions := report.suggestions ++ [⟨text, sample⟩] }

def summary (report : Report) : String :=
  "[" ++ report.code.text ++ "] " ++ report.message

def line (label : String) : Option String → String
  | some text => "\n  " ++ label ++ ": " ++ text
  | none => ""

def suggestionLines (suggestion : Suggestion) : String :=
  "\n  -> " ++ suggestion.text ++
    match suggestion.sample with
    | some sample => "\n     " ++ sample
    | none => ""

/-- The report with everything it holds but the entity and the cause. -/
def full (report : Report) : String :=
  "Error [" ++ report.code.text ++ "]: " ++ report.message ++
    line "field" report.field ++ line "operator" report.operator ++ line "value" report.value ++
    String.join (report.suggestions.map suggestionLines) ++ line "help" report.help

end Report

def ConfigurationProblem.message : ConfigurationProblem → String
  | .missingForeignKey entity relation kind side =>
      "relation '" ++ entity ++ "." ++ relation ++ "' (" ++ kind.name ++
        ") must declare its foreign key " ++ side.name
  | .unpairedKeys entity relation fields references =>
      "relation '" ++ entity ++ "." ++ relation ++ "' pairs " ++ Text.naturalText fields ++
        " fields with " ++ Text.naturalText references ++ " references"
  | .blankDefaultGroup => "default_condition_group must not be blank"
  | .unreadableSettings => ""
  | .other message => message

def InternalProblem.message : InternalProblem → String
  | .unplannedPath segments group =>
      "path '" ++ Text.joined "." segments ++ "' was not planned in group '" ++ group ++ "'"
  | .other message => message

namespace Fault

def unresolvedReport (entity member : String) (help : Option String) : Report where
  code := .fieldResolution
  message := "Entity '" ++ entity ++ "' has no field or relation '" ++ member ++ "'"
  entity := some entity
  field := some member
  suggestions := [⟨"Check the spelling or add the field to the property map", none⟩]
  help := help

def report : Fault → Report
  | .unknownOperator field operator =>
      { code := .unknownOperator
        message := "No filter with operator '" ++ operator ++ "' exists (field '" ++ field ++ "')"
        field := some field
        operator := some operator
        suggestions := [⟨"Use one of: <, <=, >, >=, =, !=, in, like, contains", none⟩] }
  | .invalidOperator operator =>
      { code := .invalidOperator
        message := "Invalid composite operator: '" ++ operator ++ "'"
        operator := some operator
        suggestions := [⟨"Composite filters combine children with 'and' or 'or'",
          some "\x7b\"op\": \"or\", \"value\": [...]\x7d"⟩] }
  | .emptyComposite operator =>
      { code := .emptyComposite
        message := "Composite '" ++ operator ++ "' filter must have at least one sub-filter"
        operator := some operator
        suggestions := [⟨"Remove the empty group or add a condition to it", none⟩] }
  | .invalidValue field operator value expected =>
      { code := .invalidValue
        message :=
          "Filter '" ++ field ++ " " ++ operator ++ " " ++ value ++ "' requires " ++ expected
        field := some field
        operator := some operator
        value := some value }
  | .malformedPath path =>
      unresolvedReport "<filter>" path
        (some "Field paths are dot-separated names without empty segments")
  | .unknownEntity entity =>
      unresolvedReport entity "<entity>" (some ("No entity named '" ++ entity ++ "' is registered"))
  | .unresolved entity member => unresolvedReport entity member none
  | .lengthMismatch keys flags =>
      { code := .lengthMismatch
        message := "order_by and is_desc must have the same length (" ++ Text.naturalText keys ++
          " vs " ++ Text.naturalText flags ++ ")"
        suggestions := [⟨"Pass a single boolean to apply one direction to every key", none⟩] }
  | .unreadableFilters detail =>
      { code := .deserializationError
        message := "Failed to deserialize filters: " ++ detail
        suggestions := [⟨"Each entry is a leaf or a composite",
          some "[\x7b\"field\": \"name\", \"op\": \"=\", \"value\": \"rope\"\x7d]"⟩] }
  | .configuration problem => { code := .invalidConfiguration, message := problem.message }
  | .database message =>
      { code := .databaseError
        message := message
        suggestions := [⟨"Check the database logs for more details", none⟩] }
  | .internal problem =>
      { code := .internal
        message := "Internal error: " ++ problem.message
        help := some "This is likely a bug in sieve - please report it" }

end Fault

end FilterQuery
