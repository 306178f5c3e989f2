import FilterQuery.Assembly
import FilterQuery.Binary64
import FilterQuery.Binary64.Arithmetic
import FilterQuery.Binary64.Shortest
import FilterQuery.Binary64.Written
import FilterQuery.Calendar
import FilterQuery.Calendar.Reader
import FilterQuery.Condition
import FilterQuery.Diagnostics
import FilterQuery.Dictionary
import FilterQuery.Environment
import FilterQuery.Fault
import FilterQuery.Fault.Report
import FilterQuery.FieldPath
import FilterQuery.Filter
import FilterQuery.Join
import FilterQuery.JoinPlan
import FilterQuery.Json
import FilterQuery.Json.Lexeme
import FilterQuery.Json.Number
import FilterQuery.Json.Printer
import FilterQuery.Json.Reader
import FilterQuery.Json.Record
import FilterQuery.Json.Written
import FilterQuery.Operator
import FilterQuery.Proofs.Assembled
import FilterQuery.Proofs.Assignment
import FilterQuery.Proofs.BoundJson
import FilterQuery.Proofs.ByteOrder
import FilterQuery.Proofs.ChangedLeaves
import FilterQuery.Proofs.Coercion
import FilterQuery.Proofs.Compilation
import FilterQuery.Proofs.ComputedNumbers
import FilterQuery.Proofs.ConditionGroups
import FilterQuery.Proofs.Database
import FilterQuery.Proofs.DayCount
import FilterQuery.Proofs.DialectNames
import FilterQuery.Proofs.Disjunction
import FilterQuery.Proofs.DottedPaths
import FilterQuery.Proofs.Doubling
import FilterQuery.Proofs.Duplicates
import FilterQuery.Proofs.EntitySteps
import FilterQuery.Proofs.EntryRoundTrip
import FilterQuery.Proofs.Faithfulness
import FilterQuery.Proofs.Faults
import FilterQuery.Proofs.FirstFault
import FilterQuery.Proofs.FloatText
import FilterQuery.Proofs.Formula
import FilterQuery.Proofs.Hop
import FilterQuery.Proofs.IdentifierReading
import FilterQuery.Proofs.IntegerLiterals
import FilterQuery.Proofs.IntegerRange
import FilterQuery.Proofs.IsoForms
import FilterQuery.Proofs.IsoReading
import FilterQuery.Proofs.JoinScopes
import FilterQuery.Proofs.JoinedOrSearched
import FilterQuery.Proofs.JoinedPaths
import FilterQuery.Proofs.KeyColumns
import FilterQuery.Proofs.ListedValues
import FilterQuery.Proofs.Meaning
import FilterQuery.Proofs.NameClashes
import FilterQuery.Proofs.Numbering
import FilterQuery.Proofs.Numerals
import FilterQuery.Proofs.OrderClauses
import FilterQuery.Proofs.PaddedNumbers
import FilterQuery.Proofs.Placeholders
import FilterQuery.Proofs.PlanHistory
import FilterQuery.Proofs.PlannedLeaves
import FilterQuery.Proofs.PlanningOrder
import FilterQuery.Proofs.Precedence
import FilterQuery.Proofs.PrintedJson
import FilterQuery.Proofs.PrintedTexts
import FilterQuery.Proofs.ReadFilters
import FilterQuery.Proofs.References
import FilterQuery.Proofs.Registry
import FilterQuery.Proofs.Regrouping
import FilterQuery.Proofs.Renaming
import FilterQuery.Proofs.Rounding
import FilterQuery.Proofs.Scoping
import FilterQuery.Proofs.SettledJson
import FilterQuery.Proofs.ShortestDigits
import FilterQuery.Proofs.SortRequests
import FilterQuery.Proofs.SqlReading
import FilterQuery.Proofs.SqlTokens
import FilterQuery.Proofs.StatementTokens
import FilterQuery.Proofs.StoppedPlans
import FilterQuery.Proofs.TableName
import FilterQuery.Proofs.TemporalOrder
import FilterQuery.Proofs.TemporalRoundTrip
import FilterQuery.Proofs.ValueFreedom
import FilterQuery.Proofs.ValuePlaces
import FilterQuery.Proofs.Verdicts
import FilterQuery.QueryPlan
import FilterQuery.RawFilter
import FilterQuery.RelationKind
import FilterQuery.Schema
import FilterQuery.Settings
import FilterQuery.Settings.Reader
import FilterQuery.SortOrder
import FilterQuery.Sorting
import FilterQuery.Sql
import FilterQuery.Sql.Identifier
import FilterQuery.Sql.Part
import FilterQuery.Sqlite
import FilterQuery.Text.Blank
import FilterQuery.Text.CodePoints
import FilterQuery.Text.Digits
import FilterQuery.Text.Extending
import FilterQuery.Text.Pieces
import FilterQuery.Text.Quoted
import FilterQuery.Text.Unprintable
import FilterQuery.Text.Utf8
import FilterQuery.Toml
import FilterQuery.Toml.Draft
import FilterQuery.Toml.Reader
import FilterQuery.Toml.Text
import FilterQuery.Toml.Word
import FilterQuery.Value
