import TransactLint.Chain
import TransactLint.Rule.Conversion
import TransactLint.Rule.Description
import TransactLint.Rule.OptionalWord
import TransactLint.Rule.TableRequirement
import TransactLint.Violation

/-!
# Rules

Every rule has an id, a message and a severity, and finds the places of a document that break it.
-/

namespace TransactLint

inductive Rule where
  | heapTable
  | rowIdentity
  | tableDescription
  | separatedConcatenation
  | nullReplacingConcatenation
  | convertingConcatenation
  | columnAlias
  | tableAlias
  | joinType
  | guardedConversion
  | predicateConversion
deriving DecidableEq

namespace Rule

/-- All rules in the order in which they run. -/
def all : List Rule :=
  [heapTable, rowIdentity, tableDescription, separatedConcatenation, nullReplacingConcatenation,
    convertingConcatenation, columnAlias, tableAlias, joinType, guardedConversion,
    predicateConversion]

def id : Rule → String
  | heapTable => "avoid-heap-table"
  | rowIdentity => "require-primary-key-or-unique-constraint"
  | tableDescription => "require-ms-description-for-table-definition-file"
  | separatedConcatenation => "prefer-concat-ws"
  | nullReplacingConcatenation => "prefer-concat-over-plus"
  | convertingConcatenation => "prefer-concat-over-plus-when-nullable-or-convert"
  | columnAlias => "require-as-for-column-alias"
  | tableAlias => "require-as-for-table-alias"
  | joinType => "require-explicit-join-type"
  | guardedConversion => "prefer-try-convert-patterns"
  | predicateConversion => "avoid-implicit-conversion-in-predicate"

def message : Rule → String
  | heapTable => "Avoid heap tables by defining a clustered index (or clustered primary key)."
  | rowIdentity =>
    "User tables must define a PRIMARY KEY or UNIQUE constraint to ensure row uniqueness."
  | tableDescription =>
    "Table definition files must include an MS_Description extended property for the table."
  | separatedConcatenation =>
    "Prefer CONCAT_WS(separator, ...) over + when concatenating values with repeated separators."
  | nullReplacingConcatenation =>
    "Prefer CONCAT() for string concatenation when using ISNULL/COALESCE; it avoids " ++
      "NULL-propagation surprises and improves readability."
  | convertingConcatenation =>
    "Use CONCAT when string building involves ISNULL/CONVERT/CAST to avoid NULL propagation or " ++
      "readability issues."
  | columnAlias => "Column aliases must use AS."
  | tableAlias => "Table aliases must use AS."
  | joinType =>
    "JOIN must be explicit: use INNER JOIN, LEFT OUTER JOIN, RIGHT OUTER JOIN, or FULL OUTER JOIN."
  | guardedConversion =>
    "Prefer TRY_CONVERT/TRY_CAST over CASE WHEN ISNUMERIC/ISDATE(...) THEN CONVERT/CAST(...) " ++
      "patterns for clarity and correctness."
  | predicateConversion =>
    "Avoid conversions on columns in WHERE/JOIN predicates (e.g., CAST(col AS ...) = ...); they " ++
      "can force scans by preventing index seeks. Prefer correctly typed parameters/literals " ++
      "instead."

def severity : Rule → Severity
  | rowIdentity => .error
  | _ => .warning

/-- The places of a document that break the rule, in the order in which they are reported. -/
def locations : Rule → Document → List Location
  | heapTable => TableRequirement.clustered.locations
  | rowIdentity => TableRequirement.identified.locations
  | tableDescription => Document.undescribedTables
  | separatedConcatenation => Document.concatenations Chain.isSeparated
  | nullReplacingConcatenation => Document.concatenations Chain.replacesNull
  | convertingConcatenation => Document.concatenations Chain.convertsOperand
  | columnAlias => Document.bareAliases Node.columnAlias?
  | tableAlias => Document.bareAliases Node.tableAlias?
  | joinType => Document.bareJoins
  | guardedConversion => Document.guardedConversions
  | predicateConversion => Document.convertedPredicates

def violationAt (rule : Rule) (place : Location) : Violation :=
  ⟨rule.id, rule.message, place, rule.severity⟩

/-- The violations of the rule in a document. -/
def violations (rule : Rule) (d : Document) : List Violation :=
  (rule.locations d).map rule.violationAt

end Rule

end TransactLint
