import TransactLint.Location

/-!
# Violations

A violation says which rule is broken, where, and how grave that is.
-/

namespace TransactLint

inductive Severity where
  | warning
  | error
deriving DecidableEq

def Severity.name : Severity → String
  | .warning => "warning"
  | .error => "error"

structure Violation where
  ruleId : String
  message : String
  location : Location
  severity : Severity
deriving DecidableEq

end TransactLint
