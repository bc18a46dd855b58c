import TransactLint.Configuration
import TransactLint.StableSort

/-!
# The linter

A document is checked by all enabled rules. Violations are reported rule by rule and listed by
place; at one place the order of the reports stays.
-/

namespace TransactLint

namespace Document

/-- The violations of a document in the order in which they are reported. -/
def reports (d : Document) (c : Configuration) : List Violation :=
  c.enabledRules.flatMap fun rule => rule.violations d

/-- The violations of a document by place. -/
def violations (d : Document) (c : Configuration) : List Violation :=
  stableSort (fun a b => a.location ≤ b.location) (d.reports c)

end Document

/-- The violations of a script. -/
def lint (sql : String) (c : Configuration) : Except ParseError (List Violation) :=
  match Document.parse sql with
  | .error e => .error e
  | .ok d => .ok (d.violations c)

end TransactLint
