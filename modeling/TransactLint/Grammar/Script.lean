import TransactLint.Grammar.Statement

/-!
# The grammar of scripts

A script is a sequence of batches with `GO` between them.
-/

namespace TransactLint.Grammar

open TransactLint.Parser

variable [Repetition]

/-- The level with `n` further levels below it. -/
def level : Nat → Level
  | 0 => .exhausted
  | n + 1 =>
    let inner := level n
    { expression := disjunction inner
      negated := negation inner
      signed := unary inner
      query := query inner
      statement := statement inner }

/-- `GO` on a line of its own, with a count on the same line. -/
def separator : Parser Bool := do
  if ← look Terminals.isSeparator then
    skip
    if ← look fun ts pos => ts.isKind pos .numberLiteral && ts.onSameLine pos then skip
    pure true
  else pure false

/-- The statements up to a separator, if there are any. -/
def batch (top : Level) : Parser (Option Batch) := do
  let start ← position
  let statements ← statementList top false
  let span ← spanFrom start
  pure (if statements.isEmpty then none else some ⟨statements, span⟩)

def script : Parser Script := do
  let top := level nestingLimit
  let start ← position
  let first ← batch top
  let rest ← many (optionIf separator (batch top))
  if ← atEnd then
    let span ← spanFrom start
    pure ⟨(first :: rest).filterMap id, span⟩
  else failExpected "statement"

end TransactLint.Grammar
