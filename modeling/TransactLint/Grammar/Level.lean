import TransactLint.Grammar.Parser
import TransactLint.Tree.Statement

/-!
# Levels of nesting

A level holds the parsers of what may stand inside a construct. The grammar of each construct takes
the level inside it, so the grammar as a whole is built by recursion on the number of levels left,
and nothing nests deeper than that number.
-/

namespace TransactLint.Grammar

structure Level where
  expression : Parser Expr
  /-- The operand of `NOT`. -/
  negated : Parser Expr
  /-- The operand of a sign. -/
  signed : Parser Expr
  query : Parser Query
  statement : Parser Statement

/-- The level at which nothing may be nested. -/
def Level.exhausted : Level :=
  ⟨.failTooDeep, .failTooDeep, .failTooDeep, .failTooDeep, .failTooDeep⟩

end TransactLint.Grammar
