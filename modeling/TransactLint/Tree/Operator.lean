/-!
# Operators and other closed choices of the grammar
-/

namespace TransactLint

inductive BinaryOperator where
  | add | subtract | multiply | divide | modulo
  | bitAnd | bitOr | bitXor
  | eq | notEq | lt | gt | ltEq | gtEq | notLt | notGt
  | and | or
deriving DecidableEq

def BinaryOperator.isComparison : BinaryOperator → Bool
  | .eq | .notEq | .lt | .gt | .ltEq | .gtEq | .notLt | .notGt => true
  | _ => false

inductive UnaryOperator where
  | not | minus | plus | bitNot
deriving DecidableEq

inductive LiteralKind where
  | string | nationalString | integer | numeric | binary | null | defaultValue
deriving DecidableEq

def LiteralKind.isString : LiteralKind → Bool
  | .string | .nationalString => true
  | _ => false

inductive ConversionFunction where
  | cast | tryCast | convert | tryConvert
deriving DecidableEq

/-- The forms that give NULL where the others fail. -/
def ConversionFunction.isTry : ConversionFunction → Bool
  | .tryCast | .tryConvert => true
  | _ => false

inductive SetOperator where
  | union | except | intersect
deriving DecidableEq

inductive SortDirection where
  | ascending | descending
deriving DecidableEq

inductive QualifiedJoin where
  | inner | leftOuter | rightOuter | fullOuter
deriving DecidableEq

inductive UnqualifiedJoin where
  | crossJoin | crossApply | outerApply
deriving DecidableEq

end TransactLint
