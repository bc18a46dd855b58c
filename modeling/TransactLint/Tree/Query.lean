import TransactLint.Tree.Name
import TransactLint.Tree.Operator

/-!
# Expressions and queries

Expressions hold queries and queries hold expressions. Operator chains lean to the left, so
`a + b + c` is `(a + b) + c`, and joins nest the same way.
-/

namespace TransactLint

mutual

structure Expr where
  kind : ExprKind
  span : Span

inductive ExprKind where
  | column (parts : List Ident)
  | localVariable (name : Ident)
  | literal (kind : LiteralKind) (value : String)
  /-- The star of `COUNT(*)`. -/
  | wildcard
  | binary (op : BinaryOperator) (left right : Expr)
  | unary (op : UnaryOperator) (operand : Expr)
  | nested (inner : Expr)
  | call (name : ObjectName) (distinct : Bool) (arguments : List Expr)
      (withinGroup : List OrderItem) (window : Option Window)
  | conversion (function : ConversionFunction) (dataType : DataType) (operand : Expr)
      (style : Option Expr)
  /-- `CASE`: simple if there is an operand, searched otherwise. -/
  | choice (operand : Option Expr) (branches : List WhenClause) (otherwise : Option Expr)
  | subquery (query : Query)
  | existence (query : Query)
  | inList (operand : Expr) (list : List Expr) (negated : Bool)
  | inSubquery (operand : Expr) (query : Query) (negated : Bool)
  | between (operand low high : Expr) (negated : Bool)
  | like (operand pattern : Expr) (escape : Option Expr) (negated : Bool)
  | isNull (operand : Expr) (negated : Bool)

structure WhenClause where
  condition : Expr
  result : Expr
  span : Span

structure Window where
  partition : List Expr
  order : List OrderItem
  span : Span

structure OrderItem where
  expr : Expr
  direction : Option SortDirection
  span : Span

structure Query where
  commonTables : List CommonTable
  body : QueryExpr
  orderBy : List OrderItem
  offset : Option Expr
  fetch : Option Expr
  span : Span

structure CommonTable where
  name : Ident
  columns : List Ident
  query : Query
  span : Span

structure QueryExpr where
  kind : QueryExprKind
  span : Span

inductive QueryExprKind where
  | specification (spec : QuerySpecification)
  | parenthesized (query : Query)
  | setOperation (op : SetOperator) (all : Bool) (left right : QueryExpr)

/-- One `SELECT … FROM … WHERE …`. -/
structure QuerySpecification where
  distinct : Bool
  top : Option TopClause
  selectList : List SelectElement
  target : Option ObjectName
  sources : List TableSource
  filter : Option WhereClause
  groupBy : List Expr
  having : Option Expr
  span : Span

structure TopClause where
  expr : Expr
  percent : Bool
  withTies : Bool
  span : Span

structure SelectElement where
  kind : SelectElementKind
  span : Span

inductive SelectElementKind where
  | wildcard (qualifier : Option ObjectName)
  /-- An expression with its alias, which may stand on either side of it. -/
  | expression (expr : Expr) (aliasName : Option Ident)
  | assignment (name : Ident) (value : Expr)

structure WhereClause where
  condition : Expr
  span : Span

structure TableSource where
  kind : TableSourceKind
  span : Span

inductive TableSourceKind where
  | named (name : ObjectName) (aliasName : Option Ident) (hints : List Ident)
  | derived (query : Query) (aliasName : Option Ident) (columns : List Ident)
  | function (name : ObjectName) (arguments : List Expr) (aliasName : Option Ident)
  | parenthesized (inner : TableSource)
  | qualifiedJoin (join : QualifiedJoin) (first second : TableSource) (condition : Expr)
  | unqualifiedJoin (join : UnqualifiedJoin) (first second : TableSource)

end

end TransactLint
