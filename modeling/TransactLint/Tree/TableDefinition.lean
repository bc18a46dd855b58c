import TransactLint.Tree.Query

/-!
# Table definitions

Columns, constraints and indexes, as `CREATE TABLE`, `ALTER TABLE … ADD` and table variables
declare them.
-/

namespace TransactLint

structure IndexColumn where
  name : Ident
  direction : Option SortDirection
  span : Span
deriving DecidableEq

inductive IndexType where
  | clustered | nonClustered | clusteredColumnstore | nonClusteredColumnstore
deriving DecidableEq

namespace IndexType

/-- The type that the written options give. A columnstore is nonclustered unless told otherwise. -/
def ofOptions? (clustered : Option Bool) (columnstore : Bool) : Option IndexType :=
  match columnstore, clustered with
  | true, some true => some .clusteredColumnstore
  | true, _ => some .nonClusteredColumnstore
  | false, some true => some .clustered
  | false, some false => some .nonClustered
  | false, none => none

def isClustered : IndexType → Bool
  | .clustered | .clusteredColumnstore => true
  | _ => false

end IndexType

/-- An index declared inside a table definition. -/
structure IndexDefinition where
  name : Ident
  unique : Bool
  indexType : Option IndexType
  columns : List IndexColumn
  included : List Ident
  filter : Option Expr
  span : Span

inductive ConstraintKind where
  /-- `PRIMARY KEY` or `UNIQUE`; on a column it names none. -/
  | unique (primaryKey : Bool) (clustered : Option Bool) (columns : List IndexColumn)
  | foreignKey (columns : List Ident) (target : ObjectName) (targetColumns : List Ident)
  | check (condition : Expr)
  | defaultValue (value : Expr) (column : Option Ident)

structure ConstraintDefinition where
  name : Option Ident
  kind : ConstraintKind
  span : Span

structure ColumnDefinition where
  name : Ident
  /-- Absent for a computed column. -/
  dataType : Option DataType
  computed : Option Expr
  nullable : Option Bool
  identity : Bool
  constraints : List ConstraintDefinition
  index : Option IndexDefinition
  span : Span

structure TableDefinition where
  columns : List ColumnDefinition
  constraints : List ConstraintDefinition
  indexes : List IndexDefinition
  span : Span

end TransactLint
