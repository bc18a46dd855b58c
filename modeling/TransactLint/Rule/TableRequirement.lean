import TransactLint.Node.Walk
import TransactLint.TableLedger

/-!
# Requirements on tables

Every table that a script creates must have some index or constraint, in its definition or from a
later statement. Which ones count is the requirement.
-/

namespace TransactLint

/-- Which parts of a table, and which `CREATE INDEX` statements, meet a requirement. -/
structure TableRequirement where
  index : IndexDefinition → Bool
  constraint : ConstraintDefinition → Bool
  createIndex : CreateIndex → Bool

namespace TableRequirement

def column (r : TableRequirement) (c : ColumnDefinition) : Bool :=
  c.index.any r.index || c.constraints.any r.constraint

/-- Whether a table definition has a part that meets the requirement, at the table or a column. -/
def definition (r : TableRequirement) (t : TableDefinition) : Bool :=
  t.indexes.any r.index || t.constraints.any r.constraint || t.columns.any r.column

/-- The table that a statement makes meet the requirement. -/
def satisfied? (r : TableRequirement) : StatementKind → Option TableKey
  | .createTable name t => if r.definition t then TableKey.ofName? name else none
  | .alterTable name (.add t) => if r.definition t then TableKey.ofName? name else none
  | .createIndex i => if r.createIndex i then TableKey.ofName? i.table else none
  | _ => none

end TableRequirement

/-- The table that a statement creates, with the place to report it. -/
def StatementKind.created? : StatementKind → Option (TableKey × Location)
  | .createTable name _ => (TableKey.ofName? name).map fun key => (key, name.location)
  | _ => none

namespace TableLedger

/-- Notes what a node says about tables, where `satisfied?` tells which table a statement
satisfies. -/
def record (satisfied? : StatementKind → Option TableKey) (ledger : TableLedger) :
    Node → TableLedger
  | .statement ⟨kind, _⟩ =>
    let ledger :=
      match satisfied? kind with
      | some key => ledger.satisfy key
      | none => ledger
    match kind.created? with
    | some (key, place) => ledger.define key place
    | none => ledger
  | _ => ledger

/-- The ledger of a document. -/
def ofDocument (satisfied? : StatementKind → Option TableKey) (d : Document) : TableLedger :=
  d.nodes.foldl (record satisfied?) empty

end TableLedger

namespace TableRequirement

/-- The places of the tables that never meet a requirement. -/
def locations (r : TableRequirement) (d : Document) : List Location :=
  (TableLedger.ofDocument r.satisfied? d).unsatisfied

/-! ## The requirements -/

/-- A clustered index. A primary key is clustered unless it says otherwise. -/
def clustered : TableRequirement where
  index i := i.indexType.any IndexType.isClustered
  constraint c :=
    match c.kind with
    | .unique primaryKey clustered _ => clustered.getD primaryKey
    | _ => false
  createIndex i := i.indexType.any IndexType.isClustered

/-- A primary key, a unique constraint or a unique index. -/
def identified : TableRequirement where
  index i := i.unique
  constraint c :=
    match c.kind with
    | .unique _ _ _ => true
    | _ => false
  createIndex i := i.unique

end TableRequirement

end TransactLint
