import TransactLint.Tree.TableDefinition

/-!
# Statements, batches and scripts
-/

namespace TransactLint

structure Argument where
  /-- Absent for an argument by position. -/
  name : Option Ident
  value : Expr
  output : Bool
  span : Span

inductive ExecutionTarget where
  | procedure (name : ObjectName) (arguments : List Argument)
  | dynamic (text : Expr)

/-- `EXECUTE`, on its own or as the source of an `INSERT`. -/
structure Execution where
  returnVariable : Option Ident
  target : ExecutionTarget

inductive InsertSource where
  | values (rows : List (List Expr))
  | query (query : Query)
  | execution (execution : Execution)
  | defaultValues

structure Insertion where
  top : Option TopClause
  target : ObjectName
  columns : List Ident
  source : InsertSource

structure Assignment where
  target : Expr
  value : Expr
  span : Span

structure Update where
  top : Option TopClause
  target : TableSource
  assignments : List Assignment
  sources : List TableSource
  filter : Option WhereClause

structure Deletion where
  top : Option TopClause
  target : TableSource
  sources : List TableSource
  filter : Option WhereClause

inductive AlterAction where
  | add (definition : TableDefinition)
  /-- Any other change; only its tokens are known. -/
  | unknown

structure CreateIndex where
  name : Ident
  table : ObjectName
  unique : Bool
  clustered : Option Bool
  columnstore : Bool
  columns : List IndexColumn
  included : List Ident
  filter : Option Expr

def CreateIndex.indexType (index : CreateIndex) : Option IndexType :=
  IndexType.ofOptions? index.clustered index.columnstore

inductive CreateMode where
  | create | createOrAlter | alter
deriving DecidableEq

structure CreateView where
  mode : CreateMode
  name : ObjectName
  columns : List Ident
  query : Query

structure Parameter where
  name : Ident
  dataType : DataType
  initial : Option Expr
  output : Bool
  readOnly : Bool
  span : Span

structure Removal where
  /-- The sort of object, in upper case. -/
  objectType : String
  ifExists : Bool
  names : List ObjectName
  table : Option ObjectName

inductive DeclarationKind where
  | scalar (dataType : DataType) (value : Option Expr)
  | table (definition : TableDefinition)

structure Declaration where
  name : Ident
  kind : DeclarationKind
  span : Span

inductive TransactionKind where
  | begin | commit | rollback
deriving DecidableEq

mutual

structure Statement where
  kind : StatementKind
  span : Span

inductive StatementKind where
  | select (query : Query)
  | insertion (insertion : Insertion)
  | update (update : Update)
  | deletion (deletion : Deletion)
  | createTable (name : ObjectName) (definition : TableDefinition)
  | alterTable (name : ObjectName) (action : AlterAction)
  | createIndex (index : CreateIndex)
  | createView (view : CreateView)
  | createProcedure (mode : CreateMode) (name : ObjectName) (parameters : List Parameter)
      (body : List Statement)
  | removal (removal : Removal)
  | truncation (table : ObjectName)
  | execution (execution : Execution)
  | declaration (declarations : List Declaration)
  | setVariable (name : Ident) (op : Option BinaryOperator) (value : Expr)
  | setOption (options : List Ident) (value : Option Ident)
  | conditional (condition : Expr) (consequent : Statement) (alternative : Option Statement)
  | loop (condition : Expr) (body : Statement)
  | block (statements : List Statement)
  | tryCatch (attempt : List Statement) (handler : List Statement)
  | transaction (kind : TransactionKind) (name : Option Ident)
  | returning (value : Option Expr)
  | print (value : Expr)
  | breakLoop
  | continueLoop
  /-- A statement that is known by its first word only. -/
  | unmodelled (word : String)

end

/-- The statements between two separators. -/
structure Batch where
  statements : List Statement
  span : Span

structure Script where
  batches : List Batch
  span : Span

end TransactLint
