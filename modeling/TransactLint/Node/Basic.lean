import TransactLint.StableSort
import TransactLint.Tree.Statement

/-!
# Nodes

One view of all parts of a tree that have a span: a node knows its span, its kind and its children
in document order.
-/

namespace TransactLint

inductive Node where
  | script (script : Script)
  | batch (batch : Batch)
  | statement (statement : Statement)
  | query (query : Query)
  | commonTable (table : CommonTable)
  | queryExpr (query : QueryExpr)
  | specification (spec : QuerySpecification)
  | topClause (top : TopClause)
  | selectElement (element : SelectElement)
  | whereClause (clause : WhereClause)
  | orderItem (item : OrderItem)
  | tableSource (source : TableSource)
  | expr (expr : Expr)
  | whenClause (clause : WhenClause)
  | window (window : Window)
  | tableDefinition (definition : TableDefinition)
  | column (column : ColumnDefinition)
  | constraint (constraint : ConstraintDefinition)
  | index (index : IndexDefinition)
  | indexColumn (column : IndexColumn)
  | argument (argument : Argument)
  | declaration (declaration : Declaration)
  | parameter (parameter : Parameter)
  | assignment (assignment : Assignment)
  | objectName (name : ObjectName)
  | ident (ident : Ident)
  | dataType (type : DataType)

inductive NodeKind where
  | script | batch
  | select | insertion | update | deletion
  | createTable | alterTable | createIndex | createView | createProcedure | removal | truncation
  | execution | declarations | setVariable | setOption
  | conditional | loop | block | tryCatch | transaction | returning | print
  | breakLoop | continueLoop | unmodelled
  | query | commonTable | specification | parenthesizedQuery | setOperation
  | topClause | selectElement | whereClause | orderItem
  | namedSource | derivedTable | tableFunction | parenthesizedSource
  | qualifiedJoin | unqualifiedJoin
  | column | localVariable | literal | wildcard | binary | unary | nested
  | call | conversion | choice | subquery | existence
  | inPredicate | between | like | isNull
  | whenClause | window
  | tableDefinition | columnDefinition | constraint | index | indexColumn
  | argument | declaration | parameter | assignment
  | objectName | ident | dataType
deriving DecidableEq

def StatementKind.nodeKind : StatementKind → NodeKind
  | .select _ => .select
  | .insertion _ => .insertion
  | .update _ => .update
  | .deletion _ => .deletion
  | .createTable _ _ => .createTable
  | .alterTable _ _ => .alterTable
  | .createIndex _ => .createIndex
  | .createView _ => .createView
  | .createProcedure _ _ _ _ => .createProcedure
  | .removal _ => .removal
  | .truncation _ => .truncation
  | .execution _ => .execution
  | .declaration _ => .declarations
  | .setVariable _ _ _ => .setVariable
  | .setOption _ _ => .setOption
  | .conditional _ _ _ => .conditional
  | .loop _ _ => .loop
  | .block _ => .block
  | .tryCatch _ _ => .tryCatch
  | .transaction _ _ => .transaction
  | .returning _ => .returning
  | .print _ => .print
  | .breakLoop => .breakLoop
  | .continueLoop => .continueLoop
  | .unmodelled _ => .unmodelled

def QueryExprKind.nodeKind : QueryExprKind → NodeKind
  | .specification _ => .specification
  | .parenthesized _ => .parenthesizedQuery
  | .setOperation _ _ _ _ => .setOperation

def TableSourceKind.nodeKind : TableSourceKind → NodeKind
  | .named _ _ _ => .namedSource
  | .derived _ _ _ => .derivedTable
  | .function _ _ _ => .tableFunction
  | .parenthesized _ => .parenthesizedSource
  | .qualifiedJoin _ _ _ _ => .qualifiedJoin
  | .unqualifiedJoin _ _ _ => .unqualifiedJoin

def ExprKind.nodeKind : ExprKind → NodeKind
  | .column _ => .column
  | .localVariable _ => .localVariable
  | .literal _ _ => .literal
  | .wildcard => .wildcard
  | .binary _ _ _ => .binary
  | .unary _ _ => .unary
  | .nested _ => .nested
  | .call _ _ _ _ _ => .call
  | .conversion _ _ _ _ => .conversion
  | .choice _ _ _ => .choice
  | .subquery _ => .subquery
  | .existence _ => .existence
  | .inList _ _ _ | .inSubquery _ _ _ => .inPredicate
  | .between _ _ _ _ => .between
  | .like _ _ _ _ => .like
  | .isNull _ _ => .isNull

namespace Node

def span : Node → Span
  | .script x => x.span
  | .batch x => x.span
  | .statement x => x.span
  | .query x => x.span
  | .commonTable x => x.span
  | .queryExpr x => x.span
  | .specification x => x.span
  | .topClause x => x.span
  | .selectElement x => x.span
  | .whereClause x => x.span
  | .orderItem x => x.span
  | .tableSource x => x.span
  | .expr x => x.span
  | .whenClause x => x.span
  | .window x => x.span
  | .tableDefinition x => x.span
  | .column x => x.span
  | .constraint x => x.span
  | .index x => x.span
  | .indexColumn x => x.span
  | .argument x => x.span
  | .declaration x => x.span
  | .parameter x => x.span
  | .assignment x => x.span
  | .objectName x => x.span
  | .ident x => x.span
  | .dataType x => x.span

def kind : Node → NodeKind
  | .script _ => .script
  | .batch _ => .batch
  | .statement x => x.kind.nodeKind
  | .query _ => .query
  | .commonTable _ => .commonTable
  | .queryExpr x => x.kind.nodeKind
  | .specification _ => .specification
  | .topClause _ => .topClause
  | .selectElement _ => .selectElement
  | .whereClause _ => .whereClause
  | .orderItem _ => .orderItem
  | .tableSource x => x.kind.nodeKind
  | .expr x => x.kind.nodeKind
  | .whenClause _ => .whenClause
  | .window _ => .window
  | .tableDefinition _ => .tableDefinition
  | .column _ => .columnDefinition
  | .constraint _ => .constraint
  | .index _ => .index
  | .indexColumn _ => .indexColumn
  | .argument _ => .argument
  | .declaration _ => .declaration
  | .parameter _ => .parameter
  | .assignment _ => .assignment
  | .objectName _ => .objectName
  | .ident _ => .ident
  | .dataType _ => .dataType

end Node

/-! ## Parts

The nodes directly below a node, in the order of its fields. -/

def Execution.parts (x : Execution) : List Node :=
  x.returnVariable.toList.map .ident ++
    match x.target with
    | .procedure name arguments => .objectName name :: arguments.map .argument
    | .dynamic text => [.expr text]

def InsertSource.parts : InsertSource → List Node
  | .values rows => rows.flatten.map .expr
  | .query q => [.query q]
  | .execution x => x.parts
  | .defaultValues => []

def StatementKind.parts : StatementKind → List Node
  | .select query => [.query query]
  | .insertion x =>
    x.top.toList.map .topClause ++ .objectName x.target :: x.columns.map .ident ++ x.source.parts
  | .update x =>
    x.top.toList.map .topClause ++ .tableSource x.target :: x.assignments.map .assignment ++
      x.sources.map .tableSource ++ x.filter.toList.map .whereClause
  | .deletion x =>
    x.top.toList.map .topClause ++ .tableSource x.target :: x.sources.map .tableSource ++
      x.filter.toList.map .whereClause
  | .createTable name definition => [.objectName name, .tableDefinition definition]
  | .alterTable name (.add definition) => [.objectName name, .tableDefinition definition]
  | .alterTable name .unknown => [.objectName name]
  | .createIndex x =>
    .ident x.name :: .objectName x.table :: x.columns.map .indexColumn ++ x.included.map .ident ++
      x.filter.toList.map .expr
  | .createView x => .objectName x.name :: x.columns.map .ident ++ [.query x.query]
  | .createProcedure _ name parameters body =>
    .objectName name :: parameters.map .parameter ++ body.map .statement
  | .removal x => x.names.map .objectName ++ x.table.toList.map .objectName
  | .truncation table => [.objectName table]
  | .execution x => x.parts
  | .declaration xs => xs.map .declaration
  | .setVariable name _ value => [.ident name, .expr value]
  | .setOption options value => options.map .ident ++ value.toList.map .ident
  | .conditional condition consequent alternative =>
    .expr condition :: .statement consequent :: alternative.toList.map .statement
  | .loop condition body => [.expr condition, .statement body]
  | .block statements => statements.map .statement
  | .tryCatch attempt handler => attempt.map .statement ++ handler.map .statement
  | .transaction _ name => name.toList.map .ident
  | .returning value => value.toList.map .expr
  | .print value => [.expr value]
  | .breakLoop | .continueLoop | .unmodelled _ => []

def QueryExprKind.parts : QueryExprKind → List Node
  | .specification spec => [.specification spec]
  | .parenthesized query => [.query query]
  | .setOperation _ _ left right => [.queryExpr left, .queryExpr right]

def SelectElementKind.parts : SelectElementKind → List Node
  | .wildcard qualifier => qualifier.toList.map .objectName
  | .expression expr aliasName => .expr expr :: aliasName.toList.map .ident
  | .assignment name value => [.ident name, .expr value]

def TableSourceKind.parts : TableSourceKind → List Node
  | .named name aliasName hints =>
    .objectName name :: aliasName.toList.map .ident ++ hints.map .ident
  | .derived query aliasName columns =>
    .query query :: aliasName.toList.map .ident ++ columns.map .ident
  | .function name arguments aliasName =>
    .objectName name :: arguments.map .expr ++ aliasName.toList.map .ident
  | .parenthesized inner => [.tableSource inner]
  | .qualifiedJoin _ first second condition =>
    [.tableSource first, .tableSource second, .expr condition]
  | .unqualifiedJoin _ first second => [.tableSource first, .tableSource second]

def ExprKind.parts : ExprKind → List Node
  | .column names => names.map .ident
  | .localVariable _ | .literal _ _ | .wildcard => []
  | .binary _ left right => [.expr left, .expr right]
  | .unary _ operand => [.expr operand]
  | .nested inner => [.expr inner]
  | .call name _ arguments withinGroup window =>
    .objectName name :: arguments.map .expr ++ withinGroup.map .orderItem ++
      window.toList.map .window
  | .conversion _ dataType operand style =>
    .dataType dataType :: .expr operand :: style.toList.map .expr
  | .choice operand branches otherwise =>
    operand.toList.map .expr ++ branches.map .whenClause ++ otherwise.toList.map .expr
  | .subquery query | .existence query => [.query query]
  | .inList operand list _ => .expr operand :: list.map .expr
  | .inSubquery operand query _ => [.expr operand, .query query]
  | .between operand low high _ => [.expr operand, .expr low, .expr high]
  | .like operand pattern escape _ =>
    .expr operand :: .expr pattern :: escape.toList.map .expr
  | .isNull operand _ => [.expr operand]

def ConstraintKind.parts : ConstraintKind → List Node
  | .unique _ _ columns => columns.map .indexColumn
  | .foreignKey columns target targetColumns =>
    columns.map .ident ++ .objectName target :: targetColumns.map .ident
  | .check condition => [.expr condition]
  | .defaultValue value column => .expr value :: column.toList.map .ident

def DeclarationKind.parts : DeclarationKind → List Node
  | .scalar dataType value => .dataType dataType :: value.toList.map .expr
  | .table definition => [.tableDefinition definition]

namespace Node

def parts : Node → List Node
  | .script x => x.batches.map .batch
  | .batch x => x.statements.map .statement
  | .statement x => x.kind.parts
  | .query x =>
    x.commonTables.map .commonTable ++ .queryExpr x.body :: x.orderBy.map .orderItem ++
      x.offset.toList.map .expr ++ x.fetch.toList.map .expr
  | .commonTable x => .ident x.name :: x.columns.map .ident ++ [.query x.query]
  | .queryExpr x => x.kind.parts
  | .specification x =>
    x.top.toList.map .topClause ++ x.selectList.map .selectElement ++
      x.target.toList.map .objectName ++ x.sources.map .tableSource ++
      x.filter.toList.map .whereClause ++ x.groupBy.map .expr ++ x.having.toList.map .expr
  | .topClause x => [.expr x.expr]
  | .selectElement x => x.kind.parts
  | .whereClause x => [.expr x.condition]
  | .orderItem x => [.expr x.expr]
  | .tableSource x => x.kind.parts
  | .expr x => x.kind.parts
  | .whenClause x => [.expr x.condition, .expr x.result]
  | .window x => x.partition.map .expr ++ x.order.map .orderItem
  | .tableDefinition x =>
    x.columns.map .column ++ x.constraints.map .constraint ++ x.indexes.map .index
  | .column x =>
    .ident x.name :: x.dataType.toList.map .dataType ++ x.computed.toList.map .expr ++
      x.constraints.map .constraint ++ x.index.toList.map .index
  | .constraint x => x.name.toList.map .ident ++ x.kind.parts
  | .index x =>
    .ident x.name :: x.columns.map .indexColumn ++ x.included.map .ident ++
      x.filter.toList.map .expr
  | .indexColumn x => [.ident x.name]
  | .argument x => x.name.toList.map .ident ++ [.expr x.value]
  | .declaration x => .ident x.name :: x.kind.parts
  | .parameter x => .ident x.name :: .dataType x.dataType :: x.initial.toList.map .expr
  | .assignment x => [.expr x.target, .expr x.value]
  | .objectName x => x.parts.map .ident
  | .ident _ => []
  | .dataType x => [.objectName x.name]

/-- The nodes directly below a node, in document order. -/
def children (n : Node) : List Node :=
  stableSort (fun a b => a.span.offset ≤ b.span.offset) n.parts

end Node

end TransactLint
