import TransactLint.Node.Basic

/-!
# Trees with other spans

`mapSpans F` puts `F s` in place of every span `s` of a tree and leaves all else as it is.
-/

namespace TransactLint

class HasSpans (α : Type) where
  mapSpans : (Span → Span) → α → α

export HasSpans (mapSpans)

/-! ## Values without spans, and values made of others -/

instance : HasSpans Span := ⟨fun F s => F s⟩
instance : HasSpans Unit := ⟨fun _ u => u⟩
instance : HasSpans Bool := ⟨fun _ b => b⟩
instance : HasSpans Nat := ⟨fun _ n => n⟩
instance : HasSpans String := ⟨fun _ s => s⟩
instance : HasSpans BinaryOperator := ⟨fun _ op => op⟩
instance : HasSpans SetOperator := ⟨fun _ op => op⟩
instance : HasSpans SortDirection := ⟨fun _ direction => direction⟩
instance : HasSpans QualifiedJoin := ⟨fun _ join => join⟩
instance : HasSpans UnqualifiedJoin := ⟨fun _ join => join⟩

section
variable {α β : Type} [HasSpans α] [HasSpans β]

instance : HasSpans (Option α) := ⟨fun F a? => a?.map (mapSpans F)⟩
instance : HasSpans (List α) := ⟨fun F as => as.map (mapSpans F)⟩
instance : HasSpans (α × β) := ⟨fun F x => (mapSpans F x.1, mapSpans F x.2)⟩

theorem mapSpans_list (F : Span → Span) (as : List α) : mapSpans F as = as.map (mapSpans F) := rfl

theorem isEmpty_mapSpans (F : Span → Span) (as : List α) : (mapSpans F as).isEmpty = as.isEmpty :=
  List.isEmpty_map

theorem isSome_mapSpans (F : Span → Span) (a? : Option α) : (mapSpans F a?).isSome = a?.isSome :=
  Option.isSome_map

end

/-! ## Names -/

instance : HasSpans Ident := ⟨fun F x => { x with span := F x.span }⟩
instance : HasSpans ObjectName := ⟨fun F x => ⟨mapSpans F x.parts, F x.span⟩⟩
instance : HasSpans DataType := ⟨fun F x => ⟨mapSpans F x.name, x.arguments, F x.span⟩⟩

/-! ## Expressions and queries

Recursion is structural, so lists have functions of their own here, which are maps. -/

mutual

def Expr.relocate (F : Span → Span) : Expr → Expr
  | ⟨kind, span⟩ => ⟨kind.relocate F, F span⟩

def Expr.relocateList (F : Span → Span) : List Expr → List Expr
  | [] => []
  | e :: es => e.relocate F :: Expr.relocateList F es

def Expr.relocate? (F : Span → Span) : Option Expr → Option Expr
  | none => none
  | some e => some (e.relocate F)

def ExprKind.relocate (F : Span → Span) : ExprKind → ExprKind
  | .column parts => .column (mapSpans F parts)
  | .localVariable name => .localVariable (mapSpans F name)
  | .literal kind value => .literal kind value
  | .wildcard => .wildcard
  | .binary op left right => .binary op (left.relocate F) (right.relocate F)
  | .unary op operand => .unary op (operand.relocate F)
  | .nested inner => .nested (inner.relocate F)
  | .call name distinct arguments withinGroup window =>
    .call (mapSpans F name) distinct (Expr.relocateList F arguments)
      (OrderItem.relocateList F withinGroup) (Window.relocate? F window)
  | .conversion function dataType operand style =>
    .conversion function (mapSpans F dataType) (operand.relocate F) (Expr.relocate? F style)
  | .choice operand branches otherwise =>
    .choice (Expr.relocate? F operand) (WhenClause.relocateList F branches) (Expr.relocate? F otherwise)
  | .subquery query => .subquery (query.relocate F)
  | .existence query => .existence (query.relocate F)
  | .inList operand list negated => .inList (operand.relocate F) (Expr.relocateList F list) negated
  | .inSubquery operand query negated => .inSubquery (operand.relocate F) (query.relocate F) negated
  | .between operand low high negated =>
    .between (operand.relocate F) (low.relocate F) (high.relocate F) negated
  | .like operand pattern escape negated =>
    .like (operand.relocate F) (pattern.relocate F) (Expr.relocate? F escape) negated
  | .isNull operand negated => .isNull (operand.relocate F) negated

def WhenClause.relocate (F : Span → Span) : WhenClause → WhenClause
  | ⟨condition, result, span⟩ => ⟨condition.relocate F, result.relocate F, F span⟩

def WhenClause.relocateList (F : Span → Span) : List WhenClause → List WhenClause
  | [] => []
  | x :: xs => x.relocate F :: WhenClause.relocateList F xs

def Window.relocate (F : Span → Span) : Window → Window
  | ⟨partition, order, span⟩ => ⟨Expr.relocateList F partition, OrderItem.relocateList F order, F span⟩

def Window.relocate? (F : Span → Span) : Option Window → Option Window
  | none => none
  | some x => some (x.relocate F)

def OrderItem.relocate (F : Span → Span) : OrderItem → OrderItem
  | ⟨expr, direction, span⟩ => ⟨expr.relocate F, direction, F span⟩

def OrderItem.relocateList (F : Span → Span) : List OrderItem → List OrderItem
  | [] => []
  | x :: xs => x.relocate F :: OrderItem.relocateList F xs

def Query.relocate (F : Span → Span) : Query → Query
  | ⟨commonTables, body, orderBy, offset, fetch, span⟩ =>
    ⟨CommonTable.relocateList F commonTables, body.relocate F, OrderItem.relocateList F orderBy,
      Expr.relocate? F offset, Expr.relocate? F fetch, F span⟩

def CommonTable.relocate (F : Span → Span) : CommonTable → CommonTable
  | ⟨name, columns, query, span⟩ =>
    ⟨mapSpans F name, mapSpans F columns, query.relocate F, F span⟩

def CommonTable.relocateList (F : Span → Span) : List CommonTable → List CommonTable
  | [] => []
  | x :: xs => x.relocate F :: CommonTable.relocateList F xs

def QueryExpr.relocate (F : Span → Span) : QueryExpr → QueryExpr
  | ⟨kind, span⟩ => ⟨kind.relocate F, F span⟩

def QueryExprKind.relocate (F : Span → Span) : QueryExprKind → QueryExprKind
  | .specification spec => .specification (spec.relocate F)
  | .parenthesized query => .parenthesized (query.relocate F)
  | .setOperation op all left right => .setOperation op all (left.relocate F) (right.relocate F)

def QuerySpecification.relocate (F : Span → Span) : QuerySpecification → QuerySpecification
  | ⟨distinct, top, selectList, target, sources, filter, groupBy, having, span⟩ =>
    ⟨distinct, TopClause.relocate? F top, SelectElement.relocateList F selectList,
      mapSpans F target, TableSource.relocateList F sources, WhereClause.relocate? F filter,
      Expr.relocateList F groupBy, Expr.relocate? F having, F span⟩

def TopClause.relocate (F : Span → Span) : TopClause → TopClause
  | ⟨expr, percent, withTies, span⟩ => ⟨expr.relocate F, percent, withTies, F span⟩

def TopClause.relocate? (F : Span → Span) : Option TopClause → Option TopClause
  | none => none
  | some x => some (x.relocate F)

def SelectElement.relocate (F : Span → Span) : SelectElement → SelectElement
  | ⟨kind, span⟩ => ⟨kind.relocate F, F span⟩

def SelectElement.relocateList (F : Span → Span) : List SelectElement → List SelectElement
  | [] => []
  | x :: xs => x.relocate F :: SelectElement.relocateList F xs

def SelectElementKind.relocate (F : Span → Span) : SelectElementKind → SelectElementKind
  | .wildcard qualifier => .wildcard (mapSpans F qualifier)
  | .expression expr aliasName => .expression (expr.relocate F) (mapSpans F aliasName)
  | .assignment name value => .assignment (mapSpans F name) (value.relocate F)

def WhereClause.relocate (F : Span → Span) : WhereClause → WhereClause
  | ⟨condition, span⟩ => ⟨condition.relocate F, F span⟩

def WhereClause.relocate? (F : Span → Span) : Option WhereClause → Option WhereClause
  | none => none
  | some x => some (x.relocate F)

def TableSource.relocate (F : Span → Span) : TableSource → TableSource
  | ⟨kind, span⟩ => ⟨kind.relocate F, F span⟩

def TableSource.relocateList (F : Span → Span) : List TableSource → List TableSource
  | [] => []
  | x :: xs => x.relocate F :: TableSource.relocateList F xs

def TableSourceKind.relocate (F : Span → Span) : TableSourceKind → TableSourceKind
  | .named name aliasName hints =>
    .named (mapSpans F name) (mapSpans F aliasName) (mapSpans F hints)
  | .derived query aliasName columns =>
    .derived (query.relocate F) (mapSpans F aliasName) (mapSpans F columns)
  | .function name arguments aliasName =>
    .function (mapSpans F name) (Expr.relocateList F arguments) (mapSpans F aliasName)
  | .parenthesized inner => .parenthesized (inner.relocate F)
  | .qualifiedJoin join first second condition =>
    .qualifiedJoin join (first.relocate F) (second.relocate F) (condition.relocate F)
  | .unqualifiedJoin join first second => .unqualifiedJoin join (first.relocate F) (second.relocate F)

end

instance : HasSpans Expr := ⟨Expr.relocate⟩
instance : HasSpans ExprKind := ⟨ExprKind.relocate⟩
instance : HasSpans WhenClause := ⟨WhenClause.relocate⟩
instance : HasSpans Window := ⟨Window.relocate⟩
instance : HasSpans OrderItem := ⟨OrderItem.relocate⟩
instance : HasSpans Query := ⟨Query.relocate⟩
instance : HasSpans CommonTable := ⟨CommonTable.relocate⟩
instance : HasSpans QueryExpr := ⟨QueryExpr.relocate⟩
instance : HasSpans QueryExprKind := ⟨QueryExprKind.relocate⟩
instance : HasSpans QuerySpecification := ⟨QuerySpecification.relocate⟩
instance : HasSpans TopClause := ⟨TopClause.relocate⟩
instance : HasSpans SelectElement := ⟨SelectElement.relocate⟩
instance : HasSpans SelectElementKind := ⟨SelectElementKind.relocate⟩
instance : HasSpans WhereClause := ⟨WhereClause.relocate⟩
instance : HasSpans TableSource := ⟨TableSource.relocate⟩
instance : HasSpans TableSourceKind := ⟨TableSourceKind.relocate⟩

section
variable (F : Span → Span)

@[simp]
theorem Expr.relocateList_eq : ∀ xs : List Expr, Expr.relocateList F xs = mapSpans F xs
  | [] => rfl
  | x :: xs => congrArg (x.relocate F :: ·) (Expr.relocateList_eq xs)

@[simp]
theorem WhenClause.relocateList_eq : ∀ xs : List WhenClause, WhenClause.relocateList F xs = mapSpans F xs
  | [] => rfl
  | x :: xs => congrArg (x.relocate F :: ·) (WhenClause.relocateList_eq xs)

@[simp]
theorem OrderItem.relocateList_eq : ∀ xs : List OrderItem, OrderItem.relocateList F xs = mapSpans F xs
  | [] => rfl
  | x :: xs => congrArg (x.relocate F :: ·) (OrderItem.relocateList_eq xs)

@[simp]
theorem CommonTable.relocateList_eq : ∀ xs : List CommonTable, CommonTable.relocateList F xs = mapSpans F xs
  | [] => rfl
  | x :: xs => congrArg (x.relocate F :: ·) (CommonTable.relocateList_eq xs)

@[simp]
theorem SelectElement.relocateList_eq : ∀ xs : List SelectElement, SelectElement.relocateList F xs = mapSpans F xs
  | [] => rfl
  | x :: xs => congrArg (x.relocate F :: ·) (SelectElement.relocateList_eq xs)

@[simp]
theorem TableSource.relocateList_eq : ∀ xs : List TableSource, TableSource.relocateList F xs = mapSpans F xs
  | [] => rfl
  | x :: xs => congrArg (x.relocate F :: ·) (TableSource.relocateList_eq xs)

@[simp]
theorem Expr.relocate?_eq : ∀ x? : Option Expr, Expr.relocate? F x? = mapSpans F x?
  | none => rfl
  | some _ => rfl

@[simp]
theorem Window.relocate?_eq : ∀ x? : Option Window, Window.relocate? F x? = mapSpans F x?
  | none => rfl
  | some _ => rfl

@[simp]
theorem TopClause.relocate?_eq : ∀ x? : Option TopClause, TopClause.relocate? F x? = mapSpans F x?
  | none => rfl
  | some _ => rfl

@[simp]
theorem WhereClause.relocate?_eq : ∀ x? : Option WhereClause, WhereClause.relocate? F x? = mapSpans F x?
  | none => rfl
  | some _ => rfl

end

/-! ## Table definitions -/

instance : HasSpans IndexColumn := ⟨fun F x => { x with name := mapSpans F x.name, span := F x.span }⟩

instance : HasSpans IndexDefinition :=
  ⟨fun F x => { x with
    name := mapSpans F x.name, columns := mapSpans F x.columns, included := mapSpans F x.included,
    filter := mapSpans F x.filter, span := F x.span }⟩

def ConstraintKind.relocate (F : Span → Span) : ConstraintKind → ConstraintKind
  | .unique primaryKey clustered columns => .unique primaryKey clustered (mapSpans F columns)
  | .foreignKey columns target targetColumns =>
    .foreignKey (mapSpans F columns) (mapSpans F target) (mapSpans F targetColumns)
  | .check condition => .check (mapSpans F condition)
  | .defaultValue value column => .defaultValue (mapSpans F value) (mapSpans F column)

instance : HasSpans ConstraintKind := ⟨ConstraintKind.relocate⟩

instance : HasSpans ConstraintDefinition :=
  ⟨fun F x => ⟨mapSpans F x.name, mapSpans F x.kind, F x.span⟩⟩

instance : HasSpans ColumnDefinition :=
  ⟨fun F x => { x with
    name := mapSpans F x.name, dataType := mapSpans F x.dataType, computed := mapSpans F x.computed,
    constraints := mapSpans F x.constraints, index := mapSpans F x.index, span := F x.span }⟩

instance : HasSpans TableDefinition :=
  ⟨fun F x => ⟨mapSpans F x.columns, mapSpans F x.constraints, mapSpans F x.indexes, F x.span⟩⟩

/-! ## Statements -/

instance : HasSpans Argument :=
  ⟨fun F x => { x with name := mapSpans F x.name, value := mapSpans F x.value, span := F x.span }⟩

def ExecutionTarget.relocate (F : Span → Span) : ExecutionTarget → ExecutionTarget
  | .procedure name arguments => .procedure (mapSpans F name) (mapSpans F arguments)
  | .dynamic text => .dynamic (mapSpans F text)

instance : HasSpans ExecutionTarget := ⟨ExecutionTarget.relocate⟩

instance : HasSpans Execution := ⟨fun F x => ⟨mapSpans F x.returnVariable, mapSpans F x.target⟩⟩

def InsertSource.relocate (F : Span → Span) : InsertSource → InsertSource
  | .values rows => .values (mapSpans F rows)
  | .query q => .query (mapSpans F q)
  | .execution x => .execution (mapSpans F x)
  | .defaultValues => .defaultValues

instance : HasSpans InsertSource := ⟨InsertSource.relocate⟩

instance : HasSpans Insertion :=
  ⟨fun F x => ⟨mapSpans F x.top, mapSpans F x.target, mapSpans F x.columns, mapSpans F x.source⟩⟩

instance : HasSpans Assignment := ⟨fun F x => ⟨mapSpans F x.target, mapSpans F x.value, F x.span⟩⟩

instance : HasSpans Update :=
  ⟨fun F x => ⟨mapSpans F x.top, mapSpans F x.target, mapSpans F x.assignments, mapSpans F x.sources,
    mapSpans F x.filter⟩⟩

instance : HasSpans Deletion :=
  ⟨fun F x => ⟨mapSpans F x.top, mapSpans F x.target, mapSpans F x.sources, mapSpans F x.filter⟩⟩

def AlterAction.relocate (F : Span → Span) : AlterAction → AlterAction
  | .add definition => .add (mapSpans F definition)
  | .unknown => .unknown

instance : HasSpans AlterAction := ⟨AlterAction.relocate⟩

instance : HasSpans CreateIndex :=
  ⟨fun F x => { x with
    name := mapSpans F x.name, table := mapSpans F x.table, columns := mapSpans F x.columns,
    included := mapSpans F x.included, filter := mapSpans F x.filter }⟩

instance : HasSpans CreateView :=
  ⟨fun F x => ⟨x.mode, mapSpans F x.name, mapSpans F x.columns, mapSpans F x.query⟩⟩

instance : HasSpans Parameter :=
  ⟨fun F x => { x with
    name := mapSpans F x.name, dataType := mapSpans F x.dataType, initial := mapSpans F x.initial,
    span := F x.span }⟩

instance : HasSpans Removal :=
  ⟨fun F x => { x with names := mapSpans F x.names, table := mapSpans F x.table }⟩

def DeclarationKind.relocate (F : Span → Span) : DeclarationKind → DeclarationKind
  | .scalar dataType value => .scalar (mapSpans F dataType) (mapSpans F value)
  | .table definition => .table (mapSpans F definition)

instance : HasSpans DeclarationKind := ⟨DeclarationKind.relocate⟩

instance : HasSpans Declaration := ⟨fun F x => ⟨mapSpans F x.name, mapSpans F x.kind, F x.span⟩⟩

mutual

def Statement.relocate (F : Span → Span) : Statement → Statement
  | ⟨kind, span⟩ => ⟨kind.relocate F, F span⟩

def Statement.relocateList (F : Span → Span) : List Statement → List Statement
  | [] => []
  | x :: xs => x.relocate F :: Statement.relocateList F xs

def Statement.relocate? (F : Span → Span) : Option Statement → Option Statement
  | none => none
  | some x => some (x.relocate F)

def StatementKind.relocate (F : Span → Span) : StatementKind → StatementKind
  | .select query => .select (mapSpans F query)
  | .insertion x => .insertion (mapSpans F x)
  | .update x => .update (mapSpans F x)
  | .deletion x => .deletion (mapSpans F x)
  | .createTable name definition => .createTable (mapSpans F name) (mapSpans F definition)
  | .alterTable name action => .alterTable (mapSpans F name) (mapSpans F action)
  | .createIndex x => .createIndex (mapSpans F x)
  | .createView x => .createView (mapSpans F x)
  | .createProcedure mode name parameters body =>
    .createProcedure mode (mapSpans F name) (mapSpans F parameters)
      (Statement.relocateList F body)
  | .removal x => .removal (mapSpans F x)
  | .truncation table => .truncation (mapSpans F table)
  | .execution x => .execution (mapSpans F x)
  | .declaration xs => .declaration (mapSpans F xs)
  | .setVariable name op value => .setVariable (mapSpans F name) op (mapSpans F value)
  | .setOption options value => .setOption (mapSpans F options) (mapSpans F value)
  | .conditional condition consequent alternative =>
    .conditional (mapSpans F condition) (consequent.relocate F) (Statement.relocate? F alternative)
  | .loop condition body => .loop (mapSpans F condition) (body.relocate F)
  | .block statements => .block (Statement.relocateList F statements)
  | .tryCatch attempt handler => .tryCatch (Statement.relocateList F attempt) (Statement.relocateList F handler)
  | .transaction kind name => .transaction kind (mapSpans F name)
  | .returning value => .returning (mapSpans F value)
  | .print value => .print (mapSpans F value)
  | .breakLoop => .breakLoop
  | .continueLoop => .continueLoop
  | .unmodelled word => .unmodelled word

end

instance : HasSpans Statement := ⟨Statement.relocate⟩
instance : HasSpans StatementKind := ⟨StatementKind.relocate⟩
instance : HasSpans Batch := ⟨fun F x => ⟨mapSpans F x.statements, F x.span⟩⟩
instance : HasSpans Script := ⟨fun F x => ⟨mapSpans F x.batches, F x.span⟩⟩

section
variable (F : Span → Span)

@[simp]
theorem Statement.relocateList_eq : ∀ xs : List Statement, Statement.relocateList F xs = mapSpans F xs
  | [] => rfl
  | x :: xs => congrArg (x.relocate F :: ·) (Statement.relocateList_eq xs)

@[simp]
theorem Statement.relocate?_eq : ∀ x? : Option Statement, Statement.relocate? F x? = mapSpans F x?
  | none => rfl
  | some _ => rfl

end

/-! ## Nodes -/

def Node.relocate (F : Span → Span) : Node → Node
  | .script x => .script (mapSpans F x)
  | .batch x => .batch (mapSpans F x)
  | .statement x => .statement (mapSpans F x)
  | .query x => .query (mapSpans F x)
  | .commonTable x => .commonTable (mapSpans F x)
  | .queryExpr x => .queryExpr (mapSpans F x)
  | .specification x => .specification (mapSpans F x)
  | .topClause x => .topClause (mapSpans F x)
  | .selectElement x => .selectElement (mapSpans F x)
  | .whereClause x => .whereClause (mapSpans F x)
  | .orderItem x => .orderItem (mapSpans F x)
  | .tableSource x => .tableSource (mapSpans F x)
  | .expr x => .expr (mapSpans F x)
  | .whenClause x => .whenClause (mapSpans F x)
  | .window x => .window (mapSpans F x)
  | .tableDefinition x => .tableDefinition (mapSpans F x)
  | .column x => .column (mapSpans F x)
  | .constraint x => .constraint (mapSpans F x)
  | .index x => .index (mapSpans F x)
  | .indexColumn x => .indexColumn (mapSpans F x)
  | .argument x => .argument (mapSpans F x)
  | .declaration x => .declaration (mapSpans F x)
  | .parameter x => .parameter (mapSpans F x)
  | .assignment x => .assignment (mapSpans F x)
  | .objectName x => .objectName (mapSpans F x)
  | .ident x => .ident (mapSpans F x)
  | .dataType x => .dataType (mapSpans F x)

section
variable (F : Span → Span)

theorem Node.span_relocate (n : Node) : (n.relocate F).span = F n.span := by
  cases n <;> rename_i x <;> cases x <;> rfl

theorem ExprKind.parts_relocate (k : ExprKind) : (k.relocate F).parts = k.parts.map (Node.relocate F) := by
  cases k <;> simp [parts, relocate, mapSpans, Node.relocate, Function.comp_def, Option.toList_map]

theorem QueryExprKind.parts_relocate (k : QueryExprKind) :
    (k.relocate F).parts = k.parts.map (Node.relocate F) := by
  cases k <;> rfl

theorem SelectElementKind.parts_relocate (k : SelectElementKind) :
    (k.relocate F).parts = k.parts.map (Node.relocate F) := by
  cases k <;> simp [parts, relocate, mapSpans, Node.relocate, Function.comp_def, Option.toList_map]

theorem TableSourceKind.parts_relocate (k : TableSourceKind) :
    (k.relocate F).parts = k.parts.map (Node.relocate F) := by
  cases k <;> simp [parts, relocate, mapSpans, Node.relocate, Function.comp_def, Option.toList_map]

theorem ConstraintKind.parts_relocate (k : ConstraintKind) :
    (k.relocate F).parts = k.parts.map (Node.relocate F) := by
  cases k <;> simp [parts, relocate, mapSpans, Node.relocate, Function.comp_def, Option.toList_map]

theorem DeclarationKind.parts_relocate (k : DeclarationKind) :
    (k.relocate F).parts = k.parts.map (Node.relocate F) := by
  cases k <;> simp [parts, relocate, mapSpans, Node.relocate, Function.comp_def, Option.toList_map]

theorem Execution.parts_mapSpans (x : Execution) : (mapSpans F x).parts = x.parts.map (Node.relocate F) := by
  obtain ⟨returnVariable, target⟩ := x
  cases target <;>
    simp [parts, mapSpans, ExecutionTarget.relocate, Node.relocate, Function.comp_def, Option.toList_map]

theorem InsertSource.parts_relocate (x : InsertSource) :
    (x.relocate F).parts = x.parts.map (Node.relocate F) := by
  cases x with
  | execution x => exact x.parts_mapSpans F
  | _ => simp [parts, relocate, mapSpans, Node.relocate, Function.comp_def, List.map_flatten]

theorem StatementKind.parts_relocate (k : StatementKind) :
    (k.relocate F).parts = k.parts.map (Node.relocate F) := by
  cases k with
  | execution x => exact x.parts_mapSpans F
  | alterTable name action => cases action <;> rfl
  | insertion x =>
    simp [parts, relocate, mapSpans, Node.relocate, Function.comp_def, Option.toList_map,
      ← InsertSource.parts_relocate]
  | _ => simp [parts, relocate, mapSpans, Node.relocate, Function.comp_def, Option.toList_map]

theorem Node.parts_relocate (n : Node) : (n.relocate F).parts = n.parts.map (relocate F) := by
  cases n with
  | statement x => cases x; exact StatementKind.parts_relocate F _
  | queryExpr x => cases x; exact QueryExprKind.parts_relocate F _
  | selectElement x => cases x; exact SelectElementKind.parts_relocate F _
  | tableSource x => cases x; exact TableSourceKind.parts_relocate F _
  | expr x => cases x; exact ExprKind.parts_relocate F _
  | constraint x =>
    simp [parts, relocate, mapSpans, Function.comp_def, Option.toList_map, ← ConstraintKind.parts_relocate]
  | declaration x => simp [parts, relocate, mapSpans, ← DeclarationKind.parts_relocate]
  | query x => cases x; simp [parts, relocate, mapSpans, Query.relocate, Function.comp_def, Option.toList_map]
  | commonTable x => cases x; simp [parts, relocate, mapSpans, CommonTable.relocate, Function.comp_def]
  | specification x =>
    cases x
    simp [parts, relocate, mapSpans, QuerySpecification.relocate, Function.comp_def, Option.toList_map]
  | topClause x => cases x; rfl
  | whereClause x => cases x; rfl
  | orderItem x => cases x; rfl
  | whenClause x => cases x; rfl
  | window x => cases x; simp [parts, relocate, mapSpans, Window.relocate, Function.comp_def]
  | _ => simp [parts, relocate, mapSpans, Function.comp_def, Option.toList_map]

end

end TransactLint
