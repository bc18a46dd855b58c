import TransactLint.Grammar.Expression

/-!
# The grammar of table definitions

Storage options are read and left out of the tree.
-/

namespace TransactLint.Grammar

open TransactLint.Parser

variable [Repetition] (inner : Level)

def notForReplication : Parser Bool := do
  if ← consumePair (.keyword .NOT) (.keyword .FOR) then
    expectWord "REPLICATION"
    pure true
  else pure false

/-- `CLUSTERED` or `NONCLUSTERED`. -/
def clusteredOption : Parser (Option Bool) := do
  if ← consumeKeyword .CLUSTERED then pure (some true)
  else if ← consumeKeyword .NONCLUSTERED then pure (some false)
  else pure none

/-! ## Storage options -/

/-- `ON` names a filegroup unless an action on deletion or update follows. -/
def atFilegroup (ts : Terminals) (pos : Nat) : Bool :=
  ts.isKeyword pos .ON && !ts.isKeyword (pos + 1) .DELETE && !ts.isKeyword (pos + 1) .UPDATE

def atTextStorage (ts : Terminals) (pos : Nat) : Bool :=
  ts.isWord pos "TEXTIMAGE_ON" || ts.isWord pos "FILESTREAM_ON"

/-- One storage option, if there is one. -/
def storageOption : Parser Bool := do
  if ← atPair (.keyword .WITH) .leftParen then
    skip
    skipParenthesized
    pure true
  else if ← atKeywordWord .WITH "FILLFACTOR" then
    skipTwo
    expect .eq
    skip
    pure true
  else if ← look atFilegroup then
    skip
    let _ ← anyIdent
    if ← atKind .leftParen then skipParenthesized
    pure true
  else if ← look atTextStorage then
    skip
    let _ ← anyIdent
    pure true
  else pure false

def storageOptions : Parser Unit := repeatWhile storageOption

/-! ## Indexes -/

def indexColumn : Parser IndexColumn :=
  spanned (fun (name, direction) span => ⟨name, direction, span⟩) do
    let name ← ident
    let direction ← sortDirection
    pure (name, direction)

/-- The columns of a key in parentheses. -/
def indexColumns : Parser (List IndexColumn) := do
  expect .leftParen
  let columns ← commaSeparated indexColumn
  expect .rightParen
  pure columns

/-- Columns, included columns and filter of an index, with its storage options. -/
def indexBody : Parser (List IndexColumn × List Ident × Option Expr) := do
  let columns ← listIf (atKind .leftParen) indexColumns
  let included ← listIf (consumeWord "INCLUDE") identList
  let filter ← optionIf (consumeKeyword .WHERE) inner.expression
  storageOptions
  pure (columns, included, filter)

/-- An index inside a table definition. -/
def indexDefinition : Parser IndexDefinition := do
  let start ← position
  expectKeyword .INDEX
  let name ← ident
  let unique ← consumeKeyword .UNIQUE
  let clustered ← clusteredOption
  let columnstore ← consumeWord "COLUMNSTORE"
  let (columns, included, filter) ← indexBody inner
  let span ← spanFrom start
  pure ⟨name, unique, IndexType.ofOptions? clustered columnstore, columns, included, filter, span⟩

/-! ## Constraints -/

/-- What follows `PRIMARY KEY` or `UNIQUE`. -/
def uniqueBody (primaryKey : Bool) : Parser ConstraintKind := do
  let clustered ← clusteredOption
  let _ ← consumeWord "COLUMNSTORE"
  let columns ← listIf (atKind .leftParen) indexColumns
  storageOptions
  pure (.unique primaryKey clustered columns)

/-- What follows `ON DELETE` or `ON UPDATE`. -/
def referentialAction : Parser Unit := do
  if ← consumeKeyword .CASCADE then pure ()
  else if ← consumeWord "NO" then expectWord "ACTION"
  else
    expectKeyword .SET
    if ← consumeKeyword .NULL then pure () else expectKeyword .DEFAULT

def atReferentialAction (ts : Terminals) (pos : Nat) : Bool :=
  ts.isKeyword pos .ON && (ts.isKeyword (pos + 1) .DELETE || ts.isKeyword (pos + 1) .UPDATE)

/-- One action or `NOT FOR REPLICATION`, if there is one. -/
def referenceOption : Parser Bool := do
  if ← look atReferentialAction then
    skipTwo
    referentialAction
    pure true
  else notForReplication

/-- `REFERENCES table [(columns)]` for a key of the given columns. -/
def references (columns : List Ident) : Parser ConstraintKind := do
  expectKeyword .REFERENCES
  let target ← objectName
  let targetColumns ← listIf (atKind .leftParen) identList
  repeatWhile referenceOption
  pure (.foreignKey columns target targetColumns)

/-- What follows `CHECK`. -/
def checkBody : Parser ConstraintKind := do
  let _ ← notForReplication
  expect .leftParen
  let condition ← inner.expression
  expect .rightParen
  pure (.check condition)

/-- What follows `DEFAULT`. -/
def defaultBody : Parser ConstraintKind := do
  let value ← inner.expression
  let column ← optionIf (consumeKeyword .FOR) ident
  pure (.defaultValue value column)

/-- The constraint at the current terminal, if one begins there. -/
def constraintKind : Parser (Option ConstraintKind) := do
  if ← consumeKeyword .PRIMARY then
    expectKeyword .KEY
    some <$> uniqueBody true
  else if ← consumeKeyword .UNIQUE then some <$> uniqueBody false
  else if ← consumeKeyword .FOREIGN then
    expectKeyword .KEY
    let columns ← identList
    some <$> references columns
  else if ← atKeyword .REFERENCES then some <$> references []
  else if ← consumeKeyword .CHECK then some <$> checkBody inner
  else if ← consumeKeyword .DEFAULT then some <$> defaultBody inner
  else pure none

/-- A constraint of a column or a table, if one begins here. -/
def constraint : Parser (Option ConstraintDefinition) := do
  let start ← position
  let name ← optionIf (consumeKeyword .CONSTRAINT) ident
  match ← constraintKind inner with
  | some kind =>
    let span ← spanFrom start
    pure (some ⟨name, kind, span⟩)
  | none => if name.isSome then failExpected "constraint" else pure none

/-! ## Columns -/

/-- What the options of a column say. -/
structure ColumnOptions where
  nullable : Option Bool
  identity : Bool
  /-- The constraints found, the last first. -/
  constraints : List ConstraintDefinition
  index : Option IndexDefinition

def ColumnOptions.none : ColumnOptions := ⟨.none, false, [], .none⟩

/-- A word that may stand among the options of a column and says nothing of interest. -/
def ignoredColumnWord : Parser Bool := do
  if ← consumeKeyword .ROWGUIDCOL then pure true
  else if ← consumeWord "SPARSE" then pure true
  else if ← consumeWord "FILESTREAM" then pure true
  else consumeWord "PERSISTED"

/-- One option of a column, if there is one. A later index takes the place of an earlier one. -/
def columnOption (found : ColumnOptions) : Parser (Option ColumnOptions) := do
  if ← consumeKeyword .NULL then pure (some { found with nullable := some true })
  else if ← consumePair (.keyword .NOT) (.keyword .NULL) then
    pure (some { found with nullable := some false })
  else if ← notForReplication then pure (some found)
  else if ← consumeKeyword .IDENTITY then
    if ← atKind .leftParen then skipParenthesized
    pure (some { found with identity := true })
  else if ← consumeKeyword .COLLATE then
    let _ ← ident
    pure (some found)
  else if ← ignoredColumnWord then pure (some found)
  else if ← atKeyword .INDEX then
    let index ← indexDefinition inner
    pure (some { found with index := some index })
  else
    match ← constraint inner with
    | some c => pure (some { found with constraints := c :: found.constraints })
    | none => pure none

/-- The type of a column, or the expression that computes it. -/
def columnType : Parser (Option DataType × Option Expr) := do
  if ← consumeKeyword .AS then
    let expr ← inner.expression
    let _ ← consumeWord "PERSISTED"
    pure (none, some expr)
  else
    let type ← dataType
    pure (some type, none)

def columnDefinition : Parser ColumnDefinition := do
  let start ← position
  let name ← ident
  let (type, computed) ← columnType inner
  let options ← iterate (columnOption inner) .none
  let span ← spanFrom start
  pure ⟨name, type, computed, options.nullable, options.identity, options.constraints.reverse,
    options.index, span⟩

/-! ## Tables -/

inductive TableElement where
  | column (column : ColumnDefinition)
  | constraint (constraint : ConstraintDefinition)
  | index (index : IndexDefinition)

def tableElement : Parser TableElement := do
  if ← atKeyword .INDEX then .index <$> indexDefinition inner
  else
    match ← constraint inner with
    | some c => pure (.constraint c)
    | none => .column <$> columnDefinition inner

/-- The definition that the elements make up, each sort in its order. -/
def definitionOf (elements : List TableElement) (span : Span) : TableDefinition where
  columns := elements.filterMap fun | .column c => some c | _ => none
  constraints := elements.filterMap fun | .constraint c => some c | _ => none
  indexes := elements.filterMap fun | .index i => some i | _ => none
  span := span

def tableElements : Parser (List TableElement) := commaSeparated (tableElement inner)

/-- Table elements in parentheses. -/
def tableDefinition : Parser TableDefinition := spanned definitionOf do
  expect .leftParen
  let elements ← tableElements inner
  expect .rightParen
  pure elements

end TransactLint.Grammar
