import TransactLint.Grammar.Execution
import TransactLint.Grammar.Query
import TransactLint.Grammar.TableDefinition

/-!
# The grammar of `CREATE`, `ALTER` and `DROP`
-/

namespace TransactLint.Grammar

open TransactLint.Parser

variable [Repetition] (inner : Level)

/-! ## Where a statement ends -/

/-- The words that can only begin a statement. -/
def statementWords : List Keyword :=
  [.SELECT, .INSERT, .UPDATE, .DELETE, .MERGE, .CREATE, .ALTER, .DROP, .TRUNCATE, .EXEC, .EXECUTE,
   .DECLARE, .SET, .IF, .WHILE, .BEGIN, .COMMIT, .ROLLBACK, .RETURN, .PRINT, .BREAK, .CONTINUE,
   .RAISERROR, .USE, .GOTO, .WAITFOR]

def atStatementStart (ts : Terminals) (pos : Nat) : Bool :=
  statementWords.any (ts.isKeyword pos) || ts.isSeparator pos

/-- Whether what is not modelled ends before `pos`. -/
def atBoundary (ts : Terminals) (pos : Nat) : Bool :=
  ts.size ≤ pos || ts.isKind pos .semicolon || ts.isKeyword pos .END || ts.isKeyword pos .ELSE ||
    atStatementStart ts pos

/-- Skips the rest of a statement that is not modelled. -/
def skipStatement : Parser Unit := skipUntil atBoundary

/-- Skips a statement whose clauses begin like statements, so that only `;` or `GO` ends it. -/
def skipToTerminator : Parser Unit :=
  skipUntil fun ts pos => ts.isKind pos .semicolon || ts.isSeparator pos

/-- Statements up to the end, to a separator, or to `END` where that ends a block. -/
def statementList (inBlock : Bool) : Parser (List Statement) :=
  many do
    repeatWhile (consume .semicolon)
    let stop ← look fun ts pos =>
      ts.size ≤ pos || ts.isSeparator pos || (inBlock && ts.isKeyword pos .END)
    optionIf (pure !stop) inner.statement

/-! ## Tables and indexes -/

def createTable : Parser StatementKind := do
  expectKeyword .TABLE
  let name ← objectName
  let definition ← tableDefinition inner
  storageOptions
  pure (.createTable name definition)

def atCheckOption (ts : Terminals) (pos : Nat) : Bool :=
  ts.isKeyword pos .WITH && (ts.isKeyword (pos + 1) .CHECK || ts.isKeyword (pos + 1) .NOCHECK)

/-- What is done to the table. The first word of a change that is not modelled may also begin a
statement, so it is skipped on its own. -/
def alterAction : Parser AlterAction := do
  if ← consumeKeyword .ADD then .add <$> spanned definitionOf (tableElements inner)
  else
    skip
    skipStatement
    pure .unknown

def alterTable : Parser StatementKind := do
  expectKeyword .TABLE
  let name ← objectName
  if ← look atCheckOption then skipTwo
  let action ← alterAction inner
  pure (.alterTable name action)

def createIndex : Parser StatementKind := do
  let unique ← consumeKeyword .UNIQUE
  let clustered ← clusteredOption
  let columnstore ← consumeWord "COLUMNSTORE"
  expectKeyword .INDEX
  let name ← ident
  expectKeyword .ON
  let table ← objectName
  let (columns, included, filter) ← indexBody inner
  pure (.createIndex ⟨name, table, unique, clustered, columnstore, columns, included, filter⟩)

/-! ## Views -/

def atCheckSuffix (ts : Terminals) (pos : Nat) : Bool :=
  ts.isKeyword pos .WITH && ts.isKeyword (pos + 1) .CHECK

def createView (mode : CreateMode) : Parser StatementKind := do
  expectKeyword .VIEW
  let name ← objectName
  let columns ← listIf (atKind .leftParen) identList
  let _ ← listIf (consumeKeyword .WITH) (commaSeparated anyIdent)
  expectKeyword .AS
  let query ← inner.query
  if ← look atCheckSuffix then
    skipTwo
    expectKeyword .OPTION
  pure (.createView ⟨mode, name, columns, query⟩)

/-! ## Procedures -/

/-- The marks after a parameter: whether it is output, and whether it is read only. -/
def parameterMarks : Parser (Bool × Bool) :=
  iterate (fun (output, readOnly) => do
    if ← outputMark then pure (some (true, readOnly))
    else if ← consumeWord "READONLY" then pure (some (output, true))
    else pure none) (false, false)

def parameter : Parser Parameter := do
  let start ← position
  let name ← variableName
  let _ ← consumeKeyword .AS
  let type ← dataType
  let _ ← consumeWord "VARYING"
  let initial ← optionIf (consume .eq) inner.expression
  let (output, readOnly) ← parameterMarks
  let span ← spanFrom start
  pure ⟨name, type, initial, output, readOnly, span⟩

/-- An option after `WITH`, such as `RECOMPILE` or `EXECUTE AS OWNER`. -/
def procedureOption : Parser Unit := do
  if ← look fun ts pos => ts.isKeyword pos .EXECUTE || ts.isKeyword pos .EXEC then
    skip
    expectKeyword .AS
  let _ ← anyIdent
  pure ()

/-- A procedure; its body takes all statements to the end of the batch. -/
def createProcedure (mode : CreateMode) : Parser StatementKind := do
  skip
  let name ← objectName
  let parenthesized ← consume .leftParen
  let parameters ← listIf (atKind .localVariable) (commaSeparated (parameter inner))
  if parenthesized then expect .rightParen
  let _ ← listIf (consumeKeyword .WITH) (commaSeparated procedureOption)
  if ← atKeywordWord .FOR "REPLICATION" then skipTwo
  expectKeyword .AS
  let body ← statementList inner false
  pure (.createProcedure mode name parameters body)

/-! ## Statements -/

/-- What may follow `CREATE` alone. -/
def createPlain (t : Token) : Parser StatementKind :=
  match t.kind with
  | .keyword .TABLE => createTable inner
  | .keyword .UNIQUE | .keyword .CLUSTERED | .keyword .NONCLUSTERED | .keyword .INDEX =>
    createIndex inner
  | .keyword .VIEW => createView inner .create
  | .keyword .PROC | .keyword .PROCEDURE => createProcedure inner .create
  | .identifier => if t.isWord "COLUMNSTORE" then createIndex inner else failUnsupported
  | _ => failUnsupported

/-- What may be altered as it was created. -/
def createOrAlter (mode : CreateMode) (t : Token) : Parser StatementKind :=
  match t.kind with
  | .keyword .VIEW => createView inner mode
  | .keyword .PROC | .keyword .PROCEDURE => createProcedure inner mode
  | _ => failUnsupported

def create : Parser StatementKind := do
  expectKeyword .CREATE
  let orAlter ← consumePair (.keyword .OR) (.keyword .ALTER)
  match ← current with
  | none => failExpected "object type"
  | some t => if orAlter then createOrAlter inner .createOrAlter t else createPlain inner t

def alter : Parser StatementKind := do
  expectKeyword .ALTER
  match ← current with
  | none => failExpected "object type"
  | some t =>
    if t.kind = .keyword .TABLE then alterTable inner else createOrAlter inner .alter t

def drop : Parser StatementKind := do
  expectKeyword .DROP
  let objectType ← anyIdent
  let ifExists ← consumePair (.keyword .IF) (.keyword .EXISTS)
  let names ← commaSeparated objectName
  let table ← optionIf (consumeKeyword .ON) objectName
  pure (.removal
    ⟨String.ofList (Text.upperAscii objectType.value.toList), ifExists, names, table⟩)

end TransactLint.Grammar
