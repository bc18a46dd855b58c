import TransactLint.Grammar.Definition

/-!
# The grammar of statements
-/

namespace TransactLint.Grammar

open TransactLint.Parser

variable [Repetition] (inner : Level)

/-! ## Changes to rows -/

/-- A list of columns, unless the parenthesis opens a query. -/
def atColumnList (ts : Terminals) (pos : Nat) : Bool :=
  ts.isKind pos .leftParen && !ts.isKeyword (pos + 1) .SELECT && !ts.isKeyword (pos + 1) .WITH

def valuesRow : Parser (List Expr) := do
  expect .leftParen
  let row ← expressionList inner
  expect .rightParen
  pure row

def insertSource : Parser InsertSource := do
  if ← consumeKeyword .VALUES then .values <$> commaSeparated (valuesRow inner)
  else if ← consumePair (.keyword .DEFAULT) (.keyword .VALUES) then pure .defaultValues
  else if ← look fun ts pos => ts.isKeyword pos .EXEC || ts.isKeyword pos .EXECUTE then
    .execution <$> execution inner
  else if ← look Terminals.startsQuery then .query <$> inner.query
  else failExpected "VALUES, SELECT or EXEC"

def insertion : Parser Insertion := do
  expectKeyword .INSERT
  let top ← optionalTop inner
  let _ ← consumeKeyword .INTO
  let target ← objectName
  let columns ← listIf (look atColumnList) identList
  let source ← insertSource inner
  pure ⟨top, target, columns, source⟩

def compoundOperator : TokenKind → Option BinaryOperator
  | .plus => some .add
  | .minus => some .subtract
  | .star => some .multiply
  | .slash => some .divide
  | .percent => some .modulo
  | .ampersand => some .bitAnd
  | .pipe => some .bitOr
  | .caret => some .bitXor
  | _ => none

/-- `=`, or an operator before it. -/
def assignmentMark : Parser (Option BinaryOperator) := do
  let op ← look fun ts pos =>
    if ts.isKind (pos + 1) .eq then (ts.token? pos).bind fun t => compoundOperator t.kind else none
  if op.isSome then skip
  expect .eq
  pure op

def assignment : Parser Assignment :=
  spanned (fun (target, value) span => ⟨target, value, span⟩) do
    let target ← primary inner
    let _ ← assignmentMark
    let value ← inner.expression
    pure (target, value)

def update : Parser Update := do
  expectKeyword .UPDATE
  let top ← optionalTop inner
  let target ← tableFactor inner
  expectKeyword .SET
  let assignments ← commaSeparated (assignment inner)
  let sources ← listIf (consumeKeyword .FROM) (tableSources inner)
  let filter ← whereClause inner
  pure ⟨top, target, assignments, sources, filter⟩

def deletion : Parser Deletion := do
  expectKeyword .DELETE
  let top ← optionalTop inner
  let _ ← consumeKeyword .FROM
  let target ← tableFactor inner
  let sources ← listIf (consumeKeyword .FROM) (tableSources inner)
  let filter ← whereClause inner
  pure ⟨top, target, sources, filter⟩

def truncation : Parser StatementKind := do
  skip
  expectKeyword .TABLE
  .truncation <$> objectName

/-! ## Variables and options -/

/-- What follows the name of a declared variable. Cursors are not modelled. -/
def declarationKind : Parser DeclarationKind := do
  if ← consumeKeyword .TABLE then .table <$> tableDefinition inner
  else if ← atKeyword .CURSOR then failUnsupported
  else
    let type ← dataType
    let value ← optionIf (consume .eq) inner.expression
    pure (.scalar type value)

def declaration : Parser Declaration :=
  spanned (fun (name, kind) span => ⟨name, kind, span⟩) do
    let name ← variableName
    let _ ← consumeKeyword .AS
    let kind ← declarationKind inner
    pure (name, kind)

def declarations : Parser StatementKind := do
  expectKeyword .DECLARE
  .declaration <$> commaSeparated (declaration inner)

def setVariable : Parser StatementKind := do
  let name ← variableName
  let op ← assignmentMark
  let value ← inner.expression
  pure (.setVariable name op value)

/-- The words of a `SET` option found so far, the last first, and its value. -/
structure OptionWords where
  words : List Ident
  value : Option Ident

/-- The value of an option ends it. -/
def isOptionValue : TokenKind → Bool
  | .keyword .ON | .keyword .OFF | .numberLiteral | .stringLiteral | .nationalStringLiteral
  | .localVariable => true
  | _ => false

def isOptionWord : TokenKind → Bool
  | .identifier | .quotedIdentifier | .keyword _ => true
  | _ => false

/-- The next word or value of an option; commas and periods are skipped. -/
def optionStep (found : OptionWords) : Parser (Option OptionWords) := do
  match found.value, ← current with
  | some _, _ => pure none
  | none, none => pure none
  | none, some t =>
    if isOptionValue t.kind then
      let value ← anyIdent
      pure (some { found with value := some value })
    else if t.kind = .comma || t.kind = .period then
      skip
      pure (some found)
    else if ← look fun ts pos => isOptionWord t.kind && !atBoundary ts pos then
      let word ← anyIdent
      pure (some { found with words := word :: found.words })
    else pure none

def setOption : Parser StatementKind := do
  let found ← iterate optionStep ⟨[], none⟩
  if found.words.isEmpty then failExpected "SET option"
  else pure (.setOption found.words.reverse found.value)

def setStatement : Parser StatementKind := do
  expectKeyword .SET
  if ← atKind .localVariable then setVariable inner else setOption

/-! ## Control flow -/

/-- `ELSE` after any semicolons, which are left alone if it does not follow. -/
def elsePart : Parser (Option Statement) := fun ts pos =>
  match (do
    repeatWhile (consume .semicolon)
    consumeKeyword .ELSE : Parser Bool) ts pos with
  | .error e => .error e
  | .ok (true, after) =>
    match inner.statement ts after with
    | .error e => .error e
    | .ok (statement, after) => .ok (some statement, after)
  | .ok (false, _) => .ok (none, pos)

def conditional : Parser StatementKind := do
  expectKeyword .IF
  let condition ← inner.expression
  let consequent ← inner.statement
  let alternative ← elsePart inner
  pure (.conditional condition consequent alternative)

def loop : Parser StatementKind := do
  skip
  let condition ← inner.expression
  let body ← inner.statement
  pure (.loop condition body)

/-- Whether the name of a transaction stands at `pos`. -/
def atTransactionName (ts : Terminals) (pos : Nat) : Bool :=
  ts.isKind pos .localVariable ||
    (ts.isIdentifier pos && ts.onSameLine pos && !ts.isSeparator pos)

def transactionName : Parser (Option Ident) := optionIf (look atTransactionName) anyIdent

def transactionWord : Parser Bool := do
  if ← consumeKeyword .TRAN then pure true
  else if ← consumeKeyword .TRANSACTION then pure true
  else consumeWord "WORK"

/-- `COMMIT` or `ROLLBACK`; a name may follow only the word for transaction. -/
def transactionEnd (kind : TransactionKind) : Parser StatementKind := do
  skip
  if ← transactionWord then .transaction kind <$> transactionName
  else pure (.transaction kind none)

/-- `BEGIN TRY … END TRY BEGIN CATCH … END CATCH`; the first two words have been read. -/
def tryCatch : Parser StatementKind := do
  let attempt ← statementList inner true
  expectKeyword .END
  expectWord "TRY"
  expectKeyword .BEGIN
  expectWord "CATCH"
  let handler ← statementList inner true
  expectKeyword .END
  expectWord "CATCH"
  pure (.tryCatch attempt handler)

def block : Parser StatementKind := do
  expectKeyword .BEGIN
  let statements ← statementList inner true
  expectKeyword .END
  pure (.block statements)

def begins : Parser StatementKind := do
  if ← look fun ts pos => ts.isKeyword (pos + 1) .TRAN || ts.isKeyword (pos + 1) .TRANSACTION then
    skipTwo
    .transaction .begin <$> transactionName
  else if ← look fun ts pos => ts.isWord (pos + 1) "TRY" then
    skipTwo
    tryCatch inner
  else if ← look fun ts pos => ts.isWord (pos + 1) "DISTRIBUTED" then failUnsupported
  else block inner

/-- Whether the value of `RETURN` begins at `pos`. A name is one only on the line of that word. -/
def atReturnValue (ts : Terminals) (pos : Nat) : Bool :=
  match ts.token? pos with
  | none => false
  | some t =>
    match t.kind with
    | .localVariable | .stringLiteral | .nationalStringLiteral | .numberLiteral | .binaryLiteral
    | .leftParen | .minus | .plus | .tilde | .keyword .NULL | .keyword .CASE | .keyword .CAST
    | .keyword .CONVERT | .keyword .EXISTS => true
    | .identifier | .quotedIdentifier => ts.onSameLine pos && !ts.isSeparator pos
    | _ => false

def returning : Parser StatementKind := do
  skip
  .returning <$> optionIf (look atReturnValue) inner.expression

def print : Parser StatementKind := do
  skip
  .print <$> inner.expression

/-- A statement that is known by its first word, the rest of which `rest` skips. -/
def unmodelled (t : Token) (rest : Parser Unit) : Parser StatementKind := do
  skip
  rest
  pure (.unmodelled (String.ofList (Text.upperAscii t.text.toList)))

/-! ## Statements -/

/-- The statement that begins with the terminal `t`. -/
def statementKind (t : Token) : Parser StatementKind :=
  match t.kind with
  | .keyword .SELECT | .keyword .WITH | .leftParen => .select <$> inner.query
  | .keyword .INSERT => .insertion <$> insertion inner
  | .keyword .UPDATE => .update <$> update inner
  | .keyword .DELETE => .deletion <$> deletion inner
  | .keyword .CREATE => create inner
  | .keyword .ALTER => alter inner
  | .keyword .DROP => drop
  | .keyword .TRUNCATE => truncation
  | .keyword .EXEC | .keyword .EXECUTE => .execution <$> execution inner
  | .keyword .DECLARE => declarations inner
  | .keyword .SET => setStatement inner
  | .keyword .IF => conditional inner
  | .keyword .WHILE => loop inner
  | .keyword .BEGIN => begins inner
  | .keyword .COMMIT => transactionEnd .commit
  | .keyword .ROLLBACK => transactionEnd .rollback
  | .keyword .RETURN => returning inner
  | .keyword .PRINT => print inner
  | .keyword .BREAK => do
    skip
    pure .breakLoop
  | .keyword .CONTINUE => do
    skip
    pure .continueLoop
  | .keyword .MERGE => unmodelled t skipToTerminator
  | .keyword .RAISERROR | .keyword .WAITFOR | .keyword .USE | .keyword .GOTO =>
    unmodelled t skipStatement
  | .identifier => if t.isWord "THROW" then unmodelled t skipStatement else failUnsupported
  | _ => failUnsupported

def statement : Parser Statement := spanned Statement.mk do
  match ← current with
  | some t => statementKind inner t
  | none => failExpected "statement"

end TransactLint.Grammar
