import TransactLint.Grammar.Level
import TransactLint.Grammar.Name

/-!
# The grammar of expressions

From the loosest: `OR`, `AND`, `NOT`, comparisons and predicates, additive and bitwise operators,
multiplicative operators, signs. Operators of one level group to the left.
-/

namespace TransactLint.Grammar

open TransactLint.Parser

variable [Repetition] (inner : Level)

def binaryExpr (op : BinaryOperator) (left right : Expr) (span : Span) : Expr :=
  ⟨.binary op left right, span⟩

def expressionList : Parser (List Expr) := commaSeparated inner.expression

/-! ## Ordering -/

def sortDirection : Parser (Option SortDirection) := do
  if ← consumeKeyword .ASC then pure (some .ascending)
  else if ← consumeKeyword .DESC then pure (some .descending)
  else pure none

def orderItem : Parser OrderItem :=
  spanned (fun (expr, direction) span => ⟨expr, direction, span⟩) do
    let expr ← inner.expression
    let direction ← sortDirection
    pure (expr, direction)

def orderBy : Parser (List OrderItem) := do
  expectKeyword .ORDER
  expectKeyword .BY
  commaSeparated (orderItem inner)

/-! ## Calls -/

/-- The arguments of a call in parentheses, and whether they are distinct. -/
def callArguments : Parser (Bool × List Expr) := do
  expect .leftParen
  let arguments ← do
    if ← atKind .rightParen then pure (false, [])
    else
      let distinct ← consumeKeyword .DISTINCT
      let _ ← if distinct then pure false else consumeKeyword .ALL
      let arguments ← expressionList inner
      pure (distinct, arguments)
  expect .rightParen
  pure arguments

def withinGroup : Parser (List OrderItem) :=
  listIf (look fun ts pos => ts.isWord pos "WITHIN" && ts.isKeyword (pos + 1) .GROUP) do
    skipTwo
    expect .leftParen
    let items ← orderBy inner
    expect .rightParen
    pure items

/-- The partition and order of a window in parentheses; what follows them is skipped. -/
def windowBody : Parser Window :=
  spanned (fun (partition, order) span => ⟨partition, order, span⟩) do
    expect .leftParen
    let partition ←
      listIf (look fun ts pos => ts.isWord pos "PARTITION" && ts.isKeyword (pos + 1) .BY) do
        skipTwo
        expressionList inner
    let order ← listIf (atKeyword .ORDER) (orderBy inner)
    skipUntil fun ts pos => ts.isKind pos .rightParen
    expect .rightParen
    pure (partition, order)

/-- A call of the function `name`. -/
def call (name : ObjectName) : Parser ExprKind := do
  let (distinct, arguments) ← callArguments inner
  let group ← withinGroup inner
  let window ← optionIf (consumeKeyword .OVER) (windowBody inner)
  pure (.call name distinct arguments group window)

def castCall (function : ConversionFunction) : Parser ExprKind := do
  skip
  expect .leftParen
  let operand ← inner.expression
  expectKeyword .AS
  let target ← dataType
  expect .rightParen
  pure (.conversion function target operand none)

def convertCall (function : ConversionFunction) : Parser ExprKind := do
  skip
  expect .leftParen
  let target ← dataType
  expect .comma
  let operand ← inner.expression
  let style ← optionIf (consume .comma) inner.expression
  expect .rightParen
  pure (.conversion function target operand style)

/-! ## Primary expressions -/

def literal (kind : LiteralKind) (t : Token) : Parser ExprKind := do
  skip
  pure (.literal kind t.value)

/-- A number with a period or an exponent is not an integer. -/
def numberKind (value : String) : LiteralKind :=
  if value.toList.any fun c => c = '.' || c = 'e' || c = 'E' then .numeric else .integer

def whenClause : Parser WhenClause :=
  spanned (fun (condition, result) span => ⟨condition, result, span⟩) do
    expectKeyword .WHEN
    let condition ← inner.expression
    expectKeyword .THEN
    let result ← inner.expression
    pure (condition, result)

def choice : Parser ExprKind := do
  expectKeyword .CASE
  let searched ← atKeyword .WHEN
  let operand ← optionIf (pure !searched) inner.expression
  let branches ← many (optionIf (atKeyword .WHEN) (whenClause inner))
  if branches.isEmpty then failExpected "WHEN"
  else
    let otherwise ← optionIf (consumeKeyword .ELSE) inner.expression
    expectKeyword .END
    pure (.choice operand branches otherwise)

/-- A query or an expression in parentheses. -/
def parenthesized : Parser ExprKind := do
  expect .leftParen
  if ← look Terminals.startsQuery then
    let query ← inner.query
    expect .rightParen
    pure (.subquery query)
  else
    let expr ← inner.expression
    expect .rightParen
    pure (.nested expr)

def existence : Parser ExprKind := do
  skip
  expect .leftParen
  let query ← inner.query
  expect .rightParen
  pure (.existence query)

/-- A column, or a call if a parenthesis follows the name. -/
def columnOrCall : Parser ExprKind := do
  let name ← objectName
  if ← atKind .leftParen then call inner name else pure (.column name.parts)

/-- `LEFT` and `RIGHT` before a parenthesis are functions. -/
def keywordCall : Parser ExprKind := do
  if ← nextIs .leftParen then
    let name ← anyIdent
    call inner (.ofIdent name)
  else failExpected "expression"

/-- An expression that begins with a bare identifier. -/
def wordExpression (t : Token) : Parser ExprKind := do
  let isCall ← nextIs .leftParen
  if isCall && t.isWord "TRY_CAST" then castCall inner .tryCast
  else if isCall && t.isWord "TRY_CONVERT" then convertCall inner .tryConvert
  else columnOrCall inner

/-- The primary expression that begins with the terminal `t`. -/
def primaryKind (t : Token) : Parser ExprKind :=
  match t.kind with
  | .stringLiteral => literal .string t
  | .nationalStringLiteral => literal .nationalString t
  | .binaryLiteral => literal .binary t
  | .numberLiteral => literal (numberKind t.value) t
  | .keyword .NULL => literal .null t
  | .keyword .DEFAULT => literal .defaultValue t
  | .localVariable => do pure (.localVariable (← variableName))
  | .star => do
    skip
    pure .wildcard
  | .leftParen => parenthesized inner
  | .keyword .CASE => choice inner
  | .keyword .CAST => castCall inner .cast
  | .keyword .CONVERT => convertCall inner .convert
  | .keyword .EXISTS => existence inner
  | .keyword .LEFT | .keyword .RIGHT => keywordCall inner
  | .identifier => wordExpression inner t
  | .quotedIdentifier => columnOrCall inner
  | _ => failExpected "expression"

def primary : Parser Expr := spanned Expr.mk do
  match ← current with
  | some t => primaryKind inner t
  | none => failExpected "expression"

/-! ## Operators -/

def signOperator : TokenKind → Option UnaryOperator
  | .minus => some .minus
  | .plus => some .plus
  | .tilde => some .bitNot
  | _ => none

/-- The operator that `table` gives to the current terminal. Before `=` it belongs to a compound
assignment and ends the expression. -/
def chainOperator (table : TokenKind → Option BinaryOperator) : Parser (Option BinaryOperator) := do
  match ← current with
  | none => pure none
  | some t =>
    match table t.kind with
    | none => pure none
    | some op =>
      if ← nextIs .eq then pure none
      else
        skip
        pure (some op)

def multiplicativeOperator : TokenKind → Option BinaryOperator
  | .star => some .multiply
  | .slash => some .divide
  | .percent => some .modulo
  | _ => none

def additiveOperator : TokenKind → Option BinaryOperator
  | .plus => some .add
  | .minus => some .subtract
  | .ampersand => some .bitAnd
  | .pipe => some .bitOr
  | .caret => some .bitXor
  | _ => none

/-- The operator that a keyword stands for. -/
def keywordOperator (word : Keyword) (op : BinaryOperator) : Parser (Option BinaryOperator) :=
  optionIf (consumeKeyword word) (pure op)

def unary : Parser Expr := do
  match (← current).bind fun t => signOperator t.kind with
  | some op => spanned (fun operand span => ⟨.unary op operand, span⟩) do
    skip
    inner.signed
  | none => primary inner

def multiplicative : Parser Expr :=
  leftChain (unary inner) (chainOperator multiplicativeOperator) binaryExpr

def additive : Parser Expr :=
  leftChain (multiplicative inner) (chainOperator additiveOperator) binaryExpr

/-- A comparison operator and the number of its terminals, if one stands at `pos`. -/
def comparisonAt (ts : Terminals) (pos : Nat) : Option (BinaryOperator × Nat) :=
  match ts.token? pos with
  | none => none
  | some t =>
    match t.kind with
    | .eq => some (.eq, 1)
    | .notEq => some (.notEq, 1)
    | .lt => some (.lt, 1)
    | .gt => some (.gt, 1)
    | .ltEq => some (.ltEq, 1)
    | .gtEq => some (.gtEq, 1)
    | .bang =>
      if ts.isKind (pos + 1) .lt then some (.notLt, 2)
      else if ts.isKind (pos + 1) .gt then some (.notGt, 2)
      else none
    | _ => none

/-- Whether `NOT` stands before `IN`, `BETWEEN` or `LIKE`. -/
def atNegatedPredicate (ts : Terminals) (pos : Nat) : Bool :=
  ts.isKeyword pos .NOT &&
    (ts.isKeyword (pos + 1) .IN || ts.isKeyword (pos + 1) .BETWEEN || ts.isKeyword (pos + 1) .LIKE)

/-- What follows `IN`. -/
def inPredicate (operand : Expr) (negated : Bool) : Parser ExprKind := do
  expect .leftParen
  if ← look Terminals.startsQuery then
    let query ← inner.query
    expect .rightParen
    pure (.inSubquery operand query negated)
  else
    let list ← expressionList inner
    expect .rightParen
    pure (.inList operand list negated)

/-- What follows `BETWEEN`. -/
def betweenPredicate (operand : Expr) (negated : Bool) : Parser ExprKind := do
  let low ← additive inner
  expectKeyword .AND
  let high ← additive inner
  pure (.between operand low high negated)

/-- What follows `LIKE`. -/
def likePredicate (operand : Expr) (negated : Bool) : Parser ExprKind := do
  let pattern ← additive inner
  let escape ← optionIf (consumeKeyword .ESCAPE) (additive inner)
  pure (.like operand pattern escape negated)

/-- What follows `IS`. -/
def nullPredicate (operand : Expr) : Parser ExprKind := do
  let negated ← consumeKeyword .NOT
  expectKeyword .NULL
  pure (.isNull operand negated)

/-- What may follow the first operand of a predicate, if anything does. -/
def predicateTail (operand : Expr) : Parser (Option ExprKind) := do
  match ← look comparisonAt with
  | some (op, size) =>
    if size = 2 then skipTwo else skip
    let right ← additive inner
    pure (some (.binary op operand right))
  | none =>
    if ← consumeKeyword .IS then some <$> nullPredicate operand
    else
      let negated ← look atNegatedPredicate
      if negated then skip
      if ← consumeKeyword .IN then some <$> inPredicate inner operand negated
      else if ← consumeKeyword .BETWEEN then some <$> betweenPredicate inner operand negated
      else if ← consumeKeyword .LIKE then some <$> likePredicate inner operand negated
      else pure none

def predicate : Parser Expr := do
  let start ← position
  let operand ← additive inner
  match ← predicateTail inner operand with
  | some kind =>
    let span ← spanFrom start
    pure ⟨kind, span⟩
  | none => pure operand

def negation : Parser Expr := do
  if ← atKeyword .NOT then
    spanned (fun operand span => ⟨.unary .not operand, span⟩) do
      skip
      inner.negated
  else predicate inner

def conjunction : Parser Expr :=
  leftChain (negation inner) (keywordOperator .AND .and) binaryExpr

def disjunction : Parser Expr :=
  leftChain (conjunction inner) (keywordOperator .OR .or) binaryExpr

end TransactLint.Grammar
