import TransactLint.Grammar.TableSource

/-!
# The grammar of queries
-/

namespace TransactLint.Grammar

open TransactLint.Parser

variable [Repetition] (inner : Level)

def whereClause : Parser (Option WhereClause) :=
  optionIf (atKeyword .WHERE) (spanned WhereClause.mk do
    skip
    inner.expression)

/-! ## `TOP` -/

/-- The number of rows: an expression in parentheses, which leave no trace, or a primary one. -/
def topCount : Parser Expr := do
  if ← consume .leftParen then
    let expr ← inner.expression
    expect .rightParen
    pure expr
  else primary inner

def topClause : Parser TopClause :=
  spanned (fun (expr, percent, withTies) span => ⟨expr, percent, withTies, span⟩) do
    expectKeyword .TOP
    let expr ← topCount inner
    let percent ← consumeKeyword .PERCENT
    let withTies ← atKeywordWord .WITH "TIES"
    if withTies then skipTwo
    pure (expr, percent, withTies)

def optionalTop : Parser (Option TopClause) := optionIf (atKeyword .TOP) (topClause inner)

/-! ## Select lists -/

/-- A column alias, which may be a string. -/
def columnAlias : Parser Ident := do
  if ← look Terminals.isString then anyIdent else ident

def optionalColumnAlias : Parser (Option Ident) := do
  if ← consumeKeyword .AS then some <$> columnAlias
  else
    optionIf (look fun ts pos => ts.isBareAlias pos || ts.isString pos) columnAlias

def qualifiedStar : Parser SelectElementKind := do
  let qualifier ← objectName
  expect .period
  expect .star
  pure (.wildcard (some qualifier))

/-- `@v = expr`. -/
def selectAssignment : Parser SelectElementKind := do
  let name ← variableName
  expect .eq
  let value ← inner.expression
  pure (.assignment name value)

/-- `alias = expr`. -/
def leadingAlias : Parser SelectElementKind := do
  let aliasName ← ident
  expect .eq
  let expr ← inner.expression
  pure (.expression expr (some aliasName))

/-- `expr [AS] alias`. -/
def trailingAlias : Parser SelectElementKind := do
  let expr ← inner.expression
  let aliasName ← optionalColumnAlias
  pure (.expression expr aliasName)

def selectElement : Parser SelectElement := spanned SelectElement.mk do
  if ← consume .star then pure (.wildcard none)
  else if ← look Terminals.isQualifiedStar then qualifiedStar
  else if ← atPair .localVariable .eq then selectAssignment inner
  else if ← look fun ts pos => ts.isIdentifier pos && ts.isKind (pos + 1) .eq then
    leadingAlias inner
  else trailingAlias inner

/-! ## Query specifications -/

def groupBy : Parser (List Expr) :=
  listIf (consumePair (.keyword .GROUP) (.keyword .BY)) (expressionList inner)

def specification : Parser QuerySpecification := do
  let start ← position
  expectKeyword .SELECT
  let distinct ← consumeKeyword .DISTINCT
  let _ ← if distinct then pure false else consumeKeyword .ALL
  let top ← optionalTop inner
  let selectList ← commaSeparated (selectElement inner)
  let target ← optionIf (consumeKeyword .INTO) objectName
  let sources ← listIf (consumeKeyword .FROM) (tableSources inner)
  let filter ← whereClause inner
  let groups ← groupBy inner
  let having ← optionIf (consumeKeyword .HAVING) inner.expression
  let span ← spanFrom start
  pure ⟨distinct, top, selectList, target, sources, filter, groups, having, span⟩

/-! ## Set operations -/

def queryTerm : Parser QueryExpr := spanned QueryExpr.mk do
  if ← consume .leftParen then
    let query ← inner.query
    expect .rightParen
    pure (.parenthesized query)
  else if ← atKeyword .SELECT then .specification <$> specification inner
  else failExpected "SELECT"

def setOperator : Parser (Option SetOperator) := do
  if ← consumeKeyword .UNION then pure (some .union)
  else if ← consumeKeyword .EXCEPT then pure (some .except)
  else if ← consumeKeyword .INTERSECT then pure (some .intersect)
  else pure none

/-- A set operator, and whether it keeps duplicates. -/
def setOperation : Parser (Option (SetOperator × Bool)) := do
  match ← setOperator with
  | some op =>
    let all ← consumeKeyword .ALL
    pure (some (op, all))
  | none => pure none

def queryExpr : Parser QueryExpr :=
  leftChain (queryTerm inner) setOperation fun (op, all) left right span =>
    ⟨.setOperation op all left right, span⟩

/-! ## Queries -/

def commonTable : Parser CommonTable :=
  spanned (fun (name, columns, query) span => ⟨name, columns, query, span⟩) do
    let name ← ident
    let columns ← listIf (atKind .leftParen) identList
    expectKeyword .AS
    expect .leftParen
    let query ← inner.query
    expect .rightParen
    pure (name, columns, query)

/-- What follows `FETCH`. -/
def fetchClause : Parser Expr := do
  expectEither "NEXT" "FIRST"
  let count ← inner.expression
  expectEither "ROWS" "ROW"
  expectWord "ONLY"
  pure count

/-- What follows `OFFSET`: the rows to skip and the rows to give. -/
def offsetClause : Parser (Expr × Option Expr) := do
  let offset ← inner.expression
  expectEither "ROWS" "ROW"
  let fetch ← optionIf (consumeKeyword .FETCH) (fetchClause inner)
  pure (offset, fetch)

def query : Parser Query := do
  let start ← position
  let commonTables ← listIf (consumeKeyword .WITH) (commaSeparated (commonTable inner))
  let body ← queryExpr inner
  let order ← listIf (atKeyword .ORDER) (orderBy inner)
  let page ← optionIf (consumeWord "OFFSET") (offsetClause inner)
  if ← consumeKeyword .OPTION then skipParenthesized
  let span ← spanFrom start
  pure ⟨commonTables, body, order, page.map Prod.fst, page.bind Prod.snd, span⟩

end TransactLint.Grammar
