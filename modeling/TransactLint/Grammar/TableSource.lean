import TransactLint.Grammar.Expression

/-!
# The grammar of table sources

A table source is a table, a derived table, a table function or a source in parentheses, followed by
any number of joins, which group to the left.
-/

namespace TransactLint.Grammar

open TransactLint.Parser

variable [Repetition] (inner : Level)

def tableAlias : Parser (Option Ident) := do
  if ← consumeKeyword .AS then some <$> ident
  else if ← look Terminals.isBareAlias then some <$> ident
  else pure none

/-! ## Hints -/

def atHint (ts : Terminals) (pos : Nat) : Bool :=
  match ts.token? pos with
  | some t =>
    match t.kind with
    | .identifier | .quotedIdentifier | .keyword _ => true
    | _ => false
  | none => false

/-- A table hint; its arguments are skipped. -/
def tableHint : Parser Ident := do
  if ← look atHint then
    let hint ← anyIdent
    if ← atKind .leftParen then skipParenthesized
    else if ← consume .eq then skip
    pure hint
  else failExpected "table hint"

def tableHints : Parser (List Ident) :=
  listIf (consumePair (.keyword .WITH) .leftParen) do
    let hints ← commaSeparated tableHint
    expect .rightParen
    pure hints

/-! ## Sources without joins -/

/-- A derived table; its opening parenthesis has been read. -/
def derivedTable : Parser TableSourceKind := do
  let query ← inner.query
  expect .rightParen
  let aliasName ← tableAlias
  let columns ← listIf (do pure (aliasName.isSome && (← atKind .leftParen))) identList
  pure (.derived query aliasName columns)

/-- The call of the table function `name`. -/
def tableFunction (name : ObjectName) : Parser TableSourceKind := do
  expect .leftParen
  let empty ← atKind .rightParen
  let arguments ← listIf (pure !empty) (expressionList inner)
  expect .rightParen
  let aliasName ← tableAlias
  pure (.function name arguments aliasName)

/-- A table or a table function. -/
def namedSource : Parser TableSourceKind := do
  let name ← objectName
  if ← atKind .leftParen then tableFunction inner name
  else
    let aliasName ← tableAlias
    let hints ← tableHints
    pure (.named name aliasName hints)

/-! ## Joins -/

def outerJoin (join : QualifiedJoin) : Parser QualifiedJoin := do
  let _ ← consumeKeyword .OUTER
  pure join

/-- The words before `JOIN` and a hint. -/
def joinKind : Parser (Option QualifiedJoin) := do
  if ← consumeKeyword .INNER then pure (some .inner)
  else if ← consumeKeyword .LEFT then some <$> outerJoin .leftOuter
  else if ← consumeKeyword .RIGHT then some <$> outerJoin .rightOuter
  else if ← consumeKeyword .FULL then some <$> outerJoin .fullOuter
  else if ← atKeyword .JOIN then pure (some .inner)
  else pure none

def joinHints : List String := ["LOOP", "HASH", "MERGE", "REMOTE"]

/-- `[INNER | {LEFT | RIGHT | FULL} [OUTER]] [hint] JOIN`. -/
def qualifiedJoin : Parser (Option QualifiedJoin) := do
  match ← joinKind with
  | none => pure none
  | some join =>
    if ← look fun ts pos => joinHints.any (ts.isWord pos) then skip
    expectKeyword .JOIN
    pure (some join)

/-- `CROSS JOIN`, `CROSS APPLY` or `OUTER APPLY`. -/
def unqualifiedJoin : Parser (Option UnqualifiedJoin) := do
  if ← consumeKeyword .CROSS then
    if ← consumeKeyword .JOIN then pure (some .crossJoin)
    else
      expectWord "APPLY"
      pure (some .crossApply)
  else if ← atKeywordWord .OUTER "APPLY" then
    skipTwo
    pure (some .outerApply)
  else pure none

/-- One join after `left`, which begins at `start`. -/
def joinStep (factor : Parser TableSource) (start : Nat) (left : TableSource) :
    Parser (Option TableSource) := do
  match ← qualifiedJoin with
  | some join =>
    let right ← factor
    expectKeyword .ON
    let condition ← inner.expression
    let span ← spanFrom start
    pure (some ⟨.qualifiedJoin join left right condition, span⟩)
  | none =>
    match ← unqualifiedJoin with
    | some join =>
      let right ← factor
      let span ← spanFrom start
      pure (some ⟨.unqualifiedJoin join left right, span⟩)
    | none => pure none

/-- A source without joins, and the joins after it. -/
def joined (factor : Parser TableSource) : Parser TableSource := do
  let start ← position
  let first ← factor
  iterate (joinStep inner factor start) first

/-- A source in parentheses, which may hold joins; its opening parenthesis has been read. -/
def parenthesizedSource (factor : Parser TableSource) : Parser TableSourceKind := do
  let source ← joined inner factor
  expect .rightParen
  pure (.parenthesized source)

/-- A source without joins, inside at most `n` further parentheses. Parentheses of this sort are not
a level of nesting; each reads a terminal. -/
def factorWithin : Nat → Parser TableSource
  | 0 => spanned TableSource.mk (namedSource inner)
  | n + 1 => spanned TableSource.mk do
    if ← consume .leftParen then
      if ← look Terminals.startsQuery then derivedTable inner
      else parenthesizedSource inner (factorWithin n)
    else namedSource inner

/-- A source without joins. -/
def tableFactor : Parser TableSource := fun ts pos =>
  factorWithin inner (ts.size - pos + 1) ts pos

def tableSource : Parser TableSource := joined inner (tableFactor inner)

def tableSources : Parser (List TableSource) := commaSeparated (tableSource inner)

end TransactLint.Grammar
