import TransactLint.Grammar.Parser
import TransactLint.Tree.Name

/-!
# The grammar of names and data types
-/

namespace TransactLint.Grammar

open TransactLint.Parser

variable [Repetition]

/-- The delimiter that a token brings to a name. -/
def quoteOf (t : Token) : Option Char :=
  match t.kind with
  | .quotedIdentifier => t.text.toList.head?
  | .stringLiteral | .nationalStringLiteral => some '\''
  | _ => none

/-- The current terminal as a name, whatever its kind. -/
def anyIdent : Parser Ident := spanned (fun t span => ⟨t.value, quoteOf t, span⟩) do
  match ← take with
  | some t => pure t
  | none => failExpected "identifier"

def ident : Parser Ident := do
  if ← look Terminals.isIdentifier then anyIdent else failExpected "identifier"

def variableName : Parser Ident := do
  if ← atKind .localVariable then anyIdent else failExpected "variable"

/-- A part after one or more periods, unless a star follows the first. -/
def nextPart : Parser (Option Ident) :=
  optionIf (look fun ts pos => ts.isKind pos .period && !ts.isKind (pos + 1) .star) do
    repeatWhile (consume .period)
    ident

/-- Parts between periods. The first may be a variable, which names a table variable. -/
def objectName : Parser ObjectName := spanned ObjectName.mk do
  let first ← if ← atKind .localVariable then variableName else ident
  let rest ← many nextPart
  pure (first :: rest)

/-- A list of identifiers in parentheses. -/
def identList : Parser (List Ident) := do
  expect .leftParen
  let names ← commaSeparated ident
  expect .rightParen
  pure names

def typeArgument : Parser String := do
  match ← current with
  | some t =>
    match t.kind with
    | .numberLiteral | .identifier =>
      skip
      pure t.value
    | _ => failExpected "type argument"
  | none => failExpected "type argument"

def dataType : Parser DataType :=
  spanned (fun (name, arguments) span => ⟨name, arguments, span⟩) do
    let name ← objectName
    let arguments ← listIf (consume .leftParen) do
      let arguments ← commaSeparated typeArgument
      expect .rightParen
      pure arguments
    pure (name, arguments)

end TransactLint.Grammar
