import TransactLint.Grammar.Expression

/-!
# The grammar of `EXECUTE`
-/

namespace TransactLint.Grammar

open TransactLint.Parser

variable [Repetition] (inner : Level)

/-- Whether an argument begins at `pos`. A bare name is one only on the line of the terminal before
it. -/
def atArgument (ts : Terminals) (pos : Nat) : Bool :=
  match ts.token? pos with
  | none => false
  | some t =>
    match t.kind with
    | .localVariable | .stringLiteral | .nationalStringLiteral | .numberLiteral | .binaryLiteral
    | .minus | .plus | .keyword .NULL | .keyword .DEFAULT => true
    | .identifier | .quotedIdentifier => ts.onSameLine pos && !ts.isSeparator pos
    | _ => false

/-- `@name =`, if it stands here. -/
def variableBeforeEq : Parser (Option Ident) :=
  optionIf (atPair .localVariable .eq) do
    let name ← variableName
    skip
    pure name

def outputMark : Parser Bool := do
  if ← consumeWord "OUTPUT" then pure true else consumeWord "OUT"

def argument : Parser Argument :=
  spanned (fun (name, value, output) span => ⟨name, value, output, span⟩) do
    let name ← variableBeforeEq
    let value ← inner.expression
    let output ← outputMark
    pure (name, value, output)

/-- `EXECUTE`; the current terminal is that word. -/
def execution : Parser Execution := do
  skip
  if ← consume .leftParen then
    let text ← inner.expression
    expect .rightParen
    pure ⟨none, .dynamic text⟩
  else
    let returnVariable ← variableBeforeEq
    let name ← objectName
    let arguments ← listIf (look atArgument) (commaSeparated (argument inner))
    if ← atKeywordWord .WITH "RECOMPILE" then skipTwo
    pure ⟨returnVariable, .procedure name arguments⟩

end TransactLint.Grammar
