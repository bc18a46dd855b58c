import TransactLint.Grammar.Terminals
import TransactLint.ParseError

/-!
# Parsers

A parser reads terminals from a position and gives a value with the position after it, or says why
there is none. No failure is ever caught. The grammar leaves open how its repetitions are carried out;
unless something else is said they are bounded by the number of terminals left, for every round of a
repetition reads at least one.
-/

namespace TransactLint

def Parser (α : Type) : Type := Terminals → Nat → Except ParseError (α × Nat)

namespace Parser

variable {α β σ κ : Type}

instance : Monad Parser where
  pure a := fun _ pos => .ok (a, pos)
  bind p f := fun ts pos =>
    match p ts pos with
    | .error e => .error e
    | .ok (a, pos) => f a ts pos

/-- What can be seen from the current position. -/
def look (f : Terminals → Nat → α) : Parser α := fun ts pos => .ok (f ts pos, pos)

def position : Parser Nat := look fun _ pos => pos

def current : Parser (Option Token) := look fun ts pos => ts.token? pos

def atEnd : Parser Bool := look fun ts pos => ts.size ≤ pos

def atKind (kind : TokenKind) : Parser Bool := look fun ts pos => ts.isKind pos kind

def atKeyword (word : Keyword) : Parser Bool := look fun ts pos => ts.isKeyword pos word

def atWord (word : String) : Parser Bool := look fun ts pos => ts.isWord pos word

/-- Whether the terminal after the current one is of the given kind. -/
def nextIs (kind : TokenKind) : Parser Bool := look fun ts pos => ts.isKind (pos + 1) kind

/-- Whether the current and the next terminal are these two. -/
def atPair (first second : TokenKind) : Parser Bool :=
  look fun ts pos => ts.isKind pos first && ts.isKind (pos + 1) second

/-- Whether the current terminal is a keyword and the next one a bare word. -/
def atKeywordWord (first : Keyword) (second : String) : Parser Bool :=
  look fun ts pos => ts.isKeyword pos first && ts.isWord (pos + 1) second

def failExpected (what : String) : Parser α := fun ts pos =>
  match ts.token? pos with
  | some t => .error (.unexpected what t.text t.start)
  | none => .error (.unexpectedEnd what)

def failUnsupported : Parser α := fun ts pos =>
  match ts.token? pos with
  | some t => .error (.unsupported (String.ofList (Text.upperAscii t.text.toList)) t.start)
  | none => .error (.unexpectedEnd "statement")

def failTooDeep : Parser α := fun ts pos =>
  match ts.token? pos with
  | some t => .error (.tooDeep t.start)
  | none => .error (.tooDeep ⟨0, 0⟩)

/-- Moves over the current terminal, if there is one. -/
def skip : Parser Unit := fun ts pos => .ok ((), if pos < ts.size then pos + 1 else pos)

def skipTwo : Parser Unit := do
  skip
  skip

def consume (kind : TokenKind) : Parser Bool := do
  if ← atKind kind then
    skip
    pure true
  else pure false

def consumeKeyword (word : Keyword) : Parser Bool := consume (.keyword word)

def consumeWord (word : String) : Parser Bool := do
  if ← atWord word then
    skip
    pure true
  else pure false

/-- Reads both terminals or neither. -/
def consumePair (first second : TokenKind) : Parser Bool := do
  if ← atPair first second then
    skipTwo
    pure true
  else pure false

def expect (kind : TokenKind) : Parser Unit := do
  if ← atKind kind then skip else failExpected kind.describe

def expectKeyword (word : Keyword) : Parser Unit := expect (.keyword word)

def expectWord (word : String) : Parser Unit := do
  if ← atWord word then skip else failExpected word

/-- Either of two words. -/
def expectEither (first second : String) : Parser Unit := do
  if ← consumeWord first then pure () else expectWord second

/-- What `p` reads, with its span. -/
def spanned (make : κ → Span → α) (p : Parser κ) : Parser α := fun ts start =>
  match p ts start with
  | .error e => .error e
  | .ok (k, pos) => .ok (make k (ts.span start pos), pos)

/-- The span from `start` to the current position. -/
def spanFrom (start : Nat) : Parser Span := look fun ts pos => ts.span start pos

/-- Runs `p` if the condition holds. -/
def optionIf (condition : Parser Bool) (p : Parser α) : Parser (Option α) := do
  if ← condition then
    let a ← p
    pure (some a)
  else pure none

/-- Runs `p` if the condition holds, and gives the empty list otherwise. -/
def listIf (condition : Parser Bool) (p : Parser (List α)) : Parser (List α) := do
  if ← condition then p else pure []

/-- At most `n` rounds of `step`, each from what the last one gave. -/
def rounds (step : σ → Parser (Option σ)) : Nat → σ → Parser σ
  | 0, s => fun _ pos => .ok (s, pos)
  | n + 1, s => fun ts pos =>
    match step s ts pos with
    | .error e => .error e
    | .ok (none, pos) => .ok (s, pos)
    | .ok (some s, pos) => rounds step n s ts pos

/-- A way to repeat a step until it gives nothing. -/
class Repetition where
  run : {σ : Type} → (σ → Parser (Option σ)) → σ → Parser σ

/-- As many rounds as are allowed from the position at which they begin. -/
@[reducible]
def Repetition.within (allowed : Terminals → Nat → Nat) : Repetition where
  run step s := fun ts pos => rounds step (allowed ts pos) s ts pos

/-- A round for each terminal left, and one that gives nothing. -/
instance : Repetition := .within fun ts pos => ts.size - pos + 1

variable [Repetition]

/-- Rounds of `step` until one gives nothing. -/
def iterate (step : σ → Parser (Option σ)) (s : σ) : Parser σ := Repetition.run step s

/-- Reads as many items as there are. -/
def many (item : Parser (Option α)) : Parser (List α) := do
  let found ← iterate (fun found => do
    match ← item with
    | some a => pure (some (a :: found))
    | none => pure none) []
  pure found.reverse

/-- Repeats `step` while it succeeds in reading something. -/
def repeatWhile (step : Parser Bool) : Parser Unit :=
  iterate (fun _ => do if ← step then pure (some ()) else pure none) ()

def commaSeparated (item : Parser α) : Parser (List α) := do
  let first ← item
  let rest ← many (optionIf (consume .comma) item)
  pure (first :: rest)

/-- Operands with operators between them, combined from the left. -/
def leftChain (operand : Parser α) (operator : Parser (Option β))
    (make : β → α → α → Span → α) : Parser α := do
  let start ← position
  let first ← operand
  iterate (fun left => do
    match ← operator with
    | some op =>
      let right ← operand
      let span ← spanFrom start
      pure (some (make op left right span))
    | none => pure none) first

/-- The current terminal, which is then read. -/
def take : Parser (Option Token) := do
  let token ← current
  skip
  pure token

/-- The depth of parentheses after a token. -/
def parenDepth (depth : Nat) (kind : TokenKind) : Nat :=
  match kind with
  | .leftParen => depth + 1
  | .rightParen => depth - 1
  | _ => depth

/-- Skips terminals until one outside of parentheses satisfies `stop`, or to the end. -/
def skipUntil (stop : Terminals → Nat → Bool) : Parser Unit := do
  let _ ← iterate (fun depth => do
    if ← look fun ts pos => depth == 0 && stop ts pos then pure none
    else
      match ← take with
      | some t => pure (some (parenDepth depth t.kind))
      | none => pure none) 0
  pure ()

/-- Skips a balanced group in parentheses. -/
def skipParenthesized : Parser Unit := do
  expect .leftParen
  let _ ← iterate (fun depth => do
    if depth = 0 then pure none
    else
      match ← take with
      | some t => pure (some (parenDepth depth t.kind))
      | none => failExpected "`)`") 1
  pure ()

end Parser

end TransactLint
