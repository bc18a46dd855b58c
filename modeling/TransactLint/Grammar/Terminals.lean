import TransactLint.Span
import TransactLint.Token

/-!
# Terminals

The grammar reads the significant tokens of a script: those that are neither blank nor comment. The
functions of this module look at the terminals from a position without moving it.
-/

namespace TransactLint

/-- A significant token with its index among all tokens. -/
structure Terminal where
  token : Token
  index : Nat
deriving DecidableEq

abbrev Terminals := Array Terminal

namespace Terminals

def ofTokens (tokens : List Token) : Terminals :=
  ((tokens.zipIdx.filter fun x => !x.1.isTrivia).map fun x => ⟨x.1, x.2⟩).toArray

def token? (ts : Terminals) (pos : Nat) : Option Token :=
  ts[pos]?.map Terminal.token

/-- The terminal before `pos`. -/
def last? (ts : Terminals) (pos : Nat) : Option Terminal :=
  match pos with
  | 0 => none
  | before + 1 => ts[before]?

def isKind (ts : Terminals) (pos : Nat) (kind : TokenKind) : Bool :=
  match ts.token? pos with
  | some t => t.kind == kind
  | none => false

def isKeyword (ts : Terminals) (pos : Nat) (word : Keyword) : Bool :=
  ts.isKind pos (.keyword word)

/-- Whether the bare word `word` stands at `pos`, in any case. -/
def isWord (ts : Terminals) (pos : Nat) (word : String) : Bool :=
  match ts.token? pos with
  | some t => t.isWord word
  | none => false

def isIdentifier (ts : Terminals) (pos : Nat) : Bool :=
  match ts.token? pos with
  | some t => t.isIdentifier
  | none => false

def isString (ts : Terminals) (pos : Nat) : Bool :=
  match ts.token? pos with
  | some t => t.kind.isString
  | none => false

/-- Whether the terminal at `pos` begins on the line on which the one before it begins. -/
def onSameLine (ts : Terminals) (pos : Nat) : Bool :=
  match ts.last? pos, ts.token? pos with
  | some before, some t => before.token.start.line == t.start.line
  | _, _ => false

/-- Whether `GO` stands at `pos`, and the terminal before it begins on an earlier line. -/
def isSeparator (ts : Terminals) (pos : Nat) : Bool :=
  match ts.token? pos with
  | some t =>
    t.kind == .identifier && t.isWord "GO" &&
      match ts.last? pos with
      | some before => before.token.start.line < t.start.line
      | none => true
  | none => false

/-- Whether an identifier stands at `pos` that may be an alias without `AS`. -/
def isBareAlias (ts : Terminals) (pos : Nat) : Bool :=
  ts.isIdentifier pos && !ts.isSeparator pos

/-- The position after at most `n` opening parentheses from `pos` on. -/
def pastParens (ts : Terminals) : Nat → Nat → Nat
  | 0, pos => pos
  | n + 1, pos => if ts.isKind pos .leftParen then pastParens ts n (pos + 1) else pos

/-- Whether a query begins at `pos`: `WITH`, or `SELECT` after any opening parentheses. -/
def startsQuery (ts : Terminals) (pos : Nat) : Bool :=
  ts.isKeyword (ts.pastParens (ts.size - pos) pos) .SELECT || ts.isKeyword pos .WITH

/-- Whether `name.*` with at most `n` parts stands at `pos`. -/
def isStarName (ts : Terminals) : Nat → Nat → Bool
  | 0, _ => false
  | n + 1, pos =>
    ts.isIdentifier pos && ts.isKind (pos + 1) .period &&
      (ts.isKind (pos + 2) .star || isStarName ts n (pos + 2))

/-- Whether `name.*`, of any number of parts, stands at `pos`. -/
def isQualifiedStar (ts : Terminals) (pos : Nat) : Bool :=
  ts.isStarName (ts.size - pos) pos

/-- The span from one terminal to another. -/
def cover (first last : Terminal) : Span :=
  ⟨first.token.start, first.index, last.index, first.token.offset,
    last.token.stop - first.token.offset⟩

/-- The span of the terminals from `start` to before `pos`, at least that at `start`. -/
def span (ts : Terminals) (start pos : Nat) : Span :=
  match ts[start]?, ts.last? pos with
  | some first, some last => if first.index ≤ last.index then cover first last else cover first first
  | some first, none => cover first first
  | none, _ => .empty

end Terminals

end TransactLint
