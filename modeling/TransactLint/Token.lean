import TransactLint.Keyword
import TransactLint.Location

/-!
# Tokens

A token is a piece of the script with its kind, its decoded value and its place. Blanks and comments
are tokens too, so that the tokens of a script cover all of it.
-/

namespace TransactLint

inductive TokenKind where
  | keyword (word : Keyword)
  | identifier
  | quotedIdentifier
  | localVariable
  | stringLiteral
  | nationalStringLiteral
  | numberLiteral
  | binaryLiteral
  | plus
  | minus
  | star
  | slash
  | percent
  | eq
  | notEq
  | lt
  | gt
  | ltEq
  | gtEq
  | bang
  | ampersand
  | pipe
  | caret
  | tilde
  | comma
  | period
  | leftParen
  | rightParen
  | semicolon
  | colon
  | blank
  | comment
  | other
deriving DecidableEq

namespace TokenKind

/-- What a message calls a token of this kind. -/
def describe : TokenKind → String
  | .keyword word => word.name
  | .identifier | .quotedIdentifier => "identifier"
  | .localVariable => "variable"
  | .stringLiteral | .nationalStringLiteral => "string literal"
  | .numberLiteral => "number"
  | .binaryLiteral => "binary literal"
  | .plus => "`+`"
  | .minus => "`-`"
  | .star => "`*`"
  | .slash => "`/`"
  | .percent => "`%`"
  | .eq => "`=`"
  | .notEq => "`<>`"
  | .lt => "`<`"
  | .gt => "`>`"
  | .ltEq => "`<=`"
  | .gtEq => "`>=`"
  | .bang => "`!`"
  | .ampersand => "`&`"
  | .pipe => "`|`"
  | .caret => "`^`"
  | .tilde => "`~`"
  | .comma => "`,`"
  | .period => "`.`"
  | .leftParen => "`(`"
  | .rightParen => "`)`"
  | .semicolon => "`;`"
  | .colon => "`:`"
  | .blank => "whitespace"
  | .comment => "comment"
  | .other => "symbol"

def isTrivia : TokenKind → Bool
  | .blank | .comment => true
  | _ => false

/-- Plain and delimited identifiers, which can name an object. -/
def isIdentifier : TokenKind → Bool
  | .identifier | .quotedIdentifier => true
  | _ => false

/-- String literals of either character set. -/
def isString : TokenKind → Bool
  | .stringLiteral | .nationalStringLiteral => true
  | _ => false

/-- Words and names of every sort. -/
def isWordLike : TokenKind → Bool
  | .keyword _ | .identifier | .quotedIdentifier | .localVariable => true
  | _ => false

end TokenKind

structure Token where
  kind : TokenKind
  /-- The characters of the script, delimiters included. -/
  text : String
  /-- The name without its delimiters, the contents of a literal, the variable with its `@`. -/
  value : String
  start : Location
  /-- The byte at which the token begins. -/
  offset : Nat
  /-- The number of bytes. -/
  length : Nat
deriving DecidableEq

namespace Token

/-- The byte after the token. -/
def stop (t : Token) : Nat := t.offset + t.length

def isTrivia (t : Token) : Bool := t.kind.isTrivia

def isIdentifier (t : Token) : Bool := t.kind.isIdentifier

/-- Whether the token is the bare word `word` in any case. -/
def isWord (t : Token) (word : String) : Bool :=
  match t.kind with
  | .keyword _ | .identifier => Text.sameIgnoringCase t.value.toList word.toList
  | _ => false

end Token

end TransactLint
