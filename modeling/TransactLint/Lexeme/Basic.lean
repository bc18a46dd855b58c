import TransactLint.Token

/-!
# Lexemes

A lexeme is a token whose bytes have not been counted: its kind, its value, and the places where it
begins and ends. `Scan` is what reading one lexeme finds. It counts characters and does not hold
them, so the text of a lexeme is always a piece of the script.
-/

namespace TransactLint

/-- What is wrong with a text that has no tokens. -/
inductive LexicalFault where
  | unterminatedString
  | unclosedIdentifier (closer : Char)
  | strayUnderscore
  | unterminatedComment
  | unterminatedDollarQuote
  | unterminatedDollarTag
  | misplacedToken
deriving DecidableEq

def LexicalFault.message : LexicalFault → String
  | .unterminatedString => "Unterminated string literal"
  | .unclosedIdentifier closer =>
    "Expected close delimiter '" ++ String.singleton closer ++ "' before EOF."
  | .strayUnderscore => "Unexpected character '_'"
  | .unterminatedComment => "Unexpected EOF while in a multi-line comment"
  | .unterminatedDollarQuote => "Unterminated dollar-quoted string"
  | .unterminatedDollarTag => "Unterminated dollar-quoted, expected $"
  | .misplacedToken => "token position does not match the source text"

structure LexicalError where
  fault : LexicalFault
  location : Location
deriving DecidableEq

/-- The lexeme at the front of a text: `extra` is the number of its characters after the first. -/
structure Scan where
  kind : TokenKind
  value : List Char
  extra : Nat
deriving DecidableEq

structure Lexeme where
  kind : TokenKind
  value : List Char
  start : Location
  stop : Location
deriving DecidableEq

end TransactLint
