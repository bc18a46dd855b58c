import TransactLint.Lexeme.Basic

/-!
# Operators and punctuation

The longest spelling at the front of a text wins. Each spelling stands before those it begins with.
-/

namespace TransactLint.Lexeme

structure Operator where
  spelling : String
  kind : TokenKind
  value : String
deriving DecidableEq

/-- An operator that is its own value. -/
def Operator.plain (spelling : String) (kind : TokenKind) : Operator :=
  ⟨spelling, kind, spelling⟩

def operators : List Operator :=
  [.plain "(" .leftParen, .plain ")" .rightParen, .plain "," .comma, .plain ";" .semicolon,
   .plain "+" .plus, .plain "*" .star, .plain "/" .slash, .plain "%" .percent,
   .plain "->>" .other, .plain "->" .other, .plain "-" .minus,
   .plain "||/" .other, .plain "||" .other, .plain "|/" .other, .plain "|" .pipe,
   .plain "=>" .other, .plain "==" .eq, .plain "=" .eq,
   ⟨"!=", .notEq, "<>"⟩, .plain "!!" .other, .plain "!~~*" .other, .plain "!~~" .other,
   .plain "!~*" .other, .plain "!~" .other, .plain "!" .bang,
   .plain "<=>" .other, .plain "<=" .ltEq, .plain "<>" .notEq, .plain "<<" .other,
   .plain "<@" .other, .plain "<" .lt,
   .plain ">=" .gtEq, .plain ">>" .other, .plain ">" .gt,
   .plain "::" .other, .plain ":=" .other, .plain ":" .colon,
   .plain "&&" .other, .plain "&" .ampersand, .plain "^@" .other, .plain "^" .caret,
   .plain "~~*" .other, .plain "~~" .other, .plain "~*" .other, .plain "~" .tilde]

/-- The operator at the front of a text; any other character is a symbol on its own. -/
def symbol (c : Char) (cs : List Char) : Scan :=
  match operators.find? fun op => op.spelling.toList.isPrefixOf (c :: cs) with
  | some op => ⟨op.kind, op.value.toList, op.spelling.length - 1⟩
  | none => ⟨.other, [c], 0⟩

end TransactLint.Lexeme
