import TransactLint.Token
import TransactLint.Span

/-!
# Gaps

Optional keywords, such as `AS` before an alias, leave no trace in the tree. They are looked for
among the tokens between two nodes.
-/

namespace TransactLint

/-- The tokens with the indices `start`, …, `stop - 1`. -/
structure Gap where
  start : Nat
  stop : Nat
deriving DecidableEq

namespace Gap

/-- The tokens strictly between two spans, if the right one begins after the left one. -/
def between? (left right : Span) : Option Gap :=
  if left.lastToken < right.firstToken then some ⟨left.lastToken + 1, right.firstToken⟩ else none

/-- The first token of a kind in the gap. What lies beyond the last token is empty. -/
def find? (g : Gap) (kind : TokenKind) (tokens : List Token) : Option Token :=
  ((tokens.drop g.start).take (g.stop - g.start)).find? fun t => t.kind = kind

def contains (g : Gap) (kind : TokenKind) (tokens : List Token) : Bool :=
  (g.find? kind tokens).isSome

end Gap

/-- Whether a keyword stands between two spans, if there is a gap between them. -/
def keywordBetween? (tokens : List Token) (left right : Span) (k : Keyword) : Option Bool :=
  (Gap.between? left right).map fun g => g.contains (.keyword k) tokens

end TransactLint
