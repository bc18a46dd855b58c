import TransactLint.Grammar.Script
import TransactLint.Tokenization

/-!
# Documents

A document is a script with its tokens and its tree.
-/

namespace TransactLint

structure Document where
  source : String
  /-- All tokens, blanks and comments included. -/
  tokens : List Token
  script : Script

namespace Document

def parse (sql : String) : Except ParseError Document :=
  match tokenize sql with
  | .error e => .error (.lexical e)
  | .ok tokens =>
    match Grammar.script (.ofTokens tokens) 0 with
    | .error e => .error e
    | .ok (script, _) => .ok ⟨sql, tokens, script⟩

/-- The source text of `length` bytes at `offset`, empty if there is no such piece. -/
def textAt (d : Document) (offset length : Nat) : String :=
  (Text.slice? d.source offset length).getD ""

/-- The source text of a span. -/
def text (d : Document) (span : Span) : String :=
  d.textAt span.offset span.length

end Document

end TransactLint
