import TransactLint.Lexeme.Basic
import TransactLint.Text.UpperCase

/-!
# Why a script has no tree
-/

namespace TransactLint

/-- The number of statements, queries and expressions that may enclose one another. -/
def nestingLimit : Nat := 24

inductive ParseError where
  | lexical (error : LexicalError)
  /-- Another token was expected than the one at `location`. -/
  | unexpected (expected found : String) (location : Location)
  | unexpectedEnd (expected : String)
  /-- The statement or clause that `word` begins is not modelled. -/
  | unsupported (word : String) (location : Location)
  | tooDeep (location : Location)
deriving DecidableEq

namespace ParseError

def message : ParseError → String
  | .lexical e => "tokenizer error: " ++ e.fault.message
  | .unexpected expected found l =>
    "expected " ++ expected ++ ", found `" ++ found ++ "` at " ++ l.describe
  | .unexpectedEnd expected => "expected " ++ expected ++ ", found end of input"
  | .unsupported word l => "unsupported statement `" ++ word ++ "` at " ++ l.describe
  | .tooDeep l =>
    "nesting depth limit of " ++ toString nestingLimit ++ " exceeded at " ++ l.describe

def location? : ParseError → Option Location
  | .lexical e => some e.location
  | .unexpected _ _ l | .unsupported _ l | .tooDeep l => some l
  | .unexpectedEnd _ => none

end ParseError

end TransactLint
