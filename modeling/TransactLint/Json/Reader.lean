/-!
# Readers

A reader takes a JSON value from the front of a text. Three things can go wrong with a text, and the
first one met decides.
-/

namespace TransactLint.Json

/-- Why a text is not the JSON of the value wanted. -/
inductive Fault where
  /-- The text ends too early. -/
  | truncated
  /-- The text is not JSON. -/
  | malformed
  /-- The text is JSON so far, but of another value. -/
  | mismatched
deriving DecidableEq

/-- Reads a value and leaves the rest of the text. -/
def Reader (α : Type) : Type := List Char → Except Fault (α × List Char)

namespace Reader

instance : Monad Reader where
  pure a := fun cs => .ok (a, cs)
  bind r f := fun cs =>
    match r cs with
    | .ok (a, rest) => f a rest
    | .error fault => .error fault

def fail {α : Type} (fault : Fault) : Reader α := fun _ => .error fault

/-- The only blanks of JSON. -/
def isBlank (c : Char) : Bool := c = ' ' || c = '\n' || c = '\t' || c = '\r'

/-- The first character that is not blank, which stays. -/
def peek : Reader Char := fun cs =>
  match cs.dropWhile isBlank with
  | [] => .error .truncated
  | c :: rest => .ok (c, c :: rest)

/-- Takes one character. -/
def next : Reader Char
  | [] => .error .truncated
  | c :: rest => .ok (c, rest)

/-- Takes the characters of a word. -/
def word : List Char → Reader Unit
  | [] => pure ()
  | w :: ws => do
    if (← next) = w then word ws else fail .malformed

/-- The value of a whole text, with nothing but blanks after it. -/
def whole {α : Type} (r : Reader α) (cs : List Char) : Except Fault α :=
  match r cs with
  | .error fault => .error fault
  | .ok (a, rest) => if rest.all isBlank then .ok a else .error .malformed

end Reader

end TransactLint.Json
