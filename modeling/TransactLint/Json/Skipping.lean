import TransactLint.Json.Number
import TransactLint.Json.Quoted

/-!
# Skipping

A value that nobody wants is passed over. It has to be JSON, but its strings and numbers need not
stand for anything. The brackets still open are kept on a stack.
-/

namespace TransactLint.Json

inductive Bracket where
  | array
  | object
deriving DecidableEq

/-- The character that closes a bracket. -/
def Bracket.closing : Bracket → Char
  | .array => ']'
  | .object => '\x7d'

/-- What comes next within the innermost bracket. -/
inductive SkipState where
  /-- A value. -/
  | value
  /-- The end of an empty bracket or its first entry. -/
  | opened
  /-- A comma or the end. -/
  | entered

/-- Takes a key with its colon if the bracket is an object. -/
def skipKey : Bracket → Reader Unit
  | .array => pure ()
  | .object => do
    unless (← Reader.peek) = '"' do Reader.fail .malformed
    let _ ← Reader.next
    skipQuoted
    unless (← Reader.peek) = ':' do Reader.fail .malformed
    let _ ← Reader.next

/-- Takes a value that begins with `c` and is no bracket. -/
def skipScalar (c : Char) : Reader Unit :=
  if c = 'n' then Reader.word ['n', 'u', 'l', 'l']
  else if c = 't' then Reader.word ['t', 'r', 'u', 'e']
  else if c = 'f' then Reader.word ['f', 'a', 'l', 's', 'e']
  else if c = '"' then do
    let _ ← Reader.next
    skipQuoted
  else if c = '-' || Number.isDigit c then do
    let _ ← Number.read .malformed
  else Reader.fail .malformed

/-- Passes over what is left of a value within brackets, in at most `fuel` steps. -/
def skipSteps : Nat → SkipState → List Bracket → Reader Unit
  | 0, _, _ => Reader.fail .truncated
  | fuel + 1, .value, outer => do
    let c ← Reader.peek
    if c = '[' then
      let _ ← Reader.next
      skipSteps fuel .opened (.array :: outer)
    else if c = '\x7b' then
      let _ ← Reader.next
      skipSteps fuel .opened (.object :: outer)
    else
      skipScalar c
      skipSteps fuel .entered outer
  | _ + 1, _, [] => pure ()
  | fuel + 1, .opened, b :: outer => do
    if (← Reader.peek) = b.closing then
      let _ ← Reader.next
      skipSteps fuel .entered outer
    else
      skipKey b
      skipSteps fuel .value (b :: outer)
  | fuel + 1, .entered, b :: outer => do
    let c ← Reader.peek
    if c = b.closing then
      let _ ← Reader.next
      skipSteps fuel .entered outer
    else if c = ',' then
      let _ ← Reader.next
      skipKey b
      skipSteps fuel .value (b :: outer)
    else Reader.fail .malformed

/-- Passes over a value. Two steps for each character are enough. -/
def skipValue : Reader Unit := fun cs => skipSteps (2 * cs.length + 2) .value [] cs

end TransactLint.Json
