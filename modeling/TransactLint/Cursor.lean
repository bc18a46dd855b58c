import TransactLint.Location

/-!
# A cursor over the characters of a script

The cursor finds the byte at a given line and column. It only moves forward, so that finding the
ends of all tokens in order reads the script once.
-/

namespace TransactLint

structure Cursor where
  location : Location
  /-- The number of bytes before the cursor. -/
  offset : Nat
  /-- The characters after the cursor. -/
  rest : List Char
deriving DecidableEq

namespace Cursor

def ofText (text : List Char) : Cursor := ⟨.origin, 0, text⟩

/-- The first place at or after `target`, or the end of the text. -/
def moveFrom (target : Location) : Location → Nat → List Char → Cursor
  | here, offset, [] => ⟨here, offset, []⟩
  | here, offset, c :: cs =>
    if here < target then moveFrom target (here.advance c) (offset + c.utf8Size) cs
    else ⟨here, offset, c :: cs⟩

def moveTo (cursor : Cursor) (target : Location) : Cursor :=
  moveFrom target cursor.location cursor.offset cursor.rest

/-- The cursor moved to `target`, and the byte there if the text has that place ahead. -/
def seek (cursor : Cursor) (target : Location) : Cursor × Option Nat :=
  let moved := cursor.moveTo target
  (moved, if moved.location = target then some moved.offset else none)

end Cursor

end TransactLint
