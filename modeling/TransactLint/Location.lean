/-!
# Places in a script

Lines and columns count from one. A column is one character, and only a line feed starts a new line.
-/

namespace TransactLint

structure Location where
  line : Nat
  column : Nat
deriving DecidableEq

namespace Location

/-- Where every script begins. -/
def origin : Location := ⟨1, 1⟩

/-- The place after the character `c` at `l`. -/
def advance (l : Location) (c : Char) : Location :=
  if c = '\n' then ⟨l.line + 1, 1⟩ else ⟨l.line, l.column + 1⟩

/-- The place after the text `cs` that begins at `l`. -/
def after (l : Location) (cs : List Char) : Location :=
  cs.foldl advance l

/-- Document order: by line, then by column. -/
instance : LT Location where
  lt a b := a.line < b.line ∨ (a.line = b.line ∧ a.column < b.column)

instance : LE Location where
  le a b := a.line < b.line ∨ (a.line = b.line ∧ a.column ≤ b.column)

instance (a b : Location) : Decidable (a < b) :=
  inferInstanceAs (Decidable (a.line < b.line ∨ (a.line = b.line ∧ a.column < b.column)))

instance (a b : Location) : Decidable (a ≤ b) :=
  inferInstanceAs (Decidable (a.line < b.line ∨ (a.line = b.line ∧ a.column ≤ b.column)))

/-- A place as messages give it. -/
def describe (l : Location) : String :=
  "line " ++ toString l.line ++ ", column " ++ toString l.column

end Location

end TransactLint
