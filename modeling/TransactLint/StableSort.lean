/-!
# Sorting

A sort by insertion. Elements that compare equal keep their order, and a list that is sorted
already costs one comparison per element.
-/

namespace TransactLint

variable {α : Type}

/-- Puts `a` before the first element that may follow it. -/
def insertSorted (le : α → α → Bool) (a : α) : List α → List α
  | [] => [a]
  | b :: bs => if le a b then a :: b :: bs else b :: insertSorted le a bs

/-- Sorts from the right, so that of two equal elements the earlier one ends up in front. -/
def stableSort (le : α → α → Bool) (as : List α) : List α :=
  as.foldr (insertSorted le) []

theorem insertSorted_perm (le : α → α → Bool) (a : α) :
    ∀ bs : List α, (insertSorted le a bs).Perm (a :: bs)
  | [] => .refl _
  | b :: bs => by
    rw [insertSorted]
    split
    · exact .refl _
    · exact ((insertSorted_perm le a bs).cons b).trans (.swap a b bs)

theorem stableSort_perm (le : α → α → Bool) : ∀ as : List α, (stableSort le as).Perm as
  | [] => .refl _
  | a :: as => (insertSorted_perm le a _).trans ((stableSort_perm le as).cons a)

end TransactLint
