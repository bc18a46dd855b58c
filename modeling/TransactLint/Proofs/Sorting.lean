import TransactLint.StableSort

/-!
# Properties of sorting

The sort gives a sorted list, and a list that is sorted strictly is the only one it can give. It is
stable: it leaves a sorted list as it is, and it commutes with choosing some of the elements, so elements
that compare equal stay in their order.
-/

namespace TransactLint

section
variable {α : Type} {le : α → α → Bool}

theorem insertSorted_of_le {a : α} : ∀ {bs : List α}, (∀ b ∈ bs, le a b) → insertSorted le a bs = a :: bs
  | [], _ => rfl
  | b :: bs, h => by rw [insertSorted, if_pos (h b List.mem_cons_self)]

theorem stableSort_of_pairwise : ∀ {as : List α}, as.Pairwise (fun a b => le a b) → stableSort le as = as
  | [], _ => rfl
  | a :: as, h => by
    obtain ⟨ha, has⟩ := List.pairwise_cons.mp h
    have hrest := stableSort_of_pairwise has
    unfold stableSort at hrest ⊢
    rw [List.foldr_cons, hrest, insertSorted_of_le ha]

end

variable {α : Type} {le : α → α → Bool} (htrans : ∀ a b c, le a b → le b c → le a c)
  (htotal : ∀ a b, le a b = true ∨ le b a = true)
include htrans htotal

theorem pairwise_insertSorted (a : α) : ∀ bs : List α, bs.Pairwise (fun a b => le a b) →
    (insertSorted le a bs).Pairwise (fun a b => le a b)
  | [], _ => List.pairwise_singleton ..
  | b :: bs, h => by
    obtain ⟨hb, hbs⟩ := List.pairwise_cons.mp h
    unfold insertSorted
    split
    · rename_i hab
      refine List.pairwise_cons.mpr ⟨?_, h⟩
      intro c hc
      rcases List.mem_cons.mp hc with rfl | hc
      · exact hab
      · exact htrans _ _ _ hab (hb c hc)
    · rename_i hab
      refine List.pairwise_cons.mpr ⟨?_, pairwise_insertSorted a bs hbs⟩
      intro c hc
      rcases List.mem_cons.mp ((insertSorted_perm le a bs).mem_iff.mp hc) with rfl | hc
      · exact (htotal c b).resolve_left hab
      · exact hb c hc

theorem pairwise_stableSort : ∀ as : List α, (stableSort le as).Pairwise (fun a b => le a b)
  | [] => List.Pairwise.nil
  | a :: as => pairwise_insertSorted htrans htotal a _ (pairwise_stableSort as)

omit htotal in
theorem filter_insertSorted (p : α → Bool) (a : α) : ∀ bs : List α, bs.Pairwise (fun a b => le a b) →
    (insertSorted le a bs).filter p = if p a then insertSorted le a (bs.filter p) else bs.filter p
  | [], _ => by by_cases ha : p a <;> simp [insertSorted, ha]
  | b :: bs, h => by
    obtain ⟨hb, hbs⟩ := List.pairwise_cons.mp h
    have ih := filter_insertSorted p a bs hbs
    rw [insertSorted]
    by_cases hab : le a b
    · have hle : ∀ c ∈ (b :: bs).filter p, le a c := by
        intro c hc
        rcases List.mem_cons.mp (List.mem_filter.mp hc).1 with rfl | hc
        · exact hab
        · exact htrans _ _ _ hab (hb c hc)
      rw [if_pos hab, insertSorted_of_le hle]
      by_cases ha : p a <;> simp [ha]
    · rw [if_neg hab]
      by_cases hpb : p b
      · by_cases ha : p a <;> simp [hpb, ih, ha, insertSorted, hab]
      · simp [hpb, ih]

/-- Choosing elements and sorting can change places. -/
theorem filter_stableSort (p : α → Bool) : ∀ as : List α,
    (stableSort le as).filter p = stableSort le (as.filter p)
  | [] => rfl
  | a :: as => by
    have hsorted := pairwise_stableSort htrans htotal as
    have ih := filter_stableSort p as
    unfold stableSort at hsorted ih ⊢
    rw [List.foldr_cons, filter_insertSorted htrans p a _ hsorted, ih]
    by_cases ha : p a <;> simp [ha]

/-- A strictly sorted arrangement of a list is what sorting the list gives. -/
theorem stableSort_eq_of_perm {as bs : List α} (hperm : bs.Perm as)
    (hbs : bs.Pairwise fun a b => le a b ∧ ¬ le b a) : stableSort le as = bs := by
  have hanti : ∀ a ∈ bs, ∀ b ∈ bs, le a b → le b a → a = b := by
    refine List.Pairwise.forall_of_forall_of_flip (fun _ _ _ _ => rfl) ?_ ?_
    · exact hbs.imp fun h _ h' => absurd h' h.2
    · exact hbs.imp fun h h' _ => absurd h' h.2
  refine List.Perm.eq_of_pairwise ?_ (pairwise_stableSort htrans htotal as) (hbs.imp And.left)
    ((stableSort_perm le as).trans hperm.symm)
  intro a b ha hb
  exact hanti a (hperm.mem_iff.mpr ((stableSort_perm le as).mem_iff.mp ha)) b hb

end TransactLint
