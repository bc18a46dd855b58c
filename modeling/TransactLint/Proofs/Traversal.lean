import TransactLint.Node.Walk

/-!
# Traversal

The walk with a stack visits a node and then the subtrees of its children, one after another, so the
nodes of a subtree are those that its root leads to.
-/

namespace TransactLint

namespace Node

/-! ## Subtrees -/

inductive Reaches (root : Node) : Node → Prop
  | refl : Reaches root root
  | child {n c : Node} (hn : Reaches root n) (hc : c ∈ n.children) : Reaches root c

theorem sizeOf_le_weight {c : Node} {ns : List Node} (hc : c ∈ ns) : sizeOf c ≤ weight ns := by
  induction hc with
  | head ns => exact Nat.le_add_right _ _
  | tail n _ ih => exact Nat.le_trans ih (Nat.le_add_left _ _)

theorem sizeOf_child_lt {n c : Node} (hc : c ∈ n.children) : sizeOf c < sizeOf n :=
  Nat.lt_of_le_of_lt (sizeOf_le_weight hc) (weight_children_lt n)

theorem child_induction {motive : Node → Prop} (h : ∀ n, (∀ c ∈ n.children, motive c) → motive n)
    (n : Node) : motive n :=
  h n fun c hc =>
    have := sizeOf_child_lt hc
    child_induction h c
termination_by sizeOf n

theorem mem_children {n m : Node} : m ∈ n.children ↔ m ∈ n.parts :=
  (stableSort_perm _ _).mem_iff

theorem Reaches.trans {a b c : Node} (hab : a.Reaches b) (hbc : b.Reaches c) : a.Reaches c := by
  induction hbc with
  | refl => exact hab
  | child _ hc ih => exact .child ih hc

theorem reaches_iff {root n : Node} : root.Reaches n ↔ n = root ∨ ∃ c ∈ root.children, c.Reaches n := by
  constructor
  · intro h
    induction h with
    | refl => exact .inl rfl
    | child _ hc ih =>
      rcases ih with rfl | ⟨d, hd, hn⟩
      · exact .inr ⟨_, hc, .refl⟩
      · exact .inr ⟨d, hd, .child hn hc⟩
  · rintro (rfl | ⟨c, hc, hn⟩)
    · exact .refl
    · exact Reaches.trans (.child .refl hc) hn

def Above (a n : Node) : Prop := ∃ c ∈ a.children, c.Reaches n

/-! ## Walks -/

section
variable {σ : Type} (visit : σ → Node → σ × Walk)

/-- A stack is walked from its top. -/
theorem walkFrom_append (ms ns : List Node) (s : σ) :
    walkFrom visit (ms ++ ns) s = walkFrom visit ns (walkFrom visit ms s) := by
  fun_induction walkFrom visit ms s with
  | case1 s => rfl
  | case2 n rest s s' hvisit ih => rw [List.cons_append, walkFrom, hvisit, ← ih, List.append_assoc]
  | case3 n rest s s' hvisit ih => rw [List.cons_append, walkFrom, hvisit, ← ih]

end

/-! ## Pre-order -/

def push (visited : List Node) (n : Node) : List Node × Walk := (n :: visited, .descend)

theorem walkFrom_push_append (ns visited before : List Node) :
    walkFrom push ns (visited ++ before) = walkFrom push ns visited ++ before := by
  fun_induction walkFrom push ns visited with
  | case1 visited => rw [walkFrom]
  | case2 n rest visited visited' hpush ih =>
    cases hpush
    rw [walkFrom]
    exact ih
  | case3 n rest visited visited' hpush ih => cases hpush

theorem preorder_eq_walkFrom (n : Node) : n.preorder = (walkFrom push [n] []).reverse := rfl

theorem walkFrom_push (ns : List Node) : (walkFrom push ns []).reverse = ns.flatMap preorder := by
  induction ns with
  | nil => simp [walkFrom]
  | cons n ns ih =>
    have h := walkFrom_push_append ns [] (walkFrom push [n] [])
    rw [List.nil_append, ← walkFrom_append] at h
    rw [List.flatMap_cons, preorder_eq_walkFrom, ← ih, ← List.reverse_append, ← h]
    rfl

/-- A node comes before the subtrees of its children. -/
theorem preorder_eq (n : Node) : n.preorder = n :: n.children.flatMap preorder := by
  have h := walkFrom_push_append n.children [] [n]
  rw [preorder_eq_walkFrom, walkFrom]
  simp only [push, List.append_nil]
  rw [← walkFrom_push, ← List.reverse_concat, ← h]
  rfl

theorem mem_preorder {root n : Node} : n ∈ root.preorder ↔ root.Reaches n := by
  induction root using child_induction with
  | h root ih =>
    rw [preorder_eq, reaches_iff, List.mem_cons, List.mem_flatMap]
    exact or_congr_right (exists_congr fun c => and_congr_right fun hc => ih c hc)

/-! ## Occurrences -/

/-- A node with the nodes above it, the nearest first. -/
structure Occurrence where
  ancestors : List Node
  node : Node

/-- The nodes of a subtree, each before its children, where `above` are the nodes above its root. -/
def occurrencesBelow (above : List Node) (n : Node) : List Occurrence :=
  ⟨above, n⟩ :: n.children.attach.flatMap fun c => occurrencesBelow (n :: above) c.1
termination_by sizeOf n
decreasing_by exact sizeOf_child_lt c.2

def occurrences (root : Node) : List Occurrence := root.occurrencesBelow []

theorem occurrencesBelow_eq (above : List Node) (n : Node) :
    n.occurrencesBelow above = ⟨above, n⟩ :: n.children.flatMap (occurrencesBelow (n :: above)) := by
  rw [occurrencesBelow, List.flatMap_subtype (g := occurrencesBelow (n :: above)) fun _ _ => rfl,
    List.unattach_attach]

theorem map_node_occurrencesBelow (above : List Node) (n : Node) :
    (n.occurrencesBelow above).map Occurrence.node = n.preorder := by
  induction n using child_induction generalizing above with
  | h n ih =>
    rw [occurrencesBelow_eq, preorder_eq, List.map_cons, List.map_flatMap, List.flatMap, List.flatMap]
    rw [List.map_congr_left fun c hc => ih c hc (n :: above)]

theorem map_node_occurrences (root : Node) : root.occurrences.map Occurrence.node = root.preorder :=
  map_node_occurrencesBelow [] root

theorem reaches_of_mem_occurrencesBelow {above : List Node} {n : Node} {x : Occurrence}
    (hx : x ∈ n.occurrencesBelow above) : n.Reaches x.node := by
  rw [← mem_preorder, ← map_node_occurrencesBelow above]
  exact List.mem_map_of_mem hx

/-- What is above a subtree is above all of its nodes. -/
theorem above_subset_ancestors {above : List Node} {n : Node} {x : Occurrence}
    (hx : x ∈ n.occurrencesBelow above) : above ⊆ x.ancestors := by
  induction n using child_induction generalizing above with
  | h n ih =>
    rw [occurrencesBelow_eq, List.mem_cons, List.mem_flatMap] at hx
    rcases hx with rfl | ⟨c, hc, hx⟩
    · exact List.Subset.refl _
    · exact List.Subset.trans (List.subset_cons_self _ _) (ih c hc hx)

theorem above_of_mem_ancestors {above : List Node} {n a : Node} {x : Occurrence}
    (hx : x ∈ n.occurrencesBelow above) (ha : a ∈ x.ancestors) :
    a ∈ above ∨ n.Reaches a ∧ a.Above x.node := by
  induction n using child_induction generalizing above with
  | h n ih =>
    rw [occurrencesBelow_eq, List.mem_cons, List.mem_flatMap] at hx
    rcases hx with rfl | ⟨c, hc, hx⟩
    · exact .inl ha
    · rcases ih c hc hx with h | ⟨hreach, habove⟩
      · rcases List.mem_cons.mp h with rfl | h
        · exact .inr ⟨.refl, c, hc, reaches_of_mem_occurrencesBelow hx⟩
        · exact .inl h
      · exact .inr ⟨Reaches.trans (.child .refl hc) hreach, habove⟩

/-! ## Searches -/

section
variable {σ α : Type}

/-- Shows the nodes of a list to `f` until it gives a value. The result holds the nodes that were shown, the state
in the end and the value. -/
def searchAlong (f : σ → Node → σ × Option α) : List Node → σ → List Node × σ × Option α
  | [], s => ([], s, none)
  | n :: ns, s =>
    match f s n with
    | (s, some a) => ([n], s, some a)
    | (s, none) => (n :: (searchAlong f ns s).1, (searchAlong f ns s).2)

/-- A search with a stack goes along the nodes in pre-order. -/
theorem searchFrom_eq (f : σ → Node → σ × Option α) (ns : List Node) (s : σ) :
    searchFrom f ns s = (searchAlong f (ns.flatMap preorder) s).2 := by
  fun_induction searchFrom f ns s with
  | case1 s => rfl
  | case2 n rest s s' a ha =>
    rw [List.flatMap_cons, preorder_eq, List.cons_append, searchAlong, ha]
  | case3 n rest s s' hnone ih =>
    rw [ih, List.flatMap_append, List.flatMap_cons, preorder_eq n, List.cons_append, searchAlong, hnone]

theorem search_eq (f : σ → Node → σ × Option α) (root : Node) (s : σ) :
    root.search f s = (searchAlong f root.preorder s).2 := by
  rw [search, searchFrom_eq, List.flatMap_singleton]

theorem searchAlong_stateless (f : Node → Option α) (ns : List Node) :
    (searchAlong (fun _ n => ((), f n)) ns ()).2.2 = ns.findSome? f := by
  induction ns with
  | nil => rfl
  | cons n ns ih => cases hn : f n <;> simp [searchAlong, hn, ih]

/-- A search finds the first value in pre-order. -/
theorem find?_eq (f : Node → Option α) (root : Node) : root.find? f = root.preorder.findSome? f := by
  rw [find?, search_eq, searchAlong_stateless]

end

theorem any_eq (p : Node → Bool) (root : Node) : root.any p = root.preorder.any p := by
  rw [any, find?_eq, Bool.eq_iff_iff, List.findSome?_isSome_iff, List.any_eq_true]
  simp

end Node

end TransactLint
