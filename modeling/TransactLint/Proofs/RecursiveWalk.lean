import TransactLint.Proofs.Traversal

/-!
# The walk as a recursion

A walk with a stack visits what the recursion on subtrees visits, whatever the visitor carries along and wherever it
skips. The stack holds the subtrees that are still to come, and walking them one after another is the invariant. The
calls themselves are compared: a visitor, or a function that searches, may note each call that is made of it.
-/

namespace TransactLint

namespace Node

/-! ## The recursion -/

section
variable {σ : Type} (visit : σ → Node → σ × Walk)

mutual

/-- Visits a node and, if told to descend, the subtrees of its children in order. The result holds the nodes
visited, in order, and the state in the end. -/
def walkTree (n : Node) (s : σ) : List Node × σ :=
  match visit s n with
  | (s, .descend) => (n :: (walkTrees n.children s).1, (walkTrees n.children s).2)
  | (s, .skip) => ([n], s)
termination_by 2 * sizeOf n
decreasing_by all_goals
  have := weight_children_lt n
  omega

def walkTrees : List Node → σ → List Node × σ
  | [], s => ([], s)
  | n :: rest, s =>
    let first := walkTree n s
    let others := walkTrees rest first.2
    (first.1 ++ others.1, others.2)
termination_by ns => 2 * weight ns + 1
decreasing_by
  · simp only [weight_cons]
    omega
  · have := weight_children_lt n
    simp only [weight_cons]
    omega

end

theorem walkTrees_append (ms ns : List Node) (s : σ) :
    walkTrees visit (ms ++ ns) s = ((walkTrees visit ms s).1 ++ (walkTrees visit ns (walkTrees visit ms s).2).1,
      (walkTrees visit ns (walkTrees visit ms s).2).2) := by
  induction ms generalizing s with
  | nil => rw [List.nil_append, walkTrees, List.nil_append]
  | cons m ms ih =>
    rw [List.cons_append, walkTrees, ih, walkTrees]
    simp only [List.append_assoc]

theorem walkTrees_singleton (n : Node) (s : σ) : walkTrees visit [n] s = walkTree visit n s := by
  rw [walkTrees, walkTrees, List.append_nil]

/-- The subtrees on the stack are walked one after another, from the top. -/
theorem walkFrom_eq (ns : List Node) (s : σ) : walkFrom visit ns s = (walkTrees visit ns s).2 := by
  fun_induction walkFrom visit ns s with
  | case1 s => rw [walkTrees]
  | case2 n rest s s' hvisit ih => rw [ih, walkTrees_append, walkTrees, walkTree, hvisit]
  | case3 n rest s s' hvisit ih => rw [ih, walkTrees, walkTree, hvisit]

theorem walk_eq (n : Node) (s : σ) : n.walk visit s = (n.walkTree visit s).2 := by
  rw [walk, walkFrom_eq, walkTrees_singleton]

/-! ## Calls of a visitor -/

def noting {κ : Type} (note : Node → κ) (s : σ × List κ) (n : Node) : (σ × List κ) × Walk :=
  (((visit s.1 n).1, s.2 ++ [note n]), (visit s.1 n).2)

/-- The stack shows the nodes that the recursion visits, in the same order. -/
theorem walkFrom_noting {κ : Type} (note : Node → κ) (ns : List Node) (s : σ) (kept : List κ) :
    walkFrom (noting visit note) ns (s, kept) =
      ((walkTrees visit ns s).2, kept ++ (walkTrees visit ns s).1.map note) := by
  fun_induction walkFrom visit ns s generalizing kept with
  | case1 s => rw [walkFrom, walkTrees, List.map_nil, List.append_nil]
  | case2 n rest s s' hvisit ih =>
    rw [walkFrom, noting, hvisit]
    simp only [ih, walkTrees_append, walkTrees, walkTree, hvisit, List.append_assoc, List.map_append, List.map_cons,
      List.cons_append, List.nil_append]
  | case3 n rest s s' hvisit ih =>
    rw [walkFrom, noting, hvisit]
    simp only [ih, walkTrees, walkTree, hvisit, List.append_assoc, List.map_append, List.map_cons, List.map_nil]

theorem walk_noting {κ : Type} (note : Node → κ) (n : Node) (s : σ) :
    n.walk (noting visit note) (s, []) = ((n.walkTree visit s).2, (n.walkTree visit s).1.map note) := by
  rw [walk, walkFrom_noting, walkTrees_singleton, List.nil_append]

end

/-- The recursion that never skips visits all nodes in pre-order. -/
theorem walkTree_descend (n : Node) : (n.walkTree (fun (_ : Unit) _ => ((), .descend)) ()).1 = n.preorder := by
  have htrees : ∀ ns : List Node,
      (∀ c ∈ ns, (c.walkTree (fun (_ : Unit) _ => ((), .descend)) ()).1 = c.preorder) →
      (walkTrees (fun (_ : Unit) _ => ((), .descend)) ns ()).1 = ns.flatMap preorder := by
    intro ns
    induction ns with
    | nil =>
      intro _
      rw [walkTrees, List.flatMap_nil]
    | cons c ns ih =>
      intro hns
      rw [walkTrees, List.flatMap_cons, ← hns c List.mem_cons_self, ← ih fun d hd =>
        hns d (List.mem_cons_of_mem c hd)]
  induction n using child_induction with
  | h n ih => rw [walkTree, preorder_eq, ← htrees n.children ih]

/-! ## Calls of a search -/

section
variable {σ α : Type} (f : σ → Node → σ × Option α)

def asking (s : σ × List Node) (n : Node) : (σ × List Node) × Option α :=
  (((f s.1 n).1, s.2 ++ [n]), (f s.1 n).2)

theorem searchAlong_asking (ns : List Node) (s : σ) (asked : List Node) :
    (searchAlong (asking f) ns (s, asked)).2 =
      (((searchAlong f ns s).2.1, asked ++ (searchAlong f ns s).1), (searchAlong f ns s).2.2) := by
  induction ns generalizing s asked with
  | nil => rw [searchAlong, searchAlong, List.append_nil]
  | cons n ns ih =>
    rcases hf : f s n with ⟨s', a?⟩
    cases a? with
    | none => simp [searchAlong, asking, hf, ih]
    | some a => simp [searchAlong, asking, hf]

end

end Node

/-! ## Walks, traversals and searches -/

namespace Visitor

variable {σ : Type}

inductive Call where
  | visit (n : Node)
  | finish

def noted (v : Visitor σ) : Visitor (σ × List Call) where
  visit := Node.noting v.visit .visit
  finish s := (v.finish s.1, s.2 ++ [.finish])

/-- A walk with a stack makes the visits of the recursion, in its order, and comes to the same state, whatever the
visitor carries and wherever it skips. A traversal finishes once, after the last visit. A search gives the first
value that `f` gives along the recursion that never skips, and shows `f` no node after that one. -/
theorem walk_recursive {σ τ α : Type} (v : Visitor σ) (f : τ → Node → τ × Option α) (root : Node)
    (s : σ) (t : τ) :
    let walked := root.walkTree v.visit s
    let nodes := (root.walkTree (fun (_ : Unit) _ => ((), .descend)) ()).1
    let searched := Node.searchAlong f nodes t
    (root.walk v.visit s = walked.2 ∧ root.walk v.noted.visit (s, []) = (walked.2, walked.1.map .visit)) ∧
      (v.traverse root s = v.finish walked.2 ∧
        v.noted.traverse root (s, []) = (v.finish walked.2, walked.1.map .visit ++ [.finish])) ∧
      (root.search f t = searched.2 ∧
        root.search (Node.asking f) (t, []) = ((searched.2.1, searched.1), searched.2.2)) ∧
      ∀ g : Node → Option α, root.find? g = nodes.findSome? g := by
  intro walked nodes searched
  have hwalk : root.walk v.visit s = walked.2 := Node.walk_eq v.visit root s
  have hnoted : root.walk v.noted.visit (s, []) = (walked.2, walked.1.map .visit) :=
    Node.walk_noting v.visit Call.visit root s
  have hnodes : nodes = root.preorder := Node.walkTree_descend root
  refine ⟨⟨hwalk, hnoted⟩, ⟨?_, ?_⟩, ⟨?_, ?_⟩, fun g => ?_⟩
  · rw [traverse, hwalk]
  · rw [traverse, hnoted]
    rfl
  · rw [Node.search_eq, ← hnodes]
  · rw [Node.search_eq, ← hnodes, Node.searchAlong_asking, List.nil_append]
  · rw [Node.find?_eq, hnodes]

end Visitor

end TransactLint
