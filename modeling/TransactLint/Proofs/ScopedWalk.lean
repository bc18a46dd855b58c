import Mathlib.Data.List.Chain
import TransactLint.Proofs.TokenOrder
import TransactLint.Proofs.Traversal
import TransactLint.Rule

/-!
# Scoped walks

A scoped visitor walks subtrees itself while it is walked around. All the same every node of the tree is shown once,
in pre-order, with the number of nodes above it that open a scope, and in the end no scope is open.
-/

namespace TransactLint

namespace Node

section
variable {σ : Type} (opens : Node → Bool) (note : σ → Nat → Node → σ)

/-- What is noted at a node: how many of the nodes above it open a scope. -/
def noteOccurrence (s : σ) (x : Occurrence) : σ := note s (x.ancestors.countP opens) x.node

/-- The walk that a visit begins is that of the visitor. -/
theorem walkScopedFrom_eq (ns : List Node) (s : Scoped σ) :
    walkScopedFrom opens note ns s = walkFrom (visitScoped opens note) ns s := by
  fun_induction walkFrom (visitScoped opens note) ns s with
  | case1 s => rw [walkScopedFrom]
  | case2 n rest s s' hvisit ih => rw [walkScopedFrom, hvisit, ← ih]
  | case3 n rest s s' hvisit ih => rw [walkScopedFrom, hvisit, ← ih]

/-- Subtrees walked one by one are walked as from one stack. -/
theorem walkScopedEach_eq (ns : List Node) (s : Scoped σ) :
    walkScopedEach opens note ns s = walkFrom (visitScoped opens note) ns s := by
  induction ns generalizing s with
  | nil => rw [walkScopedEach, walkFrom]
  | cons n ns ih => rw [walkScopedEach, ih, walkScopedFrom_eq, ← walkFrom_append, List.singleton_append]

/-- The walk of a subtree shows its nodes in pre-order, and ends in the scope in which it began. -/
def WalksScoped (above : List Node) (n : Node) : Prop :=
  ∀ s, walkFrom (visitScoped opens note) [n] ⟨above.countP opens, s⟩ =
    ⟨above.countP opens, (n.occurrencesBelow above).foldl (noteOccurrence opens note) s⟩

theorem walksScoped_all {above ns : List Node} (hns : ∀ n ∈ ns, WalksScoped opens note above n) (s : σ) :
    walkFrom (visitScoped opens note) ns ⟨above.countP opens, s⟩ =
      ⟨above.countP opens, (ns.flatMap (occurrencesBelow above)).foldl (noteOccurrence opens note) s⟩ := by
  induction ns generalizing s with
  | nil => rw [walkFrom, List.flatMap_nil, List.foldl_nil]
  | cons n ns ih =>
    rw [← List.singleton_append, walkFrom_append, hns n List.mem_cons_self, ih fun m hm =>
      hns m (List.mem_cons_of_mem _ hm), List.singleton_append, List.flatMap_cons, List.foldl_append]

theorem walksScoped (n : Node) (above : List Node) : WalksScoped opens note above n := by
  induction n using child_induction generalizing above with
  | h n ih =>
    intro s
    have hchildren := walksScoped_all opens note fun c hc => ih c hc (n :: above)
    rw [walkFrom, visitScoped, occurrencesBelow_eq, List.foldl_cons]
    by_cases hopens : opens n
    · -- the visit walks the children, one scope deeper
      rw [List.countP_cons_of_pos hopens] at hchildren
      simp only [hopens, if_true, walkScopedEach_eq, hchildren, Nat.add_sub_cancel, walkFrom]
      rfl
    · rw [List.countP_cons_of_neg hopens] at hchildren
      simp only [hopens, Bool.false_eq_true, if_false, List.append_nil, hchildren]
      rfl

end

/-- A node with the nodes above it is a path from the root of the subtree. -/
theorem isChain_of_mem_occurrencesBelow {above : List Node} {n : Node} {x : Occurrence}
    (hx : x ∈ n.occurrencesBelow above) (hn : (n :: above).IsChain fun c m => c ∈ m.children) :
    (x.node :: x.ancestors).IsChain (fun c m => c ∈ m.children) ∧ n :: above <:+ x.node :: x.ancestors := by
  induction n using child_induction generalizing above with
  | h n ih =>
    rw [occurrencesBelow_eq, List.mem_cons, List.mem_flatMap] at hx
    rcases hx with rfl | ⟨c, hc, hx⟩
    · exact ⟨hn, List.suffix_refl _⟩
    · obtain ⟨hchain, hsuffix⟩ := ih c hc hx (List.isChain_cons_cons.mpr ⟨hc, hn⟩)
      exact ⟨hchain, (List.suffix_cons c (n :: above)).trans hsuffix⟩

/-! ## Predicates that convert a column -/

def convertedPredicate? : Node → Option Location
  | .expr e => if e.comparesConverted then some e.span.start else none
  | _ => none

theorem notePredicate_eq (places : List Location) (depth : Nat) (n : Node) :
    notePredicate places depth n = (if 0 < depth then n.convertedPredicate?.toList else []) ++ places := by
  cases n with
  | expr e =>
    by_cases hdepth : 0 < depth <;> by_cases he : e.comparesConverted <;>
      simp [notePredicate, convertedPredicate?, hdepth, he]
  | _ => simp [notePredicate, convertedPredicate?]

/-- Where a scope is around a node its place is noted, the last first. -/
theorem foldl_notePredicate (xs : List Occurrence) (places : List Location) :
    (xs.foldl (noteOccurrence opensPredicates notePredicate) places).reverse =
      places.reverse ++ (xs.filter fun x => x.ancestors.any opensPredicates).filterMap
        fun x => x.node.convertedPredicate? := by
  induction xs generalizing places with
  | nil => simp
  | cons x xs ih =>
    have hscope : 0 < x.ancestors.countP opensPredicates ↔ x.ancestors.any opensPredicates = true := by
      rw [List.countP_pos_iff, List.any_eq_true]
    rw [List.foldl_cons, ih, noteOccurrence, notePredicate_eq, List.filter_cons]
    by_cases hany : x.ancestors.any opensPredicates = true
    · rw [if_pos (hscope.mpr hany), if_pos hany, List.filterMap_cons]
      cases x.node.convertedPredicate? <;> simp
    · rw [if_neg (mt hscope.mp hany), if_neg hany, List.nil_append]

end Node

/-- Every node is noted once, in pre-order, and every scope is left. -/
theorem Visitor.traverse_withScopes {σ : Type} (opens : Node → Bool) (note : σ → Nat → Node → σ)
    (root : Node) (s : σ) :
    (withScopes opens note).traverse root ⟨0, s⟩ =
      ⟨0, root.occurrences.foldl (Node.noteOccurrence opens note) s⟩ :=
  Node.walksScoped opens note root [] s

/-- The predicates are reported in pre-order, those that have a scope among the nodes above them. -/
theorem Document.convertedPredicates_eq (d : Document) : d.convertedPredicates =
    (d.root.occurrences.filter fun x => x.ancestors.any Node.opensPredicates).filterMap
      fun x => x.node.convertedPredicate? := by
  rw [convertedPredicates, Visitor.traverse_withScopes]
  exact Node.foldl_notePredicate d.root.occurrences []

/-- The rule on conversions in predicates keeps track of scopes. Its reports are, in pre-order, the places of the
predicates that convert a column and have a `WHERE` clause or a join above them. Whatever is noted on the way, each
node is noted once, in pre-order, with the number of such nodes on its path to the root, and in the end no scope is
open. -/
theorem Document.convertedPredicates_scoped (d : Document) :
    Rule.predicateConversion.locations d =
      ((d.root.occurrences.filter fun x => x.ancestors.any Node.opensPredicates).filterMap
        fun x => x.node.convertedPredicate?) ∧
      (∀ (σ : Type) (note : σ → Nat → Node → σ) (s : σ),
        (Visitor.withScopes Node.opensPredicates note).traverse d.root ⟨0, s⟩ =
          ⟨0, d.root.occurrences.foldl (fun s x => note s (x.ancestors.countP Node.opensPredicates) x.node)
            s⟩) ∧
      d.root.occurrences.map Node.Occurrence.node = d.nodes ∧
      ∀ x ∈ d.root.occurrences, (x.node :: x.ancestors).IsChain (fun c n => c ∈ n.children) ∧
        [d.root] <:+ x.node :: x.ancestors :=
  ⟨d.convertedPredicates_eq, fun _ note s => Visitor.traverse_withScopes Node.opensPredicates note d.root s,
    Node.map_node_occurrences d.root, fun _ hx => Node.isChain_of_mem_occurrencesBelow hx (.singleton d.root)⟩

/-- Two predicates inside a join, one of them also in a `WHERE` clause. -/
theorem Document.convertedPredicates_scoped_join :
    let sql := "SELECT 1 FROM a CROSS JOIN (SELECT CASE WHEN CAST(b AS INT) = 1 THEN 2 END c " ++
      "FROM d WHERE CAST(e AS INT) = 3) f"
    ∃ d x, parse sql = .ok d ∧
      Rule.predicateConversion.locations d = [⟨1, 46⟩, ⟨1, 91⟩] ∧
      Rule.predicateConversion.locations d =
        ((d.root.occurrences.filter fun x => x.ancestors.any Node.opensPredicates).filterMap
        fun x => x.node.convertedPredicate?) ∧
      x ∈ d.root.occurrences ∧ x.node.convertedPredicate? = some ⟨1, 91⟩ ∧
        x.ancestors.countP Node.opensPredicates = 2 ∧
      (x.node :: x.ancestors).IsChain (fun c n => c ∈ n.children) ∧ [d.root] <:+ x.node :: x.ancestors := by
  intro sql
  obtain ⟨d, hd, hplaces, x, hx, hplace, hdepth⟩ : ∃ d ∈ (parse sql).toOption,
      Rule.predicateConversion.locations d = [⟨1, 46⟩, ⟨1, 91⟩] ∧ ∃ x ∈ d.root.occurrences,
        x.node.convertedPredicate? = some ⟨1, 91⟩ ∧ x.ancestors.countP Node.opensPredicates = 2 := by
    decide +kernel
  obtain ⟨hlocations, -, -, hpaths⟩ := d.convertedPredicates_scoped
  exact ⟨d, x, eq_ok_of_mem_toOption hd, hplaces, hlocations, hx, hplace, hdepth, hpaths x hx⟩

end TransactLint
