import Mathlib.Data.List.Forall2
import TransactLint.Proofs.OutermostChains
import TransactLint.Proofs.Relocation.Statement

/-!
# Nodes at other places

A node that stands at some terminals stands, with other spans, at the terminals that correspond to
them. Its subtree is then the same, node by node, and so are all comparisons between spans.
-/

namespace TransactLint

theorem Node.constituents_relocate (F : Span → Span) (n : Node) :
    (n.relocate F).constituents = n.constituents.map (relocate F) := by
  have hparts := n.parts_relocate F
  cases n with
  | expr x =>
    obtain ⟨k, span⟩ := x
    cases k with
    | localVariable name => rfl
    | _ => exact hparts
  | _ => exact hparts

def Node.Occurrence.relocate (F : Span → Span) (x : Occurrence) : Occurrence :=
  ⟨x.ancestors.map (Node.relocate F), x.node.relocate F⟩

section
variable {ts ts' : Terminals} (ρ : Relocation ts ts')

mutual

theorem Stands.relocate {n : Node} {a b : Nat} : Stands ts n a b →
    Stands ts' (n.relocate ρ.move) (a + ρ.shift) (b + ρ.shift)
  | .intro hab hspan horder hrow => by
    refine .intro (by omega) ?_ ?_ hrow.relocate
    · rw [Node.span_relocate, hspan, ρ.span]
    · rw [Node.constituents_relocate]
      exact horder.map _

theorem Row.relocate {ns : List Node} {a b : Nat} : Row ts ns a b →
    Row ts' (ns.map (Node.relocate ρ.move)) (a + ρ.shift) (b + ρ.shift)
  | .nil hab hb => .nil (by omega) (by rw [ρ.size_eq]; omega)
  | .cons hi hn hns => .cons (by omega) hn.relocate hns.relocate

end

variable (ho : ts.Ordered) (ho' : ts'.Ordered)
include ho ho'

theorem Stands.children_relocate {n : Node} {a b : Nat} (h : Stands ts n a b) :
    (n.relocate ρ.move).children = n.children.map (Node.relocate ρ.move) := by
  obtain ⟨ns, horder, hrow⟩ := h.parts
  rw [hrow.children_eq ho horder]
  refine Row.children_eq ho' ?_ (hrow.relocate ρ)
  rw [Node.parts_relocate]
  exact horder.map _

/-- Corresponding nodes reach over corresponding terminals. -/
theorem Stands.sameSpan {n : Node} {a b : Nat} (h : Stands ts n a b) :
    ts.SameSpan ts' ρ.shift n.span (n.relocate ρ.move).span := by
  have hab := h.lt
  obtain ⟨ha, hb, hspan⟩ := h.cover ho
  obtain ⟨ha', hb', hspan'⟩ := (h.relocate ρ).cover ho'
  have hlast : ts'[b - 1 + ρ.shift]? = some ts'[b + ρ.shift - 1] := by
    rw [show b - 1 + ρ.shift = b + ρ.shift - 1 by omega]
    exact Array.getElem?_eq_getElem hb'
  exact ⟨a, b - 1, ts[a], ts[b - 1], ts'[a + ρ.shift], ts'[b + ρ.shift - 1], Array.getElem?_eq_getElem ha,
    Array.getElem?_eq_getElem ha', Array.getElem?_eq_getElem hb, hlast, hspan, hspan'⟩

theorem Stands.strictlyContains_relocate {m n : Node} {i j a b : Nat} (hm : Stands ts m i j)
    (hn : Stands ts n a b) :
    (m.relocate ρ.move).span.strictlyContains (n.relocate ρ.move).span = m.span.strictlyContains n.span := by
  have hm' := hm.relocate ρ
  have hn' := hn.relocate ρ
  have hoffset := hm.offset_lt_iff ho hn
  have hoffset' := hm'.offset_lt_iff ho' hn'
  have hback := hn.offset_lt_iff ho hm
  have hback' := hn'.offset_lt_iff ho' hm'
  have hstop := hm.stop_lt_iff ho hn
  have hstop' := hm'.stop_lt_iff ho' hn'
  have hends := hn.stop_lt_iff ho hm
  have hends' := hn'.stop_lt_iff ho' hm'
  rw [Bool.eq_iff_iff, Span.strictlyContains_iff, Span.strictlyContains_iff]
  omega

end

/-! ## Documents -/

namespace Document

variable {sql sql' : String} {d d' : Document} (h : parse sql = .ok d) (h' : parse sql' = .ok d')
  (ρ : Relocation d.terminals d'.terminals)
include h h'

theorem children_relocate {n : Node} (hn : d.root.Reaches n) :
    (n.relocate ρ.move).children = n.children.map (Node.relocate ρ.move) := by
  rcases stands h hn with ⟨_, _, hnil⟩ | ⟨_, _, hstands⟩
  · rw [hnil, List.map_nil, List.eq_nil_iff_forall_not_mem]
    intro c hc
    rw [Node.mem_children, Node.parts_relocate] at hc
    obtain ⟨part, hpart, _⟩ := List.mem_map.mp hc
    exact List.not_mem_nil (hnil ▸ Node.mem_children.mpr hpart)
  · exact hstands.children_relocate ρ (terminals_ordered h) (terminals_ordered h')

theorem preorder_relocate {n : Node} (hn : d.root.Reaches n) :
    (n.relocate ρ.move).preorder = n.preorder.map (Node.relocate ρ.move) := by
  induction n using Node.child_induction with
  | h n ih =>
    rw [Node.preorder_eq, Node.preorder_eq n, children_relocate h h' ρ hn, List.map_cons, List.flatMap_map,
      List.map_flatMap]
    exact congrArg (_ :: ·) (List.flatMap_congr fun c hc => ih c hc (.child hn hc))

theorem occurrencesBelow_relocate {n : Node} (hn : d.root.Reaches n) (above : List Node) :
    (n.relocate ρ.move).occurrencesBelow (above.map (Node.relocate ρ.move)) =
      (n.occurrencesBelow above).map (Node.Occurrence.relocate ρ.move) := by
  induction n using Node.child_induction generalizing above with
  | h n ih =>
    rw [Node.occurrencesBelow_eq, Node.occurrencesBelow_eq above n, children_relocate h h' ρ hn, List.map_cons,
      List.flatMap_map, List.map_flatMap]
    exact congrArg (_ :: ·) (List.flatMap_congr fun c hc => ih c hc (.child hn hc) (n :: above))

theorem samePlace {n : Node} (hn : d.root.Reaches n) (hne : ∀ s, n ≠ .script s) :
    d.terminals.SamePlace d'.terminals ρ.shift n.span.start (n.relocate ρ.move).span.start := by
  obtain ⟨_, _, hstands⟩ := stands_of_ne_script h hn hne
  exact (hstands.sameSpan ρ (terminals_ordered h) (terminals_ordered h')).samePlace

variable (hscript : d'.script = mapSpans ρ.move d.script)
include hscript

omit h h' in
theorem root_relocate : d'.root = d.root.relocate ρ.move :=
  congrArg Node.script hscript

theorem nodes_relocate : d'.nodes = d.nodes.map (Node.relocate ρ.move) := by
  rw [nodes, root_relocate ρ hscript]
  exact preorder_relocate h h' ρ .refl

theorem occurrences_relocate : d'.root.occurrences = d.root.occurrences.map (Node.Occurrence.relocate ρ.move) := by
  rw [root_relocate ρ hscript]
  exact occurrencesBelow_relocate h h' ρ .refl []

end Document

end TransactLint
