import TransactLint.Proofs.Layout.Script
import TransactLint.Proofs.Sorting
import TransactLint.Proofs.Traversal

/-!
# Nesting of spans

Nodes that stand at runs of terminals are compared by these runs. The parts of a node stand one after
another inside it, so sorting them by offset gives them in this order, and the spans of a document
form a nested family.
-/

namespace TransactLint

/-! ## Spans and terminals -/

section
variable {ts : Terminals} (ho : ts.Ordered) {m n : Node} {a b i j : Nat}

theorem Stands.le_size (h : Stands ts n a b) : b ≤ ts.size := by
  cases h with
  | intro hab hspan horder hrow => exact hrow.le.2

include ho

theorem Stands.cover (h : Stands ts n a b) :
    ∃ (ha : a < ts.size) (hb : b - 1 < ts.size), n.span = Terminals.cover ts[a] ts[b - 1] := by
  have hab := h.lt
  have hb := h.le_size
  exact ⟨by omega, by omega, h.span_eq.trans (ho.span_eq hab hb)⟩

theorem Stands.offset_lt_iff (hm : Stands ts m i j) (hn : Stands ts n a b) :
    m.span.offset < n.span.offset ↔ i < a := by
  obtain ⟨hi, hj, hspan⟩ := hm.cover ho
  obtain ⟨ha, hb, hspan'⟩ := hn.cover ho
  rw [hspan, hspan']
  exact ho.offset_lt_iff hi ha

/-- A span ends where its last terminal does. -/
theorem Stands.stop_eq (h : Stands ts n a b) (hb : b - 1 < ts.size) : n.span.stop = ts[b - 1].token.stop := by
  have hab := h.lt
  obtain ⟨ha, _, hspan⟩ := h.cover ho
  rw [hspan]
  exact Nat.add_sub_cancel' (Nat.le_of_lt (ho.offset_lt_stop (by omega) hb))

theorem Stands.offset_lt_stop (h : Stands ts n a b) : n.span.offset < n.span.stop := by
  have hab := h.lt
  obtain ⟨ha, hb, hspan⟩ := h.cover ho
  rw [h.stop_eq ho hb, hspan]
  exact ho.offset_lt_stop (by omega) hb

theorem Stands.stop_lt_iff (hm : Stands ts m i j) (hn : Stands ts n a b) :
    m.span.stop < n.span.stop ↔ j < b := by
  have hij := hm.lt
  have hab := hn.lt
  obtain ⟨_, hj, _⟩ := hm.cover ho
  obtain ⟨_, hb, _⟩ := hn.cover ho
  rw [hm.stop_eq ho hj, hn.stop_eq ho hb, ho.stop_lt_iff hj hb]
  omega

theorem Stands.firstToken_lt_iff (hm : Stands ts m i j) (hn : Stands ts n a b) :
    m.span.firstToken < n.span.firstToken ↔ i < a := by
  obtain ⟨hi, hj, hspan⟩ := hm.cover ho
  obtain ⟨ha, hb, hspan'⟩ := hn.cover ho
  rw [hspan, hspan']
  exact ho.index_lt_iff hi ha

theorem Stands.lastToken_lt_iff (hm : Stands ts m i j) (hn : Stands ts n a b) :
    m.span.lastToken < n.span.lastToken ↔ j < b := by
  have hij := hm.lt
  have hab := hn.lt
  obtain ⟨hi, hj, hspan⟩ := hm.cover ho
  obtain ⟨ha, hb, hspan'⟩ := hn.cover ho
  rw [hspan, hspan']
  refine (ho.index_lt_iff hj hb).trans ?_
  omega

/-- One node ends before another begins. -/
theorem Stands.last_lt_first_iff (hm : Stands ts m i j) (hn : Stands ts n a b) :
    m.span.lastToken < n.span.firstToken ↔ j ≤ a := by
  have hij := hm.lt
  obtain ⟨hi, hj, hspan⟩ := hm.cover ho
  obtain ⟨ha, hb, hspan'⟩ := hn.cover ho
  rw [hspan, hspan']
  refine (ho.index_lt_iff hj ha).trans ?_
  omega

end

/-! ## Rows -/

namespace Row

variable {ts : Terminals} {ns : List Node} {a b : Nat}

/-- None of several nodes takes up all of a row. -/
theorem stands_strict (h : Row ts ns a b) (hlength : 2 ≤ ns.length) {n : Node} (hn : n ∈ ns) :
    ∃ i j, a ≤ i ∧ j ≤ b ∧ (a < i ∨ j < b) ∧ Stands ts n i j := by
  cases h with
  | nil => cases hn
  | @cons m ns _ i j _ hi hm hns =>
    have hmlt := hm.lt
    rcases List.mem_cons.mp hn with rfl | hmem
    · have hne : ns ≠ [] := by
        rintro rfl
        simp at hlength
      have hlt := hns.lt_of_ne_nil hne
      exact ⟨i, j, hi, Nat.le_of_lt hlt, .inr hlt, hm⟩
    · obtain ⟨k, l, hk, hl, hn⟩ := hns.stands hmem
      exact ⟨k, l, by omega, hl, .inl (by omega), hn⟩

/-- What holds of a node and any that stands after it holds along a row. -/
theorem pairwise {R : Node → Node → Prop} (hR : ∀ m n i j k l, Stands ts m i j → Stands ts n k l →
    j ≤ k → R m n)
    (h : Row ts ns a b) : ns.Pairwise R := by
  induction ns generalizing a with
  | nil => exact .nil
  | cons m ns ih =>
    cases h with
    | @cons _ _ _ i j _ hi hm hns =>
      refine .cons (fun n hn => ?_) (ih hns)
      obtain ⟨k, l, hjk, _, hn⟩ := hns.stands hn
      exact hR m n i j k l hm hn hjk

end Row

/-- The children of a node are its parts in the order in which they stand. -/
theorem Row.children_eq {ts : Terminals} (ho : ts.Ordered) {n : Node} {ns : List Node} {a b : Nat}
    (horder : ns.Perm n.parts) (hrow : Row ts ns a b) : n.children = ns := by
  refine stableSort_eq_of_perm ?_ ?_ horder ?_
  · intro a b c hab hbc
    simp only [decide_eq_true_eq] at *
    omega
  · intro a b
    simp only [decide_eq_true_eq]
    omega
  · refine hrow.pairwise fun l m i j k k' hl hm hjk => ?_
    have := (hl.offset_lt_iff ho hm).mpr (Nat.lt_of_lt_of_le hl.lt hjk)
    simp only [decide_eq_true_eq]
    omega

theorem Stands.children {ts : Terminals} (ho : ts.Ordered) {n : Node} {a b : Nat} (h : Stands ts n a b) :
    Row ts n.children a b := by
  obtain ⟨ns, horder, hrow⟩ := h.parts
  exact hrow.children_eq ho horder ▸ hrow

section
variable {ts : Terminals} (ho : ts.Ordered) {m n : Node} {a b i j : Nat}
include ho

theorem Stands.stop_le_offset (hm : Stands ts m i j) (hn : Stands ts n a b) (hja : j ≤ a) :
    m.span.stop ≤ n.span.offset := by
  have hij := hm.lt
  obtain ⟨_, hj, _⟩ := hm.cover ho
  obtain ⟨ha, _, hspan⟩ := hn.cover ho
  rw [hm.stop_eq ho hj, hspan]
  exact (ho.before_of_lt (by omega) ha).2.1

/-- All nodes of a subtree stand inside its root. -/
theorem Stands.reaches (hn : Stands ts n a b) (hm : n.Reaches m) :
    ∃ i j, a ≤ i ∧ j ≤ b ∧ Stands ts m i j := by
  induction hm with
  | refl => exact ⟨a, b, Nat.le_refl a, Nat.le_refl b, hn⟩
  | child _ hc ih =>
    obtain ⟨i, j, hi, hj, hm⟩ := ih
    obtain ⟨k, l, hk, hl, hc⟩ := (hm.children ho).stands hc
    exact ⟨k, l, Nat.le_trans hi hk, Nat.le_trans hl hj, hc⟩

theorem Stands.bytes_of_reaches (hn : Stands ts n a b) (hm : n.Reaches m) :
    n.span.offset ≤ m.span.offset ∧ m.span.stop ≤ n.span.stop := by
  obtain ⟨i, j, hi, hj, hm⟩ := hn.reaches ho hm
  have hoffset := mt (hm.offset_lt_iff ho hn).mp (by omega)
  have hstop := mt (hn.stop_lt_iff ho hm).mp (by omega)
  omega

/-- Document order is the order of bytes. -/
theorem Stands.start_lt (hm : Stands ts m i j) (hn : Stands ts n a b) (h : m.span.offset < n.span.offset) :
    m.span.start < n.span.start := by
  have hia := (hm.offset_lt_iff ho hn).mp h
  obtain ⟨_, _, hspan⟩ := hm.cover ho
  obtain ⟨ha, _, hspan'⟩ := hn.cover ho
  rw [hspan, hspan']
  exact (ho.before_of_lt hia ha).2.2

/-- Of two nodes of a subtree, the one that comes first is above the other or ends before it. -/
theorem Stands.occurrences_pairwise (hn : Stands ts n a b) (above : List Node) :
    (n.occurrencesBelow above).Pairwise fun x y =>
      x.node ∈ y.ancestors ∨ x.node.span.stop ≤ y.node.span.offset := by
  induction n using Node.child_induction generalizing above a b with
  | h n ih =>
    have hrow := hn.children ho
    rw [Node.occurrencesBelow_eq, List.pairwise_cons, List.pairwise_flatMap]
    refine ⟨fun y hy => .inl ?_, fun c hc => ?_, hrow.pairwise fun c c' i j k l hc hc' hjk x hx y hy => .inr ?_⟩
    · obtain ⟨c, hc, hy⟩ := List.mem_flatMap.mp hy
      exact Node.above_subset_ancestors hy List.mem_cons_self
    · obtain ⟨i, j, _, _, hstands⟩ := hrow.stands hc
      exact ih c hc hstands (n :: above)
    · obtain ⟨_, j', _, hj', hx⟩ := hc.reaches ho (Node.reaches_of_mem_occurrencesBelow hx)
      obtain ⟨k', _, hk', _, hy⟩ := hc'.reaches ho (Node.reaches_of_mem_occurrencesBelow hy)
      exact hx.stop_le_offset ho hy (by omega)

end

/-! ## Documents -/

/-- The span runs from one significant token to another, no earlier one. -/
def Span.Marks (tokens : List Token) (s : Span) : Prop :=
  s.firstToken ≤ s.lastToken ∧ s.lastToken < tokens.length ∧
    ∃ first last, tokens[s.firstToken]? = some first ∧ tokens[s.lastToken]? = some last ∧
      first.isTrivia = false ∧ last.isTrivia = false ∧
      s.start = first.start ∧ s.offset = first.offset ∧ s.offset + s.length = last.stop

namespace Document

def terminals (d : Document) : Terminals := .ofTokens d.tokens

section
variable {sql : String} {d : Document} (h : parse sql = .ok d) {n : Node}
include h

theorem parse_ok : tokenize sql = .ok d.tokens ∧ ∃ pos, Grammar.script d.terminals 0 = .ok (d.script, pos) := by
  unfold parse at h
  split at h
  · cases h
  · rename_i tokens htokens
    split at h
    · cases h
    · rename_i script pos hscript
      cases h
      exact ⟨htokens, pos, hscript⟩

theorem terminals_ordered : d.terminals.Ordered :=
  Terminals.ordered_of_tokenize (parse_ok h).1

theorem root_stands : d.terminals.size = 0 ∧ d.root.children = [] ∨
    Stands d.terminals d.root 0 d.terminals.size := by
  obtain ⟨_, pos, hscript⟩ := parse_ok h
  rcases Grammar.script_stands hscript with ⟨hsize, hempty⟩ | hstands
  · refine .inl ⟨hsize, ?_⟩
    rw [root, hempty]
    rfl
  · exact .inr hstands

/-- Every node of a document stands somewhere, unless there is nothing in it. -/
theorem stands (hn : d.root.Reaches n) :
    (d.terminals.size = 0 ∧ n = d.root ∧ n.children = []) ∨ ∃ a b, Stands d.terminals n a b := by
  rcases root_stands h with ⟨hsize, hnil⟩ | hstands
  · rcases Node.reaches_iff.mp hn with rfl | ⟨c, hc, _⟩
    · exact .inl ⟨hsize, rfl, hnil⟩
    · exact absurd (hnil ▸ hc) List.not_mem_nil
  · obtain ⟨a, b, _, _, hn⟩ := hstands.reaches (terminals_ordered h) hn
    exact .inr ⟨a, b, hn⟩

theorem stands_of_ne_script (hn : d.root.Reaches n) (hne : ∀ s, n ≠ .script s) :
    ∃ a b, Stands d.terminals n a b := by
  rcases stands h hn with ⟨_, hroot, _⟩ | hstands
  · exact absurd hroot (hne d.script)
  · exact hstands

theorem stands_of_mem_parts (hn : d.root.Reaches n) {m : Node} (hm : m ∈ n.parts) :
    ∃ a b, Stands d.terminals m a b := by
  have hchild := Node.mem_children.mpr hm
  rcases stands h hn with ⟨_, _, hnil⟩ | ⟨_, _, hstands⟩
  · exact absurd (hnil ▸ hchild) List.not_mem_nil
  · obtain ⟨i, j, _, _, hm⟩ := (hstands.children (terminals_ordered h)).stands hchild
    exact ⟨i, j, hm⟩

theorem occurrences_pairwise : d.root.occurrences.Pairwise fun x y =>
    x.node ∈ y.ancestors ∨ x.node.span.stop ≤ y.node.span.offset := by
  rcases root_stands h with ⟨_, hnil⟩ | hstands
  · rw [Node.occurrences, Node.occurrencesBelow_eq, hnil]
    exact List.pairwise_singleton ..
  · exact hstands.occurrences_pairwise (terminals_ordered h) []

theorem stands_marks {a b : Nat} (hn : Stands d.terminals n a b) : n.span.Marks d.tokens := by
  have ho := terminals_ordered h
  have hab := hn.lt
  obtain ⟨ha, hb, hspan⟩ := hn.cover ho
  have hstop := hn.stop_eq ho hb
  obtain ⟨hfirst, hfirst'⟩ := Terminals.mem_ofTokens.mp (Array.mem_toList_iff.mpr (Array.getElem_mem ha))
  obtain ⟨hlast, hlast'⟩ := Terminals.mem_ofTokens.mp (Array.mem_toList_iff.mpr (Array.getElem_mem hb))
  have hle := mt (ho.index_lt_iff hb ha).mp (by omega)
  rw [Span.Marks, ← Span.stop, hstop, hspan]
  exact ⟨Nat.not_lt.mp hle, (List.getElem?_eq_some_iff.mp hlast).1, _, _, hfirst, hlast, hfirst', hlast',
    rfl, rfl, rfl⟩

end

/-- The spans of a document are a nested family: each runs from one significant token to another,
a child lies inside its parent, and the children of a node follow one another. Only the script of a
document without significant tokens has no tokens to run from. -/
theorem spans_nested {sql : String} {d : Document} (h : parse sql = .ok d) {n : Node} (hn : d.root.Reaches n) :
    (¬ (n = d.root ∧ ∀ t ∈ d.tokens, t.isTrivia = true) → n.span.Marks d.tokens) ∧
      (∀ c ∈ n.children, n.span.firstToken ≤ c.span.firstToken ∧ c.span.lastToken ≤ n.span.lastToken) ∧
      n.children.Pairwise fun a b => a.span.lastToken < b.span.firstToken := by
  have ho := terminals_ordered h
  rcases stands h hn with ⟨hsize, hroot, hnil⟩ | ⟨a, b, hstands⟩
  · -- no terminal at all, so every token is trivia
    have htrivia : ∀ t ∈ d.tokens, t.isTrivia = true := by
      intro t ht
      by_contra htrivia
      obtain ⟨i, hi⟩ := List.mem_iff_getElem?.mp ht
      have hmem : ⟨t, i⟩ ∈ d.terminals.toList := Terminals.mem_ofTokens.mpr ⟨hi, by simpa using htrivia⟩
      simp [Array.size_eq_zero_iff.mp hsize] at hmem
    rw [hnil]
    exact ⟨fun hne => absurd ⟨hroot, htrivia⟩ hne, fun c hc => absurd hc List.not_mem_nil, .nil⟩
  · have hrow := hstands.children ho
    refine ⟨fun _ => stands_marks h hstands, fun c hc => ?_, ?_⟩
    · obtain ⟨i, j, hi, hj, hc⟩ := hrow.stands hc
      have hfirst := mt (hc.firstToken_lt_iff ho hstands).mp (by omega)
      have hlast := mt (hstands.lastToken_lt_iff ho hc).mp (by omega)
      exact ⟨Nat.not_lt.mp hfirst, Nat.not_lt.mp hlast⟩
    · exact hrow.pairwise fun _ _ _ _ _ _ hm hn hjk => (hm.last_lt_first_iff ho hn).mpr hjk

/-- The addition in a script that begins with a comment. -/
theorem spans_nested_addition : ∃ d n, parse "/**/ SELECT a + b" = .ok d ∧ d.root.Reaches n ∧
    n.kind = .binary ∧ n.span.Marks d.tokens ∧
    (∀ c ∈ n.children, n.span.firstToken ≤ c.span.firstToken ∧ c.span.lastToken ≤ n.span.lastToken) ∧
    n.children.Pairwise fun a b => a.span.lastToken < b.span.firstToken := by
  obtain ⟨d, hd, n, hmem, hkind⟩ : ∃ d ∈ (parse "/**/ SELECT a + b").toOption, ∃ n ∈ d.nodes,
      n.kind = .binary := by
    decide +kernel
  have hd := eq_ok_of_mem_toOption hd
  have hn := Node.mem_preorder.mp hmem
  obtain ⟨hmarks, hinside, hordered⟩ := spans_nested hd hn
  refine ⟨d, n, hd, hn, hkind, hmarks ?_, hinside, hordered⟩
  rintro ⟨rfl, _⟩
  cases hkind

end Document

end TransactLint
