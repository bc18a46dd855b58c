import TransactLint.Proofs.Nesting

/-!
# Places of reports

A rule reports a node at one of its tokens. Where no other reported node below it has that token, no two reports are
at one place: of two nodes one is above the other, or they have no token in common.
-/

namespace TransactLint

/-! ## Names -/

namespace Node

def isName : Node → Bool
  | .objectName _ | .ident _ | .dataType _ => true
  | _ => false

theorem Reaches.isName {n m : Node} (h : n.Reaches m) (hn : n.isName = true) : m.isName = true := by
  induction h with
  | refl => exact hn
  | @child n c _ hc ih =>
    have hc := mem_children.mp hc
    cases n with
    | objectName name =>
      obtain ⟨x, _, rfl⟩ := List.mem_map.mp hc
      rfl
    | ident x => cases hc
    | dataType type =>
      rw [parts, List.mem_singleton] at hc
      rw [hc]
      rfl
    | _ => cases ih

end Node

/-! ## Tokens of nodes -/

/-- A node that ends before another begins has only terminals before it. -/
theorem Stands.le_of_stop_le {ts : Terminals} (ho : ts.Ordered) {m n : Node} {a b i j : Nat} (hm : Stands ts m i j)
    (hn : Stands ts n a b) (h : m.span.stop ≤ n.span.offset) : j ≤ a := by
  by_contra hja
  have hij := hm.lt
  obtain ⟨_, hj, _⟩ := hm.cover ho
  obtain ⟨ha, _, hspan⟩ := hn.cover ho
  have hlt := ho.offset_lt_stop (by omega : a ≤ j - 1) hj
  rw [hm.stop_eq ho hj, hspan] at h
  exact absurd h (Nat.not_le.mpr hlt)

/-- A span begins with the token of its first terminal. -/
theorem Stands.firstToken_eq {ts : Terminals} (ho : ts.Ordered) {n : Node} {a b : Nat} (h : Stands ts n a b)
    (ha : a < ts.size) : n.span.firstToken = ts[a].index := by
  obtain ⟨_, _, hspan⟩ := h.cover ho
  rw [hspan]
  rfl

def Span.Apart (s t : Span) : Prop := s.lastToken < t.firstToken ∨ t.lastToken < s.firstToken

def Document.IsTokenStart (d : Document) (place : Location) : Prop :=
  ∃ t ∈ d.tokens, t.isTrivia = false ∧ t.start = place

theorem Span.Marks.isTokenStart {d : Document} {s : Span} (h : s.Marks d.tokens) : d.IsTokenStart s.start := by
  obtain ⟨_, _, first, _, hfirst, _, htrivia, _, hstart, _⟩ := h
  exact ⟨first, List.mem_of_getElem? hfirst, htrivia, hstart.symm⟩

namespace Document

section
variable {sql : String} {d : Document} (h : parse sql = .ok d)
include h

/-- Of two nodes the first is above the second, or it ends before the second begins. -/
theorem nodes_apart : d.nodes.Pairwise fun m n => m.Above n ∨ m.span.lastToken < n.span.firstToken := by
  have ho := terminals_ordered h
  rw [nodes, ← Node.map_node_occurrences, List.pairwise_map]
  rcases root_stands h with ⟨_, hnil⟩ | hroot
  · rw [Node.occurrences, Node.occurrencesBelow_eq, hnil]
    exact List.pairwise_singleton ..
  · apply (occurrences_pairwise h).imp_of_mem
    intro x y hx hy hxy
    rcases hxy with hmem | hstop
    · rcases Node.above_of_mem_ancestors hy hmem with hnil | ⟨_, habove⟩
      · cases hnil
      · exact .inl habove
    · obtain ⟨_, _, _, _, hx⟩ := hroot.reaches ho (Node.reaches_of_mem_occurrencesBelow hx)
      obtain ⟨_, _, _, _, hy⟩ := hroot.reaches ho (Node.reaches_of_mem_occurrencesBelow hy)
      exact .inr ((hx.last_lt_first_iff ho hy).mpr (hx.le_of_stop_le ho hy hstop))

variable {n m : Node} (hn : d.root.Reaches n)
include hn

theorem marks_of_reaches (hne : ∀ s, n ≠ .script s) : n.span.Marks d.tokens := by
  obtain ⟨_, _, hstands⟩ := stands_of_ne_script h hn hne
  exact stands_marks h hstands

theorem tokens_of_reaches (hm : n.Reaches m) :
    n.span.firstToken ≤ m.span.firstToken ∧ m.span.lastToken ≤ n.span.lastToken := by
  have ho := terminals_ordered h
  rcases stands h hn with ⟨_, _, hnil⟩ | ⟨a, b, hstands⟩
  · rcases Node.reaches_iff.mp hm with rfl | ⟨c, hc, _⟩
    · exact ⟨Nat.le_refl _, Nat.le_refl _⟩
    · exact absurd (hnil ▸ hc) List.not_mem_nil
  · obtain ⟨i, j, hi, hj, hm⟩ := hstands.reaches ho hm
    have hfirst := mt (hm.firstToken_lt_iff ho hstands).mp (by omega)
    have hlast := mt (hstands.lastToken_lt_iff ho hm).mp (by omega)
    omega

omit hn in
/-- Nodes come in the order in which they begin. -/
theorem nodes_ordered : d.nodes.Pairwise fun m n => m.span.firstToken ≤ n.span.firstToken := by
  apply (nodes_apart h).imp_of_mem
  rintro m n hm hn (⟨c, hc, hreaches⟩ | hlt)
  · exact (tokens_of_reaches h (Node.mem_preorder.mp hm) (.trans (.child .refl hc) hreaches)).1
  · rcases stands h (Node.mem_preorder.mp hm) with ⟨-, hroot, -⟩ | ⟨_, _, hstands⟩
    · rw [hroot]
      exact (tokens_of_reaches h .refl (Node.mem_preorder.mp hn)).1
    · exact Nat.le_of_lt (Nat.lt_of_le_of_lt (stands_marks h hstands).1 hlt)

/-- The parts of a node have no token in common. -/
theorem parts_apart : n.parts.Pairwise fun a b => a.span.Apart b.span := by
  have ho := terminals_ordered h
  have hchildren : n.children.Pairwise fun a b => a.span.Apart b.span := by
    rcases stands h hn with ⟨_, _, hnil⟩ | ⟨_, _, hstands⟩
    · rw [hnil]
      exact .nil
    · exact (hstands.children ho).pairwise fun _ _ _ _ _ _ hm hn hjk => .inl ((hm.last_lt_first_iff ho hn).mpr hjk)
  exact ((stableSort_perm _ _).pairwise_iff fun hab => hab.symm).mp hchildren

end

/-! ## Anchors -/

structure Anchored (d : Document) (places : List Location) : Prop where
  starts : ∀ place ∈ places, d.IsTokenStart place
  nodup : places.Nodup

/-- The place of a report of `f` is the start of the token `i`, which the node has and no reported node below it. -/
structure Anchors (d : Document) (f : Node → Option Location) (n : Node) (place : Location) (i : Nat) : Prop where
  token : ∃ t, d.tokens[i]? = some t ∧ t.isTrivia = false ∧ t.start = place
  inside : n.span.firstToken ≤ i ∧ i ≤ n.span.lastToken
  own : ∀ m, n.Above m → (f m).isSome → i < m.span.firstToken ∨ m.span.lastToken < i

theorem Anchored.sublist {d : Document} {places places' : List Location} (h : d.Anchored places)
    (hsub : places'.Sublist places) : d.Anchored places' :=
  ⟨fun place hplace => h.starts place (hsub.subset hplace), h.nodup.sublist hsub⟩

section
variable {sql : String} {d : Document} (h : parse sql = .ok d)
include h

theorem index_of_start {i j : Nat} {t u : Token} (ht : d.tokens[i]? = some t) (hu : d.tokens[j]? = some u)
    (hstart : t.start = u.start) : i = j := by
  have hordered := List.pairwise_iff_getElem.mp (tokenize_ordered (parse_ok h).1).1
  obtain ⟨hi, rfl⟩ := List.getElem?_eq_some_iff.mp ht
  obtain ⟨hj, rfl⟩ := List.getElem?_eq_some_iff.mp hu
  rcases Nat.lt_trichotomy i j with hij | hij | hij
  · have hlt := (hordered i j hi hj hij).2
    rw [hstart] at hlt
    exact absurd hlt (Location.lt_irrefl _)
  · exact hij
  · have hlt := (hordered j i hj hi hij).2
    rw [hstart] at hlt
    exact absurd hlt (Location.lt_irrefl _)

/-- Reports at tokens of their own are at different places. -/
theorem anchored_filterMap {f : Node → Option Location}
    (hf : ∀ n, d.root.Reaches n → ∀ place, f n = some place → ∃ i, d.Anchors f n place i) :
    d.Anchored (d.nodes.filterMap f) := by
  constructor
  · intro place hplace
    obtain ⟨n, hn, hplace⟩ := List.mem_filterMap.mp hplace
    obtain ⟨i, hanchors⟩ := hf n (Node.mem_preorder.mp hn) place hplace
    obtain ⟨t, ht, htrivia, hstart⟩ := hanchors.token
    exact ⟨t, List.mem_of_getElem? ht, htrivia, hstart⟩
  · apply List.pairwise_filterMap.mpr
    apply (nodes_apart h).imp_of_mem
    rintro m n hm hn hmn place hplace _ hplace' rfl
    obtain ⟨i, hi⟩ := hf m (Node.mem_preorder.mp hm) place hplace
    obtain ⟨j, hj⟩ := hf n (Node.mem_preorder.mp hn) place hplace'
    obtain ⟨t, ht, _, hstart⟩ := hi.token
    obtain ⟨u, hu, _, hstart'⟩ := hj.token
    obtain rfl := index_of_start h ht hu (hstart.trans hstart'.symm)
    have hinside := hi.inside
    have hinside' := hj.inside
    -- the token is not in a reported node below, and not in both of two nodes apart
    rcases hmn with habove | hapart
    · have hown := hi.own n habove (by rw [Option.isSome_iff_exists]; exact ⟨_, hplace'⟩)
      omega
    · omega

variable {n : Node} (hn : d.root.Reaches n) {f : Node → Option Location}
include hn

/-- A token that no part has is one of the node's own, and parts in which nothing is reported do not matter. -/
theorem own_of_parts {i : Nat}
    (hparts : ∀ c ∈ n.parts, (i < c.span.firstToken ∨ c.span.lastToken < i) ∨ ∀ m, c.Reaches m →
      f m = none) :
    ∀ m, n.Above m → (f m).isSome → i < m.span.firstToken ∨ m.span.lastToken < i := by
  rintro m ⟨c, hc, hm⟩ hsome
  have hbelow := tokens_of_reaches h (hn.trans (.child .refl hc)) hm
  rcases hparts c (Node.mem_children.mp hc) with hapart | hnone
  · omega
  · rw [hnone m hm] at hsome
    cases hsome

/-- A report at the first token of a node, if reported nodes below it begin later. -/
theorem anchors_first (hne : ∀ s, n ≠ .script s)
    (hlater : ∀ m, n.Above m → (f m).isSome → n.span.firstToken < m.span.firstToken) :
    d.Anchors f n n.span.start n.span.firstToken := by
  obtain ⟨hle, _, first, _, hfirst, _, htrivia, _, hstart, _⟩ := marks_of_reaches h hn hne
  exact ⟨⟨first, hfirst, htrivia, hstart.symm⟩, ⟨Nat.le_refl _, hle⟩, fun m hm hsome =>
    .inl (hlater m hm hsome)⟩

/-- A report at the first token of a part, if other parts are apart from it or nothing is reported in them. -/
theorem anchors_part {p : Node} (hp : p ∈ n.parts)
    (hparts : ∀ c ∈ n.parts, c.span.Apart p.span ∨ ∀ m, c.Reaches m → f m = none) :
    d.Anchors f n p.span.start p.span.firstToken := by
  have hpart : n.Reaches p := .child .refl (Node.mem_children.mpr hp)
  obtain ⟨_, _, hstands⟩ := stands_of_mem_parts h hn hp
  obtain ⟨hle, _, first, _, hfirst, _, htrivia, _, hstart, _⟩ := stands_marks h hstands
  have hinside := tokens_of_reaches h hn hpart
  have hown : ∀ c ∈ n.parts,
      (p.span.firstToken < c.span.firstToken ∨ c.span.lastToken < p.span.firstToken) ∨
      ∀ m, c.Reaches m → f m = none := by
    intro c hc
    apply (hparts c hc).imp_left
    rintro (hapart | hapart) <;> omega
  exact ⟨⟨first, hfirst, htrivia, hstart.symm⟩, ⟨hinside.1, Nat.le_trans hle hinside.2⟩,
    own_of_parts h hn hown⟩

end

end Document

end TransactLint
