import TransactLint.Chain
import TransactLint.Proofs.Nesting

/-!
# Outermost chains

Among expressions in document order it is enough to compare each with the last one kept: what comes
later lies inside an earlier one or after it. In a document the expressions kept are the applications
of the operator that have no other above them.
-/

namespace TransactLint

theorem Span.strictlyContains_iff {s t : Span} : s.strictlyContains t = true ↔
    s.offset ≤ t.offset ∧ t.stop ≤ s.stop ∧ (s.offset < t.offset ∨ t.stop < s.stop) := by
  simp [strictlyContains, contains, and_assoc]

theorem Span.isOutermost_iff {s : Span} {all : List Span} :
    s.isOutermost all = true ↔ ∀ t ∈ all, t.strictlyContains s = false := by
  simp [isOutermost]

theorem Span.isOutermost_append (s : Span) (as bs : List Span) :
    s.isOutermost (as ++ bs) = (s.isOutermost as && s.isOutermost bs) := by
  simp [isOutermost]

theorem Span.isOutermost_cons (s t : Span) (all : List Span) :
    s.isOutermost (t :: all) = (!t.strictlyContains s && s.isOutermost all) := by
  simp [isOutermost]

theorem Span.strictlyContains_irrefl (s : Span) : s.strictlyContains s = false := by
  simp [strictlyContains]

theorem Span.strictlyContains_trans {s t u : Span} (hst : s.strictlyContains t = true)
    (htu : t.strictlyContains u = true) : s.strictlyContains u = true := by
  rw [strictlyContains_iff] at *
  omega

theorem Span.not_contains_of_stop_le {s t : Span} (h : s.stop ≤ t.offset) (ht : t.offset < t.stop) :
    s.strictlyContains t = false := by
  rw [Bool.eq_false_iff]
  intro hst
  rw [strictlyContains_iff] at hst
  omega

/-- What is outermost is not in a span that is not. -/
theorem Span.not_contains_of_isOutermost {s t : Span} {all : List Span} (hs : s.isOutermost all = false)
    (ht : t.isOutermost all = true) : s.strictlyContains t = false := by
  rw [Bool.eq_false_iff] at hs ⊢
  refine fun hst => hs (isOutermost_iff.mpr fun u hu => ?_)
  rw [Bool.eq_false_iff]
  intro hus
  have hnot := isOutermost_iff.mp ht u hu
  rw [strictlyContains_trans hus hst] at hnot
  cases hnot

def Span.Precedes (s t : Span) : Prop := s.strictlyContains t = true ∨ s.stop ≤ t.offset

namespace Span.Precedes

variable {s t u : Span}

theorem offset_le (h : s.Precedes t) (hs : s.offset < s.stop) : s.offset ≤ t.offset := by
  rcases h with h | h
  · exact (strictlyContains_iff.mp h).1
  · omega

theorem not_contained (h : s.Precedes t) (hs : s.offset < s.stop) : t.strictlyContains s = false := by
  rw [Bool.eq_false_iff]
  intro hts
  rw [strictlyContains_iff] at hts
  rcases h with h | h
  · rw [strictlyContains_iff] at h
    omega
  · omega

/-- What does not contain a span contains nothing that comes later. -/
theorem not_contains_later (h : s.Precedes t) (hst : s.strictlyContains t = false) (ht : t.offset < t.stop)
    (htu : t.Precedes u) (hu : u.offset < u.stop) : s.strictlyContains u = false := by
  have hstop : s.stop ≤ t.offset := h.resolve_left (by simp [hst])
  exact not_contains_of_stop_le (Nat.le_trans hstop (htu.offset_le ht)) hu

end Span.Precedes

namespace Chain

/-! ## Comparing with the last one kept -/

theorem outermostFrom_eq_filter (es : List Expr) (enclosing : Option Span)
    (hne : ∀ e ∈ es, e.span.offset < e.span.stop)
    (henclosing : ∀ s ∈ enclosing.toList, ∀ e ∈ es, s.Precedes e.span)
    (hes : es.Pairwise fun e e' => e.span.Precedes e'.span) :
    outermostFrom enclosing es =
      es.filter fun e => e.span.isOutermost (enclosing.toList ++ es.map Expr.span) := by
  induction es generalizing enclosing with
  | nil => rfl
  | cons e es ih =>
    obtain ⟨hfirst, hrest⟩ := List.pairwise_cons.mp hes
    have hnonempty := hne e List.mem_cons_self
    have hne' : ∀ e' ∈ es, e'.span.offset < e'.span.stop := fun e' he' => hne e' (List.mem_cons_of_mem _ he')
    have hhead : e.span.isOutermost (enclosing.toList ++ (e :: es).map Expr.span) =
        e.span.isOutermost enclosing.toList := by
      have hself : e.span.isOutermost ((e :: es).map Expr.span) = true := by
        rw [Span.isOutermost_iff, List.forall_mem_map]
        rintro e' (_ | ⟨_, he'⟩)
        · exact Span.strictlyContains_irrefl _
        · exact (hfirst e' he').not_contained hnonempty
      rw [Span.isOutermost_append, hself, Bool.and_true]
    rw [outermostFrom, List.filter_cons, hhead]
    split
    · rename_i hkept
      rw [ih (some e.span) hne' (by simpa using hfirst) hrest]
      refine congrArg (e :: ·) (List.filter_congr fun e' he' => ?_)
      have hfree : e'.span.isOutermost enclosing.toList = true := by
        rw [Span.isOutermost_iff] at hkept ⊢
        exact fun s hs => (henclosing s hs e List.mem_cons_self).not_contains_later (hkept s hs) hnonempty
          (hfirst e' he') (hne' e' he')
      rw [Span.isOutermost_append _ enclosing.toList, hfree, Bool.true_and]
      rfl
    · rename_i hdropped
      rw [ih enclosing hne' (fun s hs e' he' => henclosing s hs e' (List.mem_cons_of_mem _ he')) hrest]
      refine List.filter_congr fun e' he' => ?_
      -- what lies in a dropped expression lies in the one that it was dropped for
      have hinside : e'.span.isOutermost enclosing.toList = true → e.span.strictlyContains e'.span = false :=
        Span.not_contains_of_isOutermost (Bool.eq_false_iff.mpr hdropped)
      rw [List.map_cons, Span.isOutermost_append, Span.isOutermost_append, Span.isOutermost_cons]
      cases hfree : e'.span.isOutermost enclosing.toList with
      | false => rfl
      | true => rw [hinside hfree, Bool.not_false, Bool.true_and, Bool.true_and]

/-! ## Applications of an operator -/

theorem topOf?_eq_some {op : BinaryOperator} {n : Node} {e : Expr} (h : topOf? op n = some e) :
    n = .expr e ∧ ∃ left right, n.parts = [.expr left, .expr right] := by
  unfold topOf? at h
  split at h
  · rename_i found left right span
    split at h
    · cases h
      exact ⟨rfl, left, right, rfl⟩
    · cases h
  · cases h

theorem topOf?_span {op : BinaryOperator} {n : Node} {e : Expr} (h : topOf? op n = some e) :
    n.span = e.span := by
  rw [(topOf?_eq_some h).1, Node.span]

/-- An application of an operator has more bytes than what is below it, as it has two operands. -/
theorem strictlyContains_of_above {ts : Terminals} (ho : ts.Ordered) {op : BinaryOperator} {n m : Node} {e : Expr}
    {a b : Nat} (hn : Stands ts n a b) (htop : topOf? op n = some e) (hm : n.Above m) :
    n.span.strictlyContains m.span = true := by
  obtain ⟨c, hc, hreach⟩ := hm
  obtain ⟨_, left, right, hparts⟩ := topOf?_eq_some htop
  have hlength : 2 ≤ n.children.length := by
    rw [Node.children, (stableSort_perm _ _).length_eq, hparts]
    exact Nat.le_refl 2
  obtain ⟨i, j, hi, hj, hstrict, hc⟩ := (hn.children ho).stands_strict hlength hc
  obtain ⟨k, l, hk, hl, hm⟩ := hc.reaches ho hreach
  have hoffset := hn.offset_lt_iff ho hm
  have hoffset' := hm.offset_lt_iff ho hn
  have hstop := hm.stop_lt_iff ho hn
  have hstop' := hn.stop_lt_iff ho hm
  rw [Span.strictlyContains_iff]
  omega

end Chain

namespace Document

section
variable {sql : String} {d : Document} (h : parse sql = .ok d) (op : BinaryOperator) {e e' : Expr}
include h

theorem stands_of_topOf? {n : Node} (hn : d.root.Reaches n) (htop : Chain.topOf? op n = some e) :
    ∃ a b, Stands d.terminals n a b := by
  refine stands_of_ne_script h hn ?_
  rintro s rfl
  cases htop

theorem offset_lt_stop_of_topOf? {n : Node} (hn : d.root.Reaches n) (htop : Chain.topOf? op n = some e) :
    e.span.offset < e.span.stop := by
  obtain ⟨a, b, hstands⟩ := stands_of_topOf? h op hn htop
  rw [← Chain.topOf?_span htop]
  exact hstands.offset_lt_stop (terminals_ordered h)

variable {x y : Node.Occurrence}

/-- An application of the operator strictly contains all below it. -/
theorem strictlyContains_of_mem_ancestors {a : Node} (hx : x ∈ d.root.occurrences) (ha : a ∈ x.ancestors)
    (htop : Chain.topOf? op a = some e) : e.span.strictlyContains x.node.span = true := by
  rcases Node.above_of_mem_ancestors hx ha with hnil | ⟨hreach, habove⟩
  · cases hnil
  · obtain ⟨_, _, hstands⟩ := stands_of_topOf? h op hreach htop
    rw [← Chain.topOf?_span htop]
    exact Chain.strictlyContains_of_above (terminals_ordered h) hstands htop habove

theorem topOf?_precedes : d.root.occurrences.Pairwise fun x y => ∀ e, Chain.topOf? op x.node = some e →
    ∀ e', Chain.topOf? op y.node = some e' → e.span.Precedes e'.span := by
  refine (occurrences_pairwise h).imp_of_mem fun {x y} _ hy hxy e he e' he' => ?_
  rw [← Chain.topOf?_span he']
  rcases hxy with hmem | hstop
  · exact .inl (strictlyContains_of_mem_ancestors h op hy hmem he)
  · exact .inr (Chain.topOf?_span he ▸ hstop)

/-- An application of the operator that has none above it is contained in no other. -/
theorem topOf?_not_contained (hx : x ∈ d.root.occurrences) (he : Chain.topOf? op x.node = some e)
    (hfree : ∀ a ∈ x.ancestors, Chain.topOf? op a = none) (hy : y ∈ d.root.occurrences)
    (he' : Chain.topOf? op y.node = some e') : e'.span.strictlyContains e.span = false := by
  let R (y x : Node.Occurrence) : Prop := ∀ e' e, Chain.topOf? op y.node = some e' →
    Chain.topOf? op x.node = some e → (∀ a ∈ x.ancestors, Chain.topOf? op a = none) →
    e'.span.strictlyContains e.span = false
  -- the other is the same, comes before it, or comes after it
  have hall : ∀ y ∈ d.root.occurrences, ∀ x ∈ d.root.occurrences, R y x := by
    refine List.Pairwise.forall_of_forall_of_flip (fun x _ e' e he' he _ => ?_) ?_ ?_
    · rw [he] at he'
      cases he'
      exact Span.strictlyContains_irrefl _
    · refine (occurrences_pairwise h).imp_of_mem fun {y x} _ hx hyx e' e he' he hfree => ?_
      rcases hyx with hmem | hstop
      · rw [hfree _ hmem] at he'
        cases he'
      · rw [Chain.topOf?_span he, Chain.topOf?_span he'] at hstop
        exact Span.not_contains_of_stop_le hstop
          (offset_lt_stop_of_topOf? h op (Node.reaches_of_mem_occurrencesBelow hx) he)
    · refine (topOf?_precedes h op).imp_of_mem fun {x y} hx _ hxy e' e he' he _ => ?_
      exact (hxy e he e' he').not_contained
        (offset_lt_stop_of_topOf? h op (Node.reaches_of_mem_occurrencesBelow hx) he)
  exact hall y hy x hx e' e he' he hfree

theorem isOutermost_iff_ancestors (hx : x ∈ d.root.occurrences) (he : Chain.topOf? op x.node = some e) :
    e.span.isOutermost ((d.nodes.filterMap (Chain.topOf? op)).map Expr.span) = true ↔
      ∀ a ∈ x.ancestors, Chain.topOf? op a = none := by
  rw [Span.isOutermost_iff, List.forall_mem_map]
  constructor
  · intro hfree a ha
    cases htop : Chain.topOf? op a with
    | none => rfl
    | some e' =>
      rcases Node.above_of_mem_ancestors hx ha with hnil | ⟨hreach, _⟩
      · cases hnil
      have hmem : e' ∈ d.nodes.filterMap (Chain.topOf? op) :=
        List.mem_filterMap.mpr ⟨a, Node.mem_preorder.mpr hreach, htop⟩
      have hcontains := strictlyContains_of_mem_ancestors h op hx ha htop
      rw [Chain.topOf?_span he, hfree e' hmem] at hcontains
      cases hcontains
  · intro hfree e' he'
    obtain ⟨n, hn, htop⟩ := List.mem_filterMap.mp he'
    rw [nodes, ← Node.map_node_occurrences] at hn
    obtain ⟨y, hy, rfl⟩ := List.mem_map.mp hn
    exact topOf?_not_contained h op hx he hfree hy htop

end

/-- Comparing each application of an operator with the last one kept leaves those that none of all
strictly contains, which are those without another above them. -/
theorem outermost_chains {sql : String} {d : Document} (h : parse sql = .ok d) (op : BinaryOperator) :
    let collected := d.nodes.filterMap (Chain.topOf? op)
    d.chains op = (Chain.outermostFrom none collected).map (Chain.ofExpr op) ∧
      Chain.outermostFrom none collected =
        collected.filter (fun e => e.span.isOutermost (collected.map Expr.span)) ∧
      Chain.outermostFrom none collected =
        (d.root.occurrences.filter fun x => x.ancestors.all fun a => (Chain.topOf? op a).isNone).filterMap
          fun x => Chain.topOf? op x.node := by
  intro collected
  have hcollected : collected = d.root.occurrences.filterMap fun x => Chain.topOf? op x.node := by
    rw [← Function.comp_def, ← List.filterMap_map, Node.map_node_occurrences]
    rfl
  have hfilter : Chain.outermostFrom none collected =
      collected.filter (fun e => e.span.isOutermost (collected.map Expr.span)) := by
    refine Chain.outermostFrom_eq_filter collected none (fun e he => ?_) nofun ?_
    · obtain ⟨n, hn, htop⟩ := List.mem_filterMap.mp he
      exact offset_lt_stop_of_topOf? h op (Node.mem_preorder.mp hn) htop
    · rw [hcollected, List.pairwise_filterMap]
      exact topOf?_precedes h op
  refine ⟨rfl, hfilter, hfilter.trans ?_⟩
  -- the two filters are compared at each occurrence
  nth_rewrite 2 [hcollected]
  rw [List.filter_filterMap, List.filterMap_filter]
  refine List.filterMap_congr fun x hx => ?_
  cases htop : Chain.topOf? op x.node with
  | none => simp
  | some e =>
    have hiff : e.span.isOutermost (collected.map Expr.span) =
        x.ancestors.all fun a => (Chain.topOf? op a).isNone := by
      rw [Bool.eq_iff_iff, isOutermost_iff_ancestors h op hx htop]
      simp
    rw [Option.filter_some, hiff]

/-- Of three sums, one lies in a product in another, so there are two chains. -/
theorem outermost_chains_sums : ∃ d, parse "SELECT a + (b + c) * d, e + f" = .ok d ∧
    (d.chains .add).length = 2 ∧
    let sums := d.nodes.filterMap (Chain.topOf? .add)
    sums.length = 3 ∧
      Chain.outermostFrom none sums = sums.filter (fun e => e.span.isOutermost (sums.map Expr.span)) ∧
      Chain.outermostFrom none sums =
        (d.root.occurrences.filter fun x => x.ancestors.all fun a => (Chain.topOf? .add a).isNone).filterMap
          fun x => Chain.topOf? .add x.node := by
  obtain ⟨d, hd, hchains, hsums⟩ : ∃ d ∈ (parse "SELECT a + (b + c) * d, e + f").toOption,
      (d.chains .add).length = 2 ∧ (d.nodes.filterMap (Chain.topOf? .add)).length = 3 := by
    decide +kernel
  have hd := eq_ok_of_mem_toOption hd
  obtain ⟨_, hfilter, hancestors⟩ := outermost_chains hd .add
  exact ⟨d, hd, hchains, hsums, hfilter, hancestors⟩

end Document

end TransactLint
