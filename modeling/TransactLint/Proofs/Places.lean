import TransactLint.Linter
import TransactLint.Proofs.Anchors
import TransactLint.Proofs.JoinOperators
import TransactLint.Proofs.OutermostChains
import TransactLint.Proofs.ScopedWalk
import TransactLint.Proofs.TableLedger

/-!
# Places of violations

Every rule reports at significant tokens, and never twice at one. Aliases and the word `JOIN` are tokens that no
report below them has. `CASE` and predicates are reported where they begin, and what is reported below them
begins later: all in a `CASE` stands behind that word, and a predicate is no operand of another. Chains are
reported where they begin too, but no chain lies in another.
-/

namespace TransactLint

open Grammar (Rank)
open TransactLint.Parser

/-! ## Aliases -/

namespace Node

/-- The alias is a part of the node, and its other parts are names or stand beside it. -/
def HasAlias (n : Node) (name : Ident) : Prop :=
  .ident name ∈ n.parts ∧ ∀ c ∈ n.parts, c.isName = true ∨ [c, .ident name].Sublist n.parts

theorem hasAlias_of_columnAlias? {n : Node} {x : Span × Ident} (h : n.columnAlias? = some x) :
    n.HasAlias x.2 ∧ n.isName = false := by
  unfold columnAlias? at h
  split at h
  · cases h
    refine ⟨⟨by simp [parts, SelectElementKind.parts], ?_⟩, rfl⟩
    simp [parts, SelectElementKind.parts, isName]
  · cases h

theorem hasAlias_of_tableAlias? {n : Node} {x : Span × Ident} (h : n.tableAlias? = some x) :
    n.HasAlias x.2 ∧ n.isName = false := by
  unfold tableAlias? at h
  split at h
  · cases h
    refine ⟨⟨by simp [parts, TableSourceKind.parts], ?_⟩, rfl⟩
    simp [parts, TableSourceKind.parts, isName]
  · cases h
    refine ⟨⟨by simp [parts, TableSourceKind.parts], ?_⟩, rfl⟩
    simp [parts, TableSourceKind.parts, isName]
  · cases h

end Node

namespace Document

variable {sql : String} {d : Document} (h : parse sql = .ok d)
include h

theorem bareAliases_anchored {aliased? : Node → Option (Span × Ident)}
    (haliased : ∀ n x, aliased? n = some x → n.HasAlias x.2 ∧ n.isName = false) :
    d.Anchored (d.bareAliases aliased?) := by
  apply anchored_filterMap h
  intro n hn place hplace
  obtain ⟨x, hx, hplace⟩ := Option.bind_eq_some_iff.mp hplace
  obtain ⟨_, ⟨rfl⟩⟩ := Option.ite_none_right_eq_some.mp hplace
  obtain ⟨⟨hpart, hothers⟩, -⟩ := haliased n x hx
  refine ⟨_, anchors_part h hn hpart fun c hc => ?_⟩
  rcases hothers c hc with hname | hbeside
  · right
    intro m hm
    cases hnone : aliased? m with
    | none => rfl
    | some y =>
      have hnot := (haliased m y hnone).2
      rw [hm.isName hname] at hnot
      cases hnot
  · left
    have hapart := (parts_apart h hn).sublist hbeside
    simpa using hapart

/-! ## Joins -/

/-- Between two joined sources there is `JOIN`, and the condition comes after them. -/
theorem join_tokens {join : QualifiedJoin} {left right : TableSource} {condition : Expr} {a m m' b : Nat}
    (hjoin : join.Proper d.terminals left right condition a m m' b) :
    (∃ i t, left.span.lastToken < i ∧ i < right.span.firstToken ∧ d.tokens[i]? = some t ∧
      t.kind = .keyword .JOIN) ∧ right.span.lastToken < condition.span.firstToken := by
  have ho := terminals_ordered h
  have hlt := hjoin.lt
  obtain ⟨hmm, hmb, hb⟩ := hjoin.le
  obtain ⟨op, -, ⟨-, -, -, -, hkind⟩, mid, hmid, rfl, hword⟩ := Grammar.qualifiedJoin_spells hjoin.words
  obtain ⟨i, j, hbi, hcondition⟩ := hjoin.condition
  obtain ⟨hi, _, _⟩ := hcondition.cover ho
  have hfirst : condition.span.firstToken = d.terminals[i].index := hcondition.firstToken_eq ho hi
  have hmidSize : mid < d.terminals.size := token?_isSome (by rw [hword]; rfl)
  rw [hjoin.left, hjoin.right, ho.span_eq hlt (by omega), ho.span_eq hmb hb]
  constructor
  · obtain ⟨htoken, -⟩ := Terminals.mem_ofTokens.mp (Array.mem_toList_iff.mpr (Array.getElem_mem hmidSize))
    rw [Terminals.token?, Array.getElem?_eq_getElem hmidSize] at hword
    rw [← Option.some.inj hword] at hkind
    refine ⟨_, _, ?_, ?_, htoken, hkind⟩
    · exact (ho.index_lt_iff (by omega) hmidSize).mpr (by omega)
    · exact (ho.index_lt_iff hmidSize (by omega)).mpr (by omega)
  · rw [hfirst]
    exact (ho.index_lt_iff (by omega) hi).mpr (by omega)

/-- A token between the two sources of a join is in no part of it. -/
theorem anchors_join {join : QualifiedJoin} {left right : TableSource} {condition : Expr} {span : Span}
    (hn : d.root.Reaches (.tableSource ⟨.qualifiedJoin join left right condition, span⟩))
    (hcondition : right.span.lastToken < condition.span.firstToken) {i : Nat} {t : Token}
    {f : Node → Option Location}
    (ht : d.tokens[i]? = some t) (htrivia : t.isTrivia = false) (hi : left.span.lastToken < i)
    (hi' : i < right.span.firstToken) :
    d.Anchors f (.tableSource ⟨.qualifiedJoin join left right condition, span⟩) t.start i := by
  have hsource : ∀ s : TableSource, s = left ∨ s = right →
      span.firstToken ≤ s.span.firstToken ∧ s.span.firstToken ≤ s.span.lastToken ∧
        s.span.lastToken ≤ span.lastToken := by
    intro s hs
    have hpart : Node.tableSource s ∈ (Node.tableSource ⟨.qualifiedJoin join left right condition,
        span⟩).parts := by
      rcases hs with rfl | rfl <;> simp [Node.parts, TableSourceKind.parts]
    obtain ⟨_, _, hstands⟩ := stands_of_mem_parts h hn hpart
    have hinside := tokens_of_reaches h hn (.child .refl (Node.mem_children.mpr hpart))
    exact ⟨hinside.1, (stands_marks h hstands).1, hinside.2⟩
  have hleft := hsource left (.inl rfl)
  have hright := hsource right (.inr rfl)
  constructor
  · exact ⟨t, ht, htrivia, rfl⟩
  · simp only [Node.span]
    omega
  · apply own_of_parts h hn
    simp only [Node.parts, TableSourceKind.parts, List.forall_mem_cons, Node.span]
    refine ⟨.inl (.inr hi), .inl (.inl hi'), .inl (.inl ?_), by simp⟩
    omega

theorem bareJoins_anchored : d.Anchored d.bareJoins := by
  apply anchored_filterMap h
  intro n hn place hplace
  unfold Node.bareJoin? at hplace
  split at hplace
  · rename_i join left right condition span
    obtain ⟨gap, hgap, hplace⟩ := Option.bind_eq_some_iff.mp hplace
    unfold Gap.between? at hgap
    obtain ⟨_, ⟨rfl⟩⟩ := Option.ite_none_right_eq_some.mp hgap
    obtain ⟨a, m, m', b, hproper⟩ := proper_of_mem h (Node.mem_preorder.mpr hn)
    obtain ⟨⟨k, t, hleft, hright, ht, hkind⟩, hcondition⟩ := join_tokens h hproper
    rw [Option.ite_none_left_eq_some] at hplace
    replace hplace := hplace.2
    split at hplace
    · rename_i token hfind
      cases hplace
      obtain ⟨hkind, i, hi, hi', htoken⟩ := Gap.index_of_find? hfind
      have htrivia : token.isTrivia = false := by
        rw [Token.isTrivia, hkind]
        rfl
      exact ⟨i, anchors_join h hn hcondition htoken htrivia hi hi'⟩
    · rename_i hnone
      -- a join that was read has its word
      exact absurd hnone (Gap.find?_of_index ⟨hleft, hright⟩ ht hkind)
  · cases hplace

end Document

/-! ## Expressions at their first token -/

theorem BinaryOperator.additive_le_of_rank {op : BinaryOperator} (h : Rank.predicate ≤ op.rank) :
    Rank.additive ≤ op.leftRank ∧ Rank.additive ≤ op.rank.next := by
  revert h
  cases op <;> decide

theorem UnaryOperator.additive_le_of_rank {op : UnaryOperator} (h : Rank.predicate ≤ op.rank) :
    Rank.additive ≤ op.rank := by
  revert h
  cases op <;> decide

namespace ExprKind

variable {kind : ExprKind}

theorem parts_cases {c : Node} (hc : c ∈ kind.parts) :
    c.isName = true ∨ c ∈ kind.enclosed ∨ ∃ x ∈ kind.operands, c = .expr x.1 := by
  cases kind with
  | column names =>
    obtain ⟨x, _, rfl⟩ := List.mem_map.mp hc
    exact .inl rfl
  | binary op left right =>
    right; right
    simpa [parts, operands] using hc
  | between operand low high negated =>
    right; right
    simpa [parts, operands] using hc
  | like operand pattern escape negated =>
    right; right
    simpa [parts, operands, eq_comm] using hc
  | isNull operand negated =>
    right; right
    simpa [parts, operands] using hc
  | inList operand list negated =>
    rcases List.mem_cons.mp hc with rfl | hc
    · exact .inr (.inr ⟨_, List.mem_cons_self, rfl⟩)
    · exact .inr (.inl hc)
  | inSubquery operand query negated =>
    rcases List.mem_cons.mp hc with rfl | hc
    · exact .inr (.inr ⟨_, List.mem_cons_self, rfl⟩)
    · exact .inr (.inl hc)
  | call name distinct arguments withinGroup window =>
    rcases List.mem_cons.mp hc with rfl | hc
    · exact .inl rfl
    · exact .inr (.inl hc)
  | _ => exact .inr (.inl hc)

/-- Operands of what binds as tightly as a predicate bind tighter than a predicate. -/
theorem additive_le_of_operands (h : Rank.predicate ≤ kind.rank) {x : Expr × Rank} (hx : x ∈ kind.operands) :
    Rank.additive ≤ x.2 := by
  cases kind with
  | binary op left right =>
    have hop := BinaryOperator.additive_le_of_rank h
    simp only [operands, List.mem_cons, List.not_mem_nil, or_false] at hx
    rcases hx with rfl | rfl
    · exact hop.1
    · exact hop.2
  | unary op operand =>
    rw [operands, List.mem_singleton] at hx
    subst hx
    exact UnaryOperator.additive_le_of_rank h
  | like operand pattern escape negated =>
    simp only [operands, List.mem_cons, List.mem_map] at hx
    rcases hx with rfl | rfl | ⟨e, _, rfl⟩ <;> exact Rank.le_refl _
  | between operand low high negated =>
    simp only [operands, List.mem_cons, List.not_mem_nil, or_false] at hx
    rcases hx with rfl | rfl | rfl <;> exact Rank.le_refl _
  | inList operand list negated =>
    cases List.mem_singleton.mp hx
    exact Rank.le_refl _
  | inSubquery operand query negated =>
    cases List.mem_singleton.mp hx
    exact Rank.le_refl _
  | isNull operand negated =>
    cases List.mem_singleton.mp hx
    exact Rank.le_refl _
  | _ => cases hx

end ExprKind

theorem Expr.rank_of_comparesConverted {e : Expr} (h : e.comparesConverted = true) : e.rank = .predicate := by
  unfold comparesConverted at h
  unfold rank
  split at h
  · rename_i op left right hkind
    rw [hkind]
    exact BinaryOperator.rank_of_isComparison (Bool.and_eq_true_iff.mp h).1
  · rename_i hkind
    rw [hkind]
    rfl
  · rename_i hkind
    rw [hkind]
    rfl
  · rename_i hkind
    rw [hkind]
    rfl
  · rename_i hkind
    rw [hkind]
    rfl
  · cases h

namespace Document

variable {sql : String} {d : Document} (h : parse sql = .ok d)
include h

theorem firstToken_lt_of_leads {s : Span} {c : Node} (hs : s.Leads d.terminals c) :
    s.firstToken < c.span.firstToken := by
  have ho := terminals_ordered h
  obtain ⟨a, b, i, j, hai, rfl, hstands⟩ := hs
  obtain ⟨hi, _, _⟩ := hstands.cover ho
  rw [hstands.firstToken_eq ho hi, Terminals.firstToken_span (by omega)]
  exact (ho.index_lt_iff (by omega) hi).mpr hai

/-- What an expression encloses, and all below it, begins after the first token of the expression. -/
theorem enclosed_begins_later {e : Expr} (hn : d.root.Reaches (.expr e)) {c m : Node} (hc : c ∈ e.kind.enclosed)
    (hm : c.Reaches m) : e.span.firstToken < m.span.firstToken := by
  have hproper : e.Proper d.terminals := proper_of_mem h (Node.mem_preorder.mpr hn)
  have hchild : c ∈ (Node.expr e).children := Node.mem_children.mpr (e.kind.enclosed_sublist.subset hc)
  have hlater := firstToken_lt_of_leads h (hproper.enclosed c hc)
  have hbegins := tokens_of_reaches h (hn.trans (.child .refl hchild)) hm
  exact Nat.lt_of_lt_of_le hlater hbegins.1

/-- Below a predicate, or what binds tighter, no predicate begins with its first token. -/
theorem predicate_begins_later {n : Node} (hn : d.root.Reaches n) {e e' : Expr} (he : n = .expr e)
    (hrank : .predicate ≤ e.rank) (hbelow : n.Above (.expr e')) (hrank' : e'.rank ≤ .predicate) :
    e.span.firstToken < e'.span.firstToken := by
  induction n using Node.child_induction generalizing e with
  | h n ih =>
    subst he
    obtain ⟨c, hc, hreach⟩ := hbelow
    have hproper : e.Proper d.terminals := proper_of_mem h (Node.mem_preorder.mpr hn)
    have hchild := hn.trans (.child .refl hc)
    have hinside := tokens_of_reaches h hn (.child .refl hc)
    rcases ExprKind.parts_cases (Node.mem_children.mp hc) with hname | henclosed | ⟨x, hx, rfl⟩
    · cases hreach.isName hname
    · exact enclosed_begins_later h hn henclosed hreach
    · have hoperand := Rank.le_trans (ExprKind.additive_le_of_operands hrank hx) (hproper.operands x hx)
      rcases Node.reaches_iff.mp hreach with heq | habove
      · cases heq
        exact absurd (Rank.le_trans hoperand hrank') (by decide)
      · have hlater := ih _ hc hchild rfl (Rank.le_trans (by decide) hoperand) habove
        exact Nat.lt_of_le_of_lt hinside.1 hlater

theorem guardedConversions_anchored : d.Anchored d.guardedConversions := by
  apply anchored_filterMap h
  intro n hn place hplace
  unfold Node.guardedConversion? at hplace
  split at hplace
  · obtain ⟨_, ⟨rfl⟩⟩ := Option.ite_none_right_eq_some.mp hplace
    refine ⟨_, anchors_first h hn nofun fun m hm _ => ?_⟩
    obtain ⟨c, hc, hreach⟩ := hm
    -- all parts of a `CASE` are enclosed by it
    exact enclosed_begins_later h hn (Node.mem_children.mp hc) hreach
  · cases hplace

theorem convertedPredicates_anchored : d.Anchored d.convertedPredicates := by
  have hall : d.Anchored (d.nodes.filterMap Node.convertedPredicate?) := by
    apply anchored_filterMap h
    intro n hn place hplace
    cases n with
    | expr e =>
      obtain ⟨hconverts, ⟨rfl⟩⟩ := Option.ite_none_right_eq_some.mp hplace
      refine ⟨_, anchors_first h hn nofun fun m hm hsome => ?_⟩
      have hrank := e.rank_of_comparesConverted hconverts
      cases m with
      | expr e' =>
        by_cases hconverts' : e'.comparesConverted = true
        · have hrank' := e'.rank_of_comparesConverted hconverts'
          exact predicate_begins_later h hn rfl (hrank ▸ Rank.le_refl _) hm (hrank' ▸ Rank.le_refl _)
        · simp [Node.convertedPredicate?, hconverts'] at hsome
      | _ => cases hsome
    | _ => cases hplace
  apply hall.sublist
  rw [convertedPredicates_eq, nodes, ← Node.map_node_occurrences, List.filterMap_map]
  exact List.filter_sublist.filterMap _

/-! ## Chains -/

theorem topOf?_pairwise (op : BinaryOperator) :
    (d.nodes.filterMap (Chain.topOf? op)).Pairwise fun e e' => e.span.Precedes e'.span := by
  rw [nodes, ← Node.map_node_occurrences, List.filterMap_map]
  exact List.pairwise_filterMap.mpr (topOf?_precedes h op)

theorem stands_of_mem_topOf? {op : BinaryOperator} {e : Expr} (he : e ∈ d.nodes.filterMap (Chain.topOf? op)) :
    ∃ a b, Stands d.terminals (.expr e) a b := by
  obtain ⟨n, hn, htop⟩ := List.mem_filterMap.mp he
  obtain ⟨rfl, -⟩ := Chain.topOf?_eq_some htop
  exact stands_of_ne_script h (Node.mem_preorder.mp hn) nofun

theorem outermostFrom_topOf? (op : BinaryOperator) :
    Chain.outermostFrom none (d.nodes.filterMap (Chain.topOf? op)) =
      (d.nodes.filterMap (Chain.topOf? op)).filter fun e =>
        e.span.isOutermost ((d.nodes.filterMap (Chain.topOf? op)).map Expr.span) := by
  apply Chain.outermostFrom_eq_filter _ none ?_ nofun (topOf?_pairwise h op)
  intro e he
  obtain ⟨_, _, hstands⟩ := stands_of_mem_topOf? h he
  exact hstands.offset_lt_stop (terminals_ordered h)

theorem chains_anchored (op : BinaryOperator) : d.Anchored ((d.chains op).map fun c => c.span.start) := by
  have ho := terminals_ordered h
  have hplaces : (d.chains op).map (fun c => c.span.start) =
      (Chain.outermostFrom none (d.nodes.filterMap (Chain.topOf? op))).map fun e => e.span.start := by
    rw [chains, Chain.outermost, List.map_map]
    rfl
  rw [hplaces, outermostFrom_topOf? h op]
  constructor
  · intro place hplace
    obtain ⟨e, he, rfl⟩ := List.mem_map.mp hplace
    obtain ⟨_, _, hstands⟩ := stands_of_mem_topOf? h (List.mem_filter.mp he).1
    exact (stands_marks h hstands).isTokenStart
  · apply List.pairwise_map.mpr
    apply ((topOf?_pairwise h op).filter _).imp_of_mem
    intro e e' he he' hee
    rw [List.mem_filter] at he he'
    obtain ⟨_, _, hstands⟩ := stands_of_mem_topOf? h he.1
    obtain ⟨_, _, hstands'⟩ := stands_of_mem_topOf? h he'.1
    -- an outermost chain does not lie inside the one before it, so it begins after that one has ended
    have hstop : e.span.stop ≤ e'.span.offset := by
      apply hee.resolve_left
      rw [Span.isOutermost_iff.mp he'.2 e.span (List.mem_map_of_mem he.1)]
      exact Bool.false_ne_true
    have hoffset : e.span.offset < e.span.stop := hstands.offset_lt_stop ho
    have hlt : e.span.start < e'.span.start := hstands.start_lt ho hstands' (Nat.lt_of_lt_of_le hoffset hstop)
    intro heq
    rw [heq] at hlt
    exact Location.lt_irrefl _ hlt

/-! ## Tables -/

theorem unsatisfied_anchored (satisfied? : StatementKind → Option TableKey) :
    d.Anchored (TableLedger.ofDocument satisfied? d).unsatisfied := by
  constructor
  · intro place hplace
    rw [unsatisfied_eq h] at hplace
    obtain ⟨x, hx, rfl⟩ := List.mem_map.mp hplace
    obtain ⟨n, hn, hcreated⟩ := List.mem_filterMap.mp (List.mem_filter.mp hx).1
    obtain ⟨name, t, span, rfl, _, hlocation⟩ := Node.created?_eq_some hcreated
    obtain ⟨m, hm, hstart⟩ := Node.reaches_location name t span
    obtain ⟨_, _, hstands⟩ := stands_of_ne_script h (Node.mem_preorder.mp hn) nofun
    obtain ⟨_, _, _, _, hstands⟩ := hstands.reaches (terminals_ordered h) hm
    rw [hlocation, ← hstart]
    exact (stands_marks h hstands).isTokenStart
  · apply (unsatisfied_pairwise h satisfied?).imp
    rintro place _ hlt rfl
    exact Location.lt_irrefl _ hlt

/-! ## Rules -/

theorem locations_anchored (rule : Rule) : d.Anchored (rule.locations d) := by
  have hconcatenations : ∀ p, d.Anchored (d.concatenations p) :=
    fun p => (chains_anchored h .add).sublist (List.filter_sublist.map _)
  cases rule with
  | heapTable => exact unsatisfied_anchored h _
  | rowIdentity => exact unsatisfied_anchored h _
  | tableDescription => exact unsatisfied_anchored h _
  | separatedConcatenation => exact hconcatenations _
  | nullReplacingConcatenation => exact hconcatenations _
  | convertingConcatenation => exact hconcatenations _
  | columnAlias => exact bareAliases_anchored h fun _ _ => Node.hasAlias_of_columnAlias?
  | tableAlias => exact bareAliases_anchored h fun _ _ => Node.hasAlias_of_tableAlias?
  | joinType => exact bareJoins_anchored h
  | guardedConversion => exact guardedConversions_anchored h
  | predicateConversion => exact convertedPredicates_anchored h

end Document

theorem Rule.id_pairwise : Rule.all.Pairwise fun rule rule' => rule.id ≠ rule'.id := by decide

namespace Document

theorem reports_nodup {sql : String} {d : Document} (h : parse sql = .ok d) (c : Configuration) :
    ((d.reports c).map fun v => (v.ruleId, v.location)).Nodup := by
  have hrule : ∀ rule : Rule, (rule.violations d).map (fun v => (v.ruleId, v.location)) =
      (rule.locations d).map fun place => (rule.id, place) := by
    intro rule
    rw [Rule.violations, List.map_map]
    rfl
  rw [reports, List.map_flatMap]
  simp only [hrule]
  apply List.nodup_flatMap.mpr
  constructor
  · intro rule _
    exact (locations_anchored h rule).nodup.map fun _ _ heq => (Prod.mk.inj heq).2
  · apply (Rule.id_pairwise.filter _).imp
    intro rule rule' hne x hx hx'
    obtain ⟨_, _, rfl⟩ := List.mem_map.mp hx
    obtain ⟨_, _, heq⟩ := List.mem_map.mp hx'
    exact hne (Prod.mk.inj heq).1.symm

/-- No two violations of a script are of one rule at one place, and each is at the start of a significant token. -/
theorem violations_anchored {sql : String} {d : Document} (h : parse sql = .ok d) (c : Configuration) :
    ∃ vs, lint sql c = .ok vs ∧
      vs.Pairwise (fun v w => (v.ruleId, v.location.line, v.location.column) ≠
        (w.ruleId, w.location.line, w.location.column)) ∧
      ∀ v ∈ vs, ∃ t ∈ d.tokens, t.isTrivia = false ∧ t.start = v.location := by
  refine ⟨d.violations c, by rw [lint, h], ?_, ?_⟩
  · have hperm := (stableSort_perm (fun v w => decide (v.location ≤ w.location)) (d.reports c)).map
      fun v => (v.ruleId, v.location)
    have hnodup := List.pairwise_map.mp (hperm.nodup_iff.mpr (reports_nodup h c))
    apply hnodup.imp
    intro v w hne heq
    simp only [Prod.mk.injEq] at heq
    obtain ⟨hrule, hline, hcolumn⟩ := heq
    have hlocation : v.location = w.location := by
      change (⟨v.location.line, v.location.column⟩ : Location) = _
      rw [hline, hcolumn]
    exact hne (by rw [hrule, hlocation])
  · intro v hv
    rw [violations, (stableSort_perm _ _).mem_iff, reports] at hv
    obtain ⟨rule, _, hv⟩ := List.mem_flatMap.mp hv
    obtain ⟨place, hplace, rfl⟩ := List.mem_map.mp hv
    exact (locations_anchored h rule).starts place hplace

/-- Two chains in one are reported once by each of two rules, and two joins each at their own word. -/
theorem violations_anchored_joins :
    let sql := "SELECT a x FROM t JOIN u ON CAST(t.b AS INT) = 1 " ++
      "LEFT JOIN (SELECT 'p' + (ISNULL(c, '') + d) y) v ON 1 = 1"
    ∃ d vs, parse sql = .ok d ∧ lint sql .allRules = .ok vs ∧
      vs.map (fun v => v.location.column) = [10, 19, 29, 55, 68, 68, 94, 97] ∧
      vs.Pairwise (fun v w => (v.ruleId, v.location.line, v.location.column) ≠
        (w.ruleId, w.location.line, w.location.column)) ∧
      ∀ v ∈ vs, ∃ t ∈ d.tokens, t.isTrivia = false ∧ t.start = v.location := by
  intro sql
  obtain ⟨d, hd, hcolumns⟩ : ∃ d ∈ (parse sql).toOption,
      (d.violations .allRules).map (fun v => v.location.column) = [10, 19, 29, 55, 68, 68, 94, 97] := by
    decide +kernel
  have hd := eq_ok_of_mem_toOption hd
  obtain ⟨vs, hlint, hdistinct, hstarts⟩ := violations_anchored hd .allRules
  have hvs : lint sql .allRules = .ok (d.violations .allRules) := by rw [lint, hd]
  rw [hvs] at hlint
  cases hlint
  exact ⟨d, _, hd, hvs, hcolumns, hdistinct, hstarts⟩

end Document

end TransactLint
