import TransactLint.Proofs.Form.Statement
import TransactLint.Proofs.OutermostChains

/-!
# Precedence

In the tree of a script no operand binds looser than its operator allows: an expression of a looser rank stands
below a tighter one only inside parentheses.
-/

namespace TransactLint

open Grammar (Rank)

/-- The direct operands have ranks that the expression allows: operators group to the left, and predicates do not
group. -/
def ExprKind.Laddered : ExprKind → Prop
  | .binary op left right =>
    if op.isComparison then Rank.additive ≤ left.rank ∧ Rank.additive ≤ right.rank
    else op.rank ≤ left.rank ∧ op.rank < right.rank
  | .unary op operand => op.rank ≤ operand.rank
  | .isNull operand _ | .inList operand _ _ | .inSubquery operand _ _ => Rank.additive ≤ operand.rank
  | .between operand low high _ => Rank.additive ≤ operand.rank ∧ Rank.additive ≤ low.rank ∧
      Rank.additive ≤ high.rank
  | .like operand pattern escape _ =>
    Rank.additive ≤ operand.rank ∧ Rank.additive ≤ pattern.rank ∧ ∀ e ∈ escape, Rank.additive ≤ e.rank
  | _ => True

/-- The next rank after that of an operator is a tighter one. -/
theorem BinaryOperator.rank_lt {op : BinaryOperator} {r : Rank} (h : op.rank.next ≤ r) : op.rank < r := by
  cases op <;> exact h

theorem ExprKind.laddered_of_operands {kind : ExprKind} (h : ∀ x ∈ kind.operands, x.2 ≤ x.1.rank) :
    kind.Laddered := by
  unfold Laddered
  split
  · rename_i op left right
    simp only [operands, BinaryOperator.leftRank, List.forall_mem_cons] at h
    obtain ⟨hleft, hright, -⟩ := h
    split
    · rename_i hcomparison
      rw [if_pos hcomparison] at hleft
      rw [BinaryOperator.rank_of_isComparison hcomparison] at hright
      exact ⟨hleft, hright⟩
    · rename_i hcomparison
      rw [if_neg hcomparison] at hleft
      exact ⟨hleft, BinaryOperator.rank_lt hright⟩
  · simpa [operands] using h
  · simpa [operands] using h
  · simpa [operands] using h
  · simpa [operands] using h
  · simpa [operands] using h
  · simpa [operands] using h
  · trivial

namespace Document

/-- Every expression of a document obeys the ladder of ranks. -/
theorem operators_ranked {sql : String} {d : Document} (h : parse sql = .ok d) {e : Expr}
    (he : Node.expr e ∈ d.nodes) : e.kind.Laddered :=
  ExprKind.laddered_of_operands (proper_of_mem h he).operands

/-- A disjunction over all other ranks. -/
theorem operators_ranked_disjunction :
    ∃ d e, parse "SELECT 1 WHERE NOT a = 1 + 2 * -b AND c NOT LIKE d ESCAPE e OR f IN (g OR h)" = .ok d ∧
      Node.expr e ∈ d.nodes ∧ e.rank = .disjunction ∧ e.kind.Laddered := by
  obtain ⟨d, hd, e, he, hrank⟩ :
      ∃ d ∈ (parse "SELECT 1 WHERE NOT a = 1 + 2 * -b AND c NOT LIKE d ESCAPE e OR f IN (g OR h)").toOption,
        ∃ e ∈ d.nodes.filterMap (Chain.topOf? .or), e.rank = .disjunction := by
    decide +kernel
  obtain ⟨n, hn, htop⟩ := List.mem_filterMap.mp he
  obtain ⟨rfl, -⟩ := Chain.topOf?_eq_some htop
  have hd := eq_ok_of_mem_toOption hd
  exact ⟨d, e, hd, hn, hrank, operators_ranked hd hn⟩

end Document

end TransactLint
