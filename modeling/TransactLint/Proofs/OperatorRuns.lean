import TransactLint.Proofs.Ladder

/-!
# Chains of operators

An expression of a rank whose operators group to the left is a first operand and rounds of an operator and
an operand. `Runs` keeps such a chain open, so that it can be lengthened at its end.
-/

namespace TransactLint.Grammar

open TransactLint.Parser

variable {ts : Terminals} {inner : Level} {pos mid pos' : Nat}

namespace Rank

def operator? : Rank → Option (Parser (Option BinaryOperator))
  | disjunction => some (keywordOperator .OR .or)
  | conjunction => some (keywordOperator .AND .and)
  | additive => some (chainOperator additiveOperator)
  | multiplicative => some (chainOperator multiplicativeOperator)
  | _ => none

/-- The rank of the operands of a chain, the rank itself where there are none. -/
def tight (r : Rank) : Rank := if r.operator?.isSome then r.next else r

theorem le_tight (r : Rank) : r ≤ r.tight := by
  cases r <;> decide

theorem tight_mono {r own : Rank} (hle : r ≤ own) : r.tight ≤ own.tight := by
  cases r <;> cases own <;> first | decide | exact absurd hle (by decide)

theorem tight_le {r own : Rank} (hle : r ≤ own) (hne : r ≠ own) : r.tight ≤ own := by
  cases r <;> cases own <;> first | decide | exact absurd rfl hne | exact absurd hle (by decide)

theorem operator_of_endsAt {r : Rank} {operator : Parser (Option BinaryOperator)} (h : r.operator? = some operator)
    (hend : r.EndsAt ts pos) : operator ts pos = .ok (none, pos) := by
  cases r with
  | disjunction =>
    cases h
    exact optionIf_of_not (consume_of_not (hend.isKind (by decide)))
  | conjunction =>
    cases h
    exact optionIf_of_not (consume_of_not (hend.isKind (by decide)))
  | additive =>
    cases h
    exact chainOperator_of_endsAt hend additiveOperator_of_not
  | multiplicative =>
    cases h
    exact chainOperator_of_endsAt hend multiplicativeOperator_of_not
  | _ => cases h

end Rank

/-- One operator and operand after `left`, which begins at `start`. -/
def chainStep {α β : Type} (operand : Parser α) (operator : Parser (Option β))
    (make : β → α → α → Span → α) (start : Nat) (left : α) : Parser (Option α) := do
  match ← operator with
  | some op =>
    let right ← operand
    let span ← spanFrom start
    pure (some (make op left right span))
  | none => pure none

theorem leftChain_eq {α β : Type} (operand : Parser α) (operator : Parser (Option β))
    (make : β → α → α → Span → α) :
    leftChain operand operator make = position >>= fun start =>
      operand >>= iterate (chainStep operand operator make start) :=
  rfl

/-- `e` stands from `pos` to `pos'` as an expression of rank `r`, to which more of that rank may be chained. -/
inductive Runs (inner : Level) (ts : Terminals) (pos : Nat) : Rank → Expr → Nat → Prop where
  | read {r : Rank} {e : Expr} {pos' : Nat} (h : r.operator? = none)
      (hread : r.parser inner ts pos = .ok (e, pos')) :
      Runs inner ts pos r e pos'
  | chain {r : Rank} {operator : Parser (Option BinaryOperator)} {first e : Expr} {mid pos' : Nat}
      (h : r.operator? = some operator) (hfirst : r.next.parser inner ts pos = .ok (first, mid))
      (hloops : Loops (chainStep (r.next.parser inner) operator binaryExpr pos) ts first mid e pos') :
      Runs inner ts pos r e pos'

namespace Runs

variable {r own : Rank} {e : Expr}

theorem parser (h : Runs inner ts pos r e pos') (hend : r.EndsAt ts pos') :
    r.parser inner ts pos = .ok (e, pos') := by
  cases h with
  | read _ hread => exact hread
  | chain h hfirst hloops =>
    rename_i operator first mid
    have hchain : leftChain (r.next.parser inner) operator binaryExpr ts pos = .ok (e, pos') := by
      rw [leftChain_eq, position, bind_look, bind_of_ok hfirst]
      refine iterate_of_loops hloops ?_
      exact bind_of_ok (Rank.operator_of_endsAt h hend)
    cases r <;> cases h <;> exact hchain

theorem of_tight (h : r.tight.parser inner ts pos = .ok (e, pos')) : Runs inner ts pos r e pos' := by
  cases hr : r.operator? with
  | none =>
    rw [Rank.tight, hr] at h
    exact .read hr h
  | some operator =>
    rw [Rank.tight, hr] at h
    exact .chain hr h (.refl _ _)

/-- An expression of a tighter rank is one of a looser rank. -/
theorem loosen (hle : r ≤ own) (h : Runs inner ts pos own e pos') (hend : r.tight.EndsAt ts pos') :
    Runs inner ts pos r e pos' := by
  by_cases hr : r = own
  · exact hr ▸ h
  · have htight := Rank.tight_le hle hr
    exact of_tight (Rank.parser_of_le htight (h.parser (hend.mono htight)) hend)

/-- One more operator and operand. -/
theorem snoc {operator : Parser (Option BinaryOperator)} {op : BinaryOperator} {left right : Expr} {next : Nat}
    (hr : r.operator? = some operator) (h : Runs inner ts pos r left mid)
    (hop : operator ts mid = .ok (some op, next)) (hright : r.next.parser inner ts next = .ok (right, pos'))
    (hlt : mid < pos') (hsize : pos' ≤ ts.size) :
    Runs inner ts pos r ⟨.binary op left right, ts.span pos pos'⟩ pos' := by
  cases h with
  | read h _ =>
    rw [h] at hr
    cases hr
  | chain h hfirst hloops =>
    rw [h] at hr
    cases hr
    refine .chain h hfirst (hloops.trans (.round ?_ hlt hsize (.refl _ _)))
    rw [chainStep, bind_of_ok hop]
    exact bind_of_ok hright

end Runs

end TransactLint.Grammar
