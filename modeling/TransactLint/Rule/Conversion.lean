import TransactLint.Guard
import TransactLint.Node.Scope

/-!
# Conversions

Two habits around `CAST` and `CONVERT`: asking whether a value converts before converting it, and
converting a column in a predicate.
-/

namespace TransactLint

/-! ## Guarded conversions -/

/-- Whether the condition asks about the value that the result converts. -/
def WhenClause.convertsGuarded (w : WhenClause) : Bool :=
  w.condition.guardedKey?.any fun key => w.result.convertsKey key

/-- The place of a searched `CASE` with a branch that converts what its condition asks about. -/
def Node.guardedConversion? : Node → Option Location
  | .expr ⟨.choice none branches _, span⟩ =>
    if branches.any WhenClause.convertsGuarded then some span.start else none
  | _ => none

/-- The places of the `CASE` expressions that a `TRY_` conversion would replace. -/
def Document.guardedConversions (d : Document) : List Location :=
  d.nodes.filterMap Node.guardedConversion?

/-! ## Conversions in predicates -/

/-- Whether the expression is a predicate with a conversion of a column on one of its sides. -/
def Expr.comparesConverted (e : Expr) : Bool :=
  match e.kind with
  | .binary op left right => op.isComparison && (left.convertsColumn || right.convertsColumn)
  | .like operand pattern _ _ => operand.convertsColumn || pattern.convertsColumn
  | .inList operand _ _ | .inSubquery operand _ _ => operand.convertsColumn
  | .between operand low high _ =>
    operand.convertsColumn || low.convertsColumn || high.convertsColumn
  | _ => false

/-- Whether the node is a `WHERE` clause or a join: predicates below it select rows. -/
def Node.opensPredicates : Node → Bool
  | .whereClause _ => true
  | .tableSource ⟨.qualifiedJoin _ _ _ _, _⟩ | .tableSource ⟨.unqualifiedJoin _ _ _, _⟩ => true
  | _ => false

/-- Notes the place of a predicate that converts a column, if a scope is around it. -/
def Node.notePredicate (places : List Location) (depth : Nat) : Node → List Location
  | .expr e => if 0 < depth && e.comparesConverted then e.span.start :: places else places
  | _ => places

/-- The places of the predicates below a `WHERE` clause or a join that convert a column. -/
def Document.convertedPredicates (d : Document) : List Location :=
  ((Visitor.withScopes Node.opensPredicates Node.notePredicate).traverse d.root ⟨0, []⟩).state.reverse

end TransactLint
