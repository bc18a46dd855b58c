import TransactLint.Proofs.Layout
import TransactLint.Proofs.Relocation.Tree

/-!
# Functions on spans that agree

A node that stands among terminals holds no spans but those from one terminal to another, so two functions
that agree on these give the same node.
-/

namespace TransactLint

section
variable {F G : Span → Span}

theorem map_option_inj {α β : Type} {f g : α → β} {x : Option α} :
    x.map f = x.map g ↔ ∀ a, x = some a → f a = g a := by
  refine ⟨?_, Option.map_congr⟩
  rintro h a rfl
  exact Option.some.inj h

/-! ## Kinds -/

theorem ExprKind.relocate_congr {k : ExprKind} (h : ∀ c ∈ k.constituents, c.relocate F = c.relocate G) :
    k.relocate F = k.relocate G := by
  cases k with
  | literal _ _ | wildcard => rfl
  | _ =>
    simp only [constituents, parts, List.forall_mem_append, List.forall_mem_cons, List.forall_mem_map,
      Option.mem_toList] at h
    simpa [relocate, mapSpans, Node.relocate, map_option_inj, and_assoc] using h

theorem QueryExprKind.relocate_congr {k : QueryExprKind} (h : ∀ c ∈ k.parts, c.relocate F = c.relocate G) :
    k.relocate F = k.relocate G := by
  cases k <;> simpa [parts, relocate, mapSpans, Node.relocate] using h

theorem SelectElementKind.relocate_congr {k : SelectElementKind}
    (h : ∀ c ∈ k.parts, c.relocate F = c.relocate G) : k.relocate F = k.relocate G := by
  cases k <;> simpa [parts, relocate, mapSpans, Node.relocate, map_option_inj] using h

theorem TableSourceKind.relocate_congr {k : TableSourceKind}
    (h : ∀ c ∈ k.parts, c.relocate F = c.relocate G) : k.relocate F = k.relocate G := by
  cases k <;> simpa [parts, relocate, mapSpans, Node.relocate, or_imp, forall_and, map_option_inj] using h

theorem ConstraintKind.relocate_congr {k : ConstraintKind}
    (h : ∀ c ∈ k.parts, c.relocate F = c.relocate G) : k.relocate F = k.relocate G := by
  cases k <;> simpa [parts, relocate, mapSpans, Node.relocate, or_imp, forall_and, map_option_inj] using h

theorem DeclarationKind.relocate_congr {k : DeclarationKind}
    (h : ∀ c ∈ k.parts, c.relocate F = c.relocate G) : k.relocate F = k.relocate G := by
  cases k <;> simpa [parts, relocate, mapSpans, Node.relocate, map_option_inj] using h

theorem Execution.mapSpans_congr {x : Execution} (h : ∀ c ∈ x.parts, c.relocate F = c.relocate G) :
    mapSpans F x = mapSpans G x := by
  obtain ⟨returnVariable, target⟩ := x
  cases target <;>
    simpa [parts, mapSpans, ExecutionTarget.relocate, Node.relocate, or_imp, forall_and, map_option_inj] using h

theorem InsertSource.relocate_congr {x : InsertSource} (h : ∀ c ∈ x.parts, c.relocate F = c.relocate G) :
    x.relocate F = x.relocate G := by
  cases x with
  | values rows =>
    refine congrArg InsertSource.values (List.map_congr_left fun row hrow => List.map_congr_left fun e he => ?_)
    exact Node.expr.inj (h (.expr e) (List.mem_map_of_mem (List.mem_flatten_of_mem hrow he)))
  | query q => simpa [parts, relocate, mapSpans, Node.relocate] using h
  | execution x => exact congrArg _ (x.mapSpans_congr h)
  | defaultValues => rfl

theorem StatementKind.relocate_congr {k : StatementKind} (h : ∀ c ∈ k.parts, c.relocate F = c.relocate G) :
    k.relocate F = k.relocate G := by
  cases k with
  | execution x => exact congrArg _ (x.mapSpans_congr h)
  | alterTable name action =>
    cases action <;> simpa [parts, relocate, mapSpans, AlterAction.relocate, Node.relocate] using h
  | insertion x =>
    have hsource := InsertSource.relocate_congr fun c hc => h c (List.mem_append_right _ hc)
    simp only [parts, List.forall_mem_append] at h
    simpa [relocate, mapSpans, Node.relocate, or_imp, forall_and, map_option_inj, hsource] using h.1
  | breakLoop | continueLoop | unmodelled _ => rfl
  | _ =>
    simp only [parts, List.forall_mem_append, List.forall_mem_cons, List.forall_mem_map, Option.mem_toList] at h
    simpa [relocate, mapSpans, Node.relocate, map_option_inj, and_assoc] using h

/-! ## Nodes -/

theorem Node.relocate_congr {n : Node} (hspan : F n.span = G n.span)
    (h : ∀ c ∈ n.constituents, c.relocate F = c.relocate G) : n.relocate F = n.relocate G := by
  cases n with
  | statement x =>
    cases x
    exact congrArg Node.statement (congrArg₂ Statement.mk (StatementKind.relocate_congr h) hspan)
  | queryExpr x =>
    cases x
    exact congrArg Node.queryExpr (congrArg₂ QueryExpr.mk (QueryExprKind.relocate_congr h) hspan)
  | selectElement x =>
    cases x
    exact congrArg Node.selectElement (congrArg₂ SelectElement.mk (SelectElementKind.relocate_congr h) hspan)
  | tableSource x =>
    cases x
    exact congrArg Node.tableSource (congrArg₂ TableSource.mk (TableSourceKind.relocate_congr h) hspan)
  | expr x =>
    cases x
    exact congrArg Node.expr (congrArg₂ Expr.mk (ExprKind.relocate_congr h) hspan)
  | constraint x =>
    have hkind := ConstraintKind.relocate_congr fun c hc => h c (List.mem_append_right _ hc)
    simp only [constituents, parts, List.forall_mem_append] at h
    simp only [span] at hspan
    simpa [relocate, mapSpans, map_option_inj, hkind, hspan] using h.1
  | declaration x =>
    have hkind := DeclarationKind.relocate_congr fun c hc => h c (List.mem_cons_of_mem _ hc)
    have hname := h (.ident x.name) List.mem_cons_self
    simp only [span] at hspan
    simpa [relocate, mapSpans, hkind, hspan] using hname
  | query x | commonTable x | specification x | topClause x | whereClause x | orderItem x | whenClause x
  | window x =>
    cases x
    simp only [span] at hspan
    simp only [constituents, parts, List.forall_mem_append, List.forall_mem_cons, List.forall_mem_map,
      Option.mem_toList] at h
    simpa [relocate, mapSpans, Query.relocate, CommonTable.relocate, QuerySpecification.relocate,
      TopClause.relocate, WhereClause.relocate, OrderItem.relocate, WhenClause.relocate, Window.relocate,
      map_option_inj, and_assoc, hspan] using h
  | ident x =>
    simp only [span] at hspan
    simp [relocate, mapSpans, hspan]
  | _ =>
    simp only [span] at hspan
    simp only [constituents, parts, List.forall_mem_append, List.forall_mem_cons, List.forall_mem_map,
      Option.mem_toList] at h
    simpa [relocate, mapSpans, map_option_inj, and_assoc, hspan] using h

variable {ts : Terminals}

mutual

theorem Stands.relocate_congr {n : Node} {a b : Nat}
    (hagree : ∀ {a b : Nat}, a < b → b ≤ ts.size → F (ts.span a b) = G (ts.span a b)) :
    Stands ts n a b → n.relocate F = n.relocate G
  | .intro hab hspan horder hrow => by
    have hspans : F n.span = G n.span := by rw [hspan, hagree hab hrow.le.2]
    have hparts := List.map_inj_left.mp (hrow.relocate_congr hagree)
    exact Node.relocate_congr hspans fun c hc => hparts c (horder.mem_iff.mpr hc)

theorem Row.relocate_congr {ns : List Node} {a b : Nat}
    (hagree : ∀ {a b : Nat}, a < b → b ≤ ts.size → F (ts.span a b) = G (ts.span a b)) :
    Row ts ns a b → ns.map (Node.relocate F) = ns.map (Node.relocate G)
  | .nil _ _ => rfl
  | .cons _ hn hns => congrArg₂ List.cons (hn.relocate_congr hagree) (hns.relocate_congr hagree)

end

end

end TransactLint
