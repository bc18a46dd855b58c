import TransactLint.Node.Basic

/-!
# Sizes

The children of a node are together smaller than the node, so a walk that replaces a node by its
children ends.
-/

namespace TransactLint

/-- The sizes of some nodes together. -/
noncomputable def Node.weight : List Node → Nat
  | [] => 0
  | n :: ns => sizeOf n + weight ns

namespace Node

/-! ## Weights of field lists -/

@[simp]
theorem weight_nil : weight [] = 0 := rfl

@[simp]
theorem weight_cons (n : Node) (ns : List Node) : weight (n :: ns) = sizeOf n + weight ns := rfl

@[simp]
theorem weight_append (ms ns : List Node) : weight (ms ++ ns) = weight ms + weight ns := by
  induction ms with
  | nil => simp
  | cons m ms ih => simp [ih, Nat.add_assoc]

theorem weight_perm {ms ns : List Node} (h : ms.Perm ns) : weight ms = weight ns := by
  induction h with
  | nil => rfl
  | cons n _ ih => simp [ih]
  | swap m n ns => simp [Nat.add_left_comm]
  | trans _ _ ihm ihn => exact ihm.trans ihn

theorem weight_map {α : Type} [SizeOf α] {f : α → Node} (hf : ∀ a, sizeOf (f a) = 1 + sizeOf a)
    (as : List α) : weight (as.map f) = sizeOf as - 1 := by
  induction as with
  | nil => rfl
  | cons a as ih =>
    have : 1 ≤ sizeOf as := by
      cases as with
      | nil => exact Nat.le_refl 1
      | cons b bs =>
        rw [List.cons.sizeOf_spec]
        omega
    simp only [List.map_cons, weight_cons, hf, ih, List.cons.sizeOf_spec]
    omega

theorem sizeOf_toList {α : Type} [SizeOf α] (a? : Option α) :
    sizeOf a?.toList = sizeOf a? + 1 - a?.isNone.toNat := by
  cases a? with
  | none => rfl
  | some a => simp

theorem two_le_sizeOf_span (s : Span) : 2 ≤ sizeOf s := by
  obtain ⟨⟨line, column⟩, firstToken, lastToken, offset, length⟩ := s
  rw [Span.mk.sizeOf_spec, Location.mk.sizeOf_spec]
  omega

theorem sizeOf_flatten_le {α : Type} [SizeOf α] (rows : List (List α)) :
    sizeOf rows.flatten ≤ sizeOf rows := by
  induction rows with
  | nil => exact Nat.le_refl _
  | cons row rows ih =>
    rw [List.flatten_cons, List.cons.sizeOf_spec]
    induction row with
    | nil => simp only [List.nil_append]; omega
    | cons a row ih' => simp only [List.cons_append, List.cons.sizeOf_spec]; omega

/-! ## Weights of parts -/

theorem weight_execution (x : Execution) : weight x.parts ≤ sizeOf x + 1 := by
  obtain ⟨returnVariable, target⟩ := x
  cases target <;> simp [Execution.parts, weight_map, sizeOf_toList] <;> omega

theorem weight_insertSource (x : InsertSource) : weight x.parts ≤ sizeOf x + 1 := by
  cases x with
  | values rows =>
    have := sizeOf_flatten_le rows
    rw [InsertSource.parts, weight_map Node.expr.sizeOf_spec, InsertSource.values.sizeOf_spec]
    omega
  | execution x =>
    have := weight_execution x
    simp [InsertSource.parts]
    omega
  | query q | defaultValues => simp [InsertSource.parts]

theorem weight_statementKind (k : StatementKind) : weight k.parts ≤ sizeOf k + 2 := by
  cases k with
  | insertion x =>
    have := weight_insertSource x.source
    cases x
    simp_all [StatementKind.parts, weight_map, sizeOf_toList]
    omega
  | execution x =>
    have := weight_execution x
    simp [StatementKind.parts]
    omega
  | update x | deletion x | createIndex x | createView x | removal x =>
    cases x
    simp [StatementKind.parts, weight_map, sizeOf_toList]
    omega
  | alterTable name action =>
    cases action <;> simp [StatementKind.parts]
    omega
  | _ => simp [StatementKind.parts, weight_map, sizeOf_toList] <;> omega

theorem weight_queryExprKind (k : QueryExprKind) : weight k.parts ≤ sizeOf k + 2 := by
  cases k <;> simp [QueryExprKind.parts]
  omega

theorem weight_selectElementKind (k : SelectElementKind) : weight k.parts ≤ sizeOf k + 2 := by
  cases k <;> simp [SelectElementKind.parts, weight_map, sizeOf_toList] <;> omega

theorem weight_tableSourceKind (k : TableSourceKind) : weight k.parts ≤ sizeOf k + 2 := by
  cases k <;> simp [TableSourceKind.parts, weight_map, sizeOf_toList] <;> omega

theorem weight_exprKind (k : ExprKind) : weight k.parts ≤ sizeOf k + 2 := by
  cases k <;> simp [ExprKind.parts, weight_map, sizeOf_toList] <;> omega

theorem weight_constraintKind (k : ConstraintKind) : weight k.parts ≤ sizeOf k + 2 := by
  cases k <;> simp [ConstraintKind.parts, weight_map, sizeOf_toList] <;> omega

theorem weight_declarationKind (k : DeclarationKind) : weight k.parts ≤ sizeOf k + 2 := by
  cases k <;> simp [DeclarationKind.parts, weight_map, sizeOf_toList]
  omega

theorem weight_parts_lt (n : Node) : weight n.parts < sizeOf n := by
  cases n with
  | statement x =>
    have := weight_statementKind x.kind
    have := two_le_sizeOf_span x.span
    cases x
    simp_all [parts]
    omega
  | queryExpr x =>
    have := weight_queryExprKind x.kind
    have := two_le_sizeOf_span x.span
    cases x
    simp_all [parts]
    omega
  | selectElement x =>
    have := weight_selectElementKind x.kind
    have := two_le_sizeOf_span x.span
    cases x
    simp_all [parts]
    omega
  | tableSource x =>
    have := weight_tableSourceKind x.kind
    have := two_le_sizeOf_span x.span
    cases x
    simp_all [parts]
    omega
  | expr x =>
    have := weight_exprKind x.kind
    have := two_le_sizeOf_span x.span
    cases x
    simp_all [parts]
    omega
  | constraint x =>
    have := weight_constraintKind x.kind
    have := two_le_sizeOf_span x.span
    cases x
    simp_all [parts, weight_map, sizeOf_toList]
    omega
  | declaration x =>
    have := weight_declarationKind x.kind
    have := two_le_sizeOf_span x.span
    cases x
    simp_all [parts]
    omega
  | script x | batch x | query x | commonTable x | specification x | topClause x | whereClause x
  | orderItem x | whenClause x | window x | tableDefinition x | column x | index x | indexColumn x
  | argument x | parameter x | assignment x | objectName x | ident x | dataType x =>
    have := two_le_sizeOf_span x.span
    cases x
    simp_all [parts, weight_map, sizeOf_toList] <;> omega

/-- The children of a node are together smaller than the node. -/
theorem weight_children_lt (n : Node) : weight n.children < sizeOf n := by
  have h : weight n.children = weight n.parts := weight_perm (stableSort_perm _ _)
  rw [h]
  exact weight_parts_lt n

end Node

end TransactLint
