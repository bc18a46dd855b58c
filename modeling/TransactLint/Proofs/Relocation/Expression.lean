import TransactLint.Grammar.Expression
import TransactLint.Proofs.Relocation.Name

/-!
# Expressions at other places
-/

namespace TransactLint.Grammar

open TransactLint.Parser

structure Level.Mirrors {ts ts' : Terminals} (ρ : Relocation ts ts') (inner : Level) : Prop where
  expression : Parser.Mirrors ρ inner.expression inner.expression
  negated : Parser.Mirrors ρ inner.negated inner.negated
  signed : Parser.Mirrors ρ inner.signed inner.signed
  query : Parser.Mirrors ρ inner.query inner.query
  statement : Parser.Mirrors ρ inner.statement inner.statement

variable {ts ts' : Terminals} {ρ : Relocation ts ts'} {inner : Level} (h : inner.Mirrors ρ)
include h

theorem expressionList_mirrors : Mirrors ρ (expressionList inner) (expressionList inner) :=
  h.expression.commaSeparated

/-! ## Ordering -/

omit h in
theorem sortDirection_mirrors : Mirrors ρ sortDirection sortDirection := by
  refine (consumeKeyword_mirrors _).bind fun _ => .ite (.pure rfl) ?_
  exact (consumeKeyword_mirrors _).bind fun _ => .ite (.pure rfl) (.pure rfl)

theorem orderItem_mirrors : Mirrors ρ (orderItem inner) (orderItem inner) := by
  refine .spanned (h.expression.bind fun expr => sortDirection_mirrors.bind fun direction => .pure rfl) ?_
  rintro ⟨expr, direction | _⟩ span <;> rfl

theorem orderBy_mirrors : Mirrors ρ (orderBy inner) (orderBy inner) :=
  (expectKeyword_mirrors _).bind fun _ => (expectKeyword_mirrors _).bind fun _ =>
    (orderItem_mirrors h).commaSeparated

/-! ## Calls -/

theorem callArguments_mirrors : Mirrors ρ (callArguments inner) (callArguments inner) := by
  have hend : ∀ x : Bool × List Expr, Mirrors ρ (do
      expect .rightParen
      pure x) (do
      expect .rightParen
      pure (mapSpans ρ.move x)) :=
    fun x => (expect_mirrors _).bind fun _ => .pure rfl
  have harguments : ∀ distinct : Bool, Mirrors ρ (do
      let arguments ← expressionList inner
      let x ← pure (distinct, arguments)
      expect .rightParen
      pure x) (do
      let arguments ← expressionList inner
      let x ← pure (distinct, arguments)
      expect .rightParen
      pure x) :=
    fun distinct => (expressionList_mirrors h).bind fun arguments => .bind (.pure rfl) hend
  refine (expect_mirrors _).bind fun _ => .look (fun pos => ρ.isKind pos _) fun _ => .ite ?_ ?_
  · exact .bind (.pure rfl) hend
  · refine (consumeKeyword_mirrors _).bind fun distinct => .ite ?_ ?_
    · exact .bind (.pure (rfl : mapSpans ρ.move false = false)) fun _ => harguments distinct
    · exact (consumeKeyword_mirrors _).bind fun _ => harguments distinct

theorem withinGroup_mirrors : Mirrors ρ (withinGroup inner) (withinGroup inner) := by
  refine .listIf (.test fun pos => by simp) ?_
  refine skipTwo_mirrors.bind fun _ => (expect_mirrors _).bind fun _ => ?_
  refine (orderBy_mirrors h).bind fun items => ?_
  exact (expect_mirrors _).bind fun _ => .pure rfl

theorem windowBody_mirrors : Mirrors ρ (windowBody inner) (windowBody inner) := by
  refine .spanned ((expect_mirrors _).bind fun _ => ?_) ?_
  · refine .bind (.listIf (.test fun pos => by simp) ?_) fun partition => ?_
    · exact skipTwo_mirrors.bind fun _ => expressionList_mirrors h
    refine .bind (.listIf (.test fun pos => by simp) (orderBy_mirrors h)) fun order => ?_
    refine (skipUntil_mirrors fun pos => by simp).bind fun _ => ?_
    exact (expect_mirrors _).bind fun _ => .pure rfl
  · rintro ⟨partition, order⟩ span
    simp [mapSpans, Window.relocate]

/-- The name may be another, as long as it has the same text. -/
theorem call_mirrors (name : ObjectName) :
    Mirrors ρ (call inner name) (call inner (mapSpans ρ.move name)) := by
  refine (callArguments_mirrors h).bind fun x => ?_
  obtain ⟨distinct, arguments⟩ := x
  refine (withinGroup_mirrors h).bind fun group => ?_
  refine .bind (.optionIf (consumeKeyword_mirrors _) (windowBody_mirrors h)) fun window => .pure ?_
  simp [mapSpans, ExprKind.relocate]

theorem castCall_mirrors (function : ConversionFunction) :
    Mirrors ρ (castCall inner function) (castCall inner function) := by
  refine skip_mirrors.bind fun _ => (expect_mirrors _).bind fun _ => ?_
  refine h.expression.bind fun operand => (expectKeyword_mirrors _).bind fun _ => ?_
  exact dataType_mirrors.bind fun target => (expect_mirrors _).bind fun _ => .pure rfl

theorem convertCall_mirrors (function : ConversionFunction) :
    Mirrors ρ (convertCall inner function) (convertCall inner function) := by
  refine skip_mirrors.bind fun _ => (expect_mirrors _).bind fun _ => ?_
  refine dataType_mirrors.bind fun target => (expect_mirrors _).bind fun _ => ?_
  refine h.expression.bind fun operand => ?_
  refine .bind (.optionIf (consume_mirrors _) h.expression) fun style => (expect_mirrors _).bind fun _ => .pure ?_
  simp [mapSpans, ExprKind.relocate]

/-! ## Primary expressions -/

omit h in
theorem literal_mirrors (kind : LiteralKind) (t : Token) : Mirrors ρ (literal kind t) (literal kind t) :=
  skip_mirrors.bind fun _ => .pure rfl

theorem whenClause_mirrors : Mirrors ρ (whenClause inner) (whenClause inner) := by
  refine .spanned ((expectKeyword_mirrors _).bind fun _ => h.expression.bind fun condition => ?_) fun _ _ => rfl
  refine (expectKeyword_mirrors _).bind fun _ => h.expression.bind fun result => ?_
  exact .pure rfl

theorem choice_mirrors : Mirrors ρ (choice inner) (choice inner) := by
  refine (expectKeyword_mirrors _).bind fun _ => .look (fun pos => ρ.isKeyword pos _) fun searched => ?_
  refine .bind (.optionIf (.pure rfl) h.expression) fun operand => ?_
  refine .bind (.many (.optionIf (.test fun pos => ρ.isKeyword pos _) (whenClause_mirrors h))) fun branches => ?_
  rw [isEmpty_mapSpans]
  refine .ite (.failExpected _) ?_
  refine .bind (.optionIf (consumeKeyword_mirrors _) h.expression) fun otherwise => ?_
  refine (expectKeyword_mirrors _).bind fun _ => .pure ?_
  simp [mapSpans, ExprKind.relocate]

theorem parenthesized_mirrors : Mirrors ρ (parenthesized inner) (parenthesized inner) := by
  refine (expect_mirrors _).bind fun _ => .look (fun pos => ρ.startsQuery pos) fun _ => .ite ?_ ?_
  · exact h.query.bind fun query => (expect_mirrors _).bind fun _ => .pure rfl
  · exact h.expression.bind fun expr => (expect_mirrors _).bind fun _ => .pure rfl

theorem existence_mirrors : Mirrors ρ (existence inner) (existence inner) := by
  refine skip_mirrors.bind fun _ => (expect_mirrors _).bind fun _ => ?_
  exact h.query.bind fun query => (expect_mirrors _).bind fun _ => .pure rfl

theorem columnOrCall_mirrors : Mirrors ρ (columnOrCall inner) (columnOrCall inner) := by
  refine objectName_mirrors.bind fun name => .look (fun pos => ρ.isKind pos _) fun _ => ?_
  exact .ite (call_mirrors h name) (.pure rfl)

theorem keywordCall_mirrors : Mirrors ρ (keywordCall inner) (keywordCall inner) := by
  refine .look (fun pos => ρ.isKind_add pos 1 _) fun _ => .ite ?_ (.failExpected _)
  exact anyIdent_mirrors.bind fun name => call_mirrors h (.ofIdent name)

theorem wordExpression_mirrors (t : Token) :
    Mirrors ρ (wordExpression inner t) (wordExpression inner t) := by
  refine .look (fun pos => ρ.isKind_add pos 1 _) fun isCall => .ite (castCall_mirrors h _) ?_
  exact .ite (convertCall_mirrors h _) (columnOrCall_mirrors h)

omit h in
theorem primaryKind_alike {t t' : Token} (ht : t.Alike t') : primaryKind inner t' = primaryKind inner t := by
  simp only [primaryKind, literal, wordExpression, ht.kind, ht.value, ht.isWord]

theorem primaryKind_mirrors (t : Token) : Mirrors ρ (primaryKind inner t) (primaryKind inner t) := by
  unfold primaryKind
  split
  · exact literal_mirrors _ t
  · exact literal_mirrors _ t
  · exact literal_mirrors _ t
  · exact literal_mirrors _ t
  · exact literal_mirrors _ t
  · exact literal_mirrors _ t
  · exact variableName_mirrors.bind fun name => .pure rfl
  · exact skip_mirrors.bind fun _ => .pure rfl
  · exact parenthesized_mirrors h
  · exact choice_mirrors h
  · exact castCall_mirrors h _
  · exact convertCall_mirrors h _
  · exact existence_mirrors h
  · exact keywordCall_mirrors h
  · exact keywordCall_mirrors h
  · exact wordExpression_mirrors h t
  · exact columnOrCall_mirrors h
  · exact .failExpected _

theorem primary_mirrors : Mirrors ρ (primary inner) (primary inner) := by
  refine .spanned (.current (.failExpected _) fun t t' ht => ?_) fun _ _ => rfl
  dsimp only
  rw [primaryKind_alike ht]
  exact primaryKind_mirrors h t

/-! ## Operators -/

omit h in
theorem chainOperator_mirrors (table : TokenKind → Option BinaryOperator) :
    Mirrors ρ (chainOperator table) (chainOperator table) := by
  refine .current (.pure rfl) fun t t' ht => ?_
  simp only [ht.kind]
  split
  · exact .pure rfl
  · refine .look (fun pos => ρ.isKind_add pos 1 _) fun _ => .ite (.pure rfl) ?_
    exact skip_mirrors.bind fun _ => .pure rfl

omit h in
theorem keywordOperator_mirrors (word : Keyword) (op : BinaryOperator) :
    Mirrors ρ (keywordOperator word op) (keywordOperator word op) :=
  .optionIf (consumeKeyword_mirrors word) (.pure rfl)

omit h in
theorem binaryExpr_relocate (op : BinaryOperator) (left right : Expr) (span : Span) :
    mapSpans ρ.move (binaryExpr op left right span) =
      binaryExpr op (mapSpans ρ.move left) (mapSpans ρ.move right) (ρ.move span) :=
  rfl

theorem unary_mirrors : Mirrors ρ (unary inner) (unary inner) := by
  refine .current (primary_mirrors h) fun t t' ht => ?_
  simp only [Option.bind_some, ht.kind]
  split
  · exact .spanned (skip_mirrors.bind fun _ => h.signed) fun _ _ => rfl
  · exact primary_mirrors h

theorem multiplicative_mirrors : Mirrors ρ (multiplicative inner) (multiplicative inner) :=
  (unary_mirrors h).leftChain (chainOperator_mirrors _) binaryExpr_relocate

theorem additive_mirrors : Mirrors ρ (additive inner) (additive inner) :=
  (multiplicative_mirrors h).leftChain (chainOperator_mirrors _) binaryExpr_relocate

/-! ## Predicates -/

section
omit h

theorem comparisonAt_eq (pos : Nat) : comparisonAt ts' (pos + ρ.shift) = comparisonAt ts pos := by
  unfold comparisonAt
  cases ht : ts.token? pos with
  | none => rw [ρ.token?_none ht]
  | some t =>
    obtain ⟨t', ht', halike⟩ := ρ.token ht
    simp only [ht', halike.kind, ρ.isKind_add]

theorem atNegatedPredicate_eq (pos : Nat) :
    atNegatedPredicate ts' (pos + ρ.shift) = atNegatedPredicate ts pos := by
  simp [atNegatedPredicate]

end

section
variable (operand : Expr) (negated : Bool)

theorem inPredicate_mirrors :
    Mirrors ρ (inPredicate inner operand negated) (inPredicate inner (mapSpans ρ.move operand) negated) := by
  refine (expect_mirrors _).bind fun _ => .look (fun pos => ρ.startsQuery pos) fun _ => .ite ?_ ?_
  · exact h.query.bind fun query => (expect_mirrors _).bind fun _ => .pure rfl
  · refine (expressionList_mirrors h).bind fun list => (expect_mirrors _).bind fun _ => .pure ?_
    simp [mapSpans, ExprKind.relocate]

theorem betweenPredicate_mirrors :
    Mirrors ρ (betweenPredicate inner operand negated)
      (betweenPredicate inner (mapSpans ρ.move operand) negated) := by
  refine (additive_mirrors h).bind fun low => (expectKeyword_mirrors _).bind fun _ => ?_
  exact (additive_mirrors h).bind fun high => .pure rfl

theorem likePredicate_mirrors :
    Mirrors ρ (likePredicate inner operand negated)
      (likePredicate inner (mapSpans ρ.move operand) negated) := by
  refine (additive_mirrors h).bind fun pattern => ?_
  refine .bind (.optionIf (consumeKeyword_mirrors _) (additive_mirrors h)) fun escape => .pure ?_
  simp [mapSpans, ExprKind.relocate]

omit h in
theorem nullPredicate_mirrors :
    Mirrors ρ (nullPredicate operand) (nullPredicate (mapSpans ρ.move operand)) :=
  (consumeKeyword_mirrors _).bind fun _ => (expectKeyword_mirrors _).bind fun _ => .pure rfl

theorem predicateTail_mirrors :
    Mirrors ρ (predicateTail inner operand) (predicateTail inner (mapSpans ρ.move operand)) := by
  refine .look comparisonAt_eq fun op? => ?_
  cases op? with
  | some x =>
    have hright : Mirrors ρ (do
        let right ← additive inner
        pure (some (ExprKind.binary x.1 operand right))) (do
        let right ← additive inner
        pure (some (ExprKind.binary x.1 (mapSpans ρ.move operand) right))) :=
      (additive_mirrors h).bind fun right => .pure rfl
    exact .ite (skipTwo_mirrors.bind fun _ => hright) (skip_mirrors.bind fun _ => hright)
  | none =>
    have hrest : ∀ negated : Bool, Mirrors ρ (do
        if ← consumeKeyword .IN then some <$> inPredicate inner operand negated
        else if ← consumeKeyword .BETWEEN then some <$> betweenPredicate inner operand negated
        else if ← consumeKeyword .LIKE then some <$> likePredicate inner operand negated
        else pure none) (do
        if ← consumeKeyword .IN then some <$> inPredicate inner (mapSpans ρ.move operand) negated
        else if ← consumeKeyword .BETWEEN then
          some <$> betweenPredicate inner (mapSpans ρ.move operand) negated
        else if ← consumeKeyword .LIKE then some <$> likePredicate inner (mapSpans ρ.move operand) negated
        else pure none) := by
      intro negated
      refine (consumeKeyword_mirrors _).bind fun _ => .ite ?_ ?_
      · exact (inPredicate_mirrors h operand negated).map fun _ => rfl
      refine (consumeKeyword_mirrors _).bind fun _ => .ite ?_ ?_
      · exact (betweenPredicate_mirrors h operand negated).map fun _ => rfl
      refine (consumeKeyword_mirrors _).bind fun _ => .ite ?_ (.pure rfl)
      exact (likePredicate_mirrors h operand negated).map fun _ => rfl
    refine (consumeKeyword_mirrors _).bind fun _ => .ite ?_ ?_
    · exact (nullPredicate_mirrors operand).map fun _ => rfl
    refine .look atNegatedPredicate_eq fun negated => .ite ?_ (hrest negated)
    exact skip_mirrors.bind fun _ => hrest negated

end

theorem predicate_mirrors : Mirrors ρ (predicate inner) (predicate inner) := by
  refine .position fun start => (additive_mirrors h).bind fun operand => ?_
  refine (predicateTail_mirrors h operand).bind fun kind? => ?_
  cases kind? with
  | none => exact .pure rfl
  | some kind => exact (Mirrors.spanFrom start).bind fun span => .pure rfl

theorem negation_mirrors : Mirrors ρ (negation inner) (negation inner) := by
  refine .look (fun pos => ρ.isKeyword pos _) fun _ => .ite ?_ (predicate_mirrors h)
  exact .spanned (skip_mirrors.bind fun _ => h.negated) fun _ _ => rfl

theorem conjunction_mirrors : Mirrors ρ (conjunction inner) (conjunction inner) :=
  (negation_mirrors h).leftChain (keywordOperator_mirrors _ _) binaryExpr_relocate

theorem disjunction_mirrors : Mirrors ρ (disjunction inner) (disjunction inner) :=
  (conjunction_mirrors h).leftChain (keywordOperator_mirrors _ _) binaryExpr_relocate

end TransactLint.Grammar
