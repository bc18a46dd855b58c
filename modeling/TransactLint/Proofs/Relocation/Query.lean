import TransactLint.Grammar.Query
import TransactLint.Proofs.Relocation.Expression

/-!
# Table sources and queries at other places
-/

namespace TransactLint.Grammar

open TransactLint.Parser

variable {ts ts' : Terminals} {ρ : Relocation ts ts'}

/-! ## Aliases and hints -/

theorem tableAlias_mirrors : Mirrors ρ tableAlias tableAlias := by
  refine (consumeKeyword_mirrors _).bind fun _ => .ite (ident_mirrors.map fun _ => rfl) ?_
  exact .look (fun pos => ρ.isBareAlias pos) fun _ => .ite (ident_mirrors.map fun _ => rfl) (.pure rfl)

theorem atHint_eq (pos : Nat) : atHint ts' (pos + ρ.shift) = atHint ts pos := by
  unfold atHint
  cases ht : ts.token? pos with
  | none => rw [ρ.token?_none ht]
  | some t =>
    obtain ⟨t', ht', halike⟩ := ρ.token ht
    simp only [ht', halike.kind]

theorem tableHint_mirrors : Mirrors ρ tableHint tableHint := by
  refine .look atHint_eq fun _ => .ite ?_ (.failExpected _)
  refine anyIdent_mirrors.bind fun hint => .look (fun pos => ρ.isKind pos _) fun _ => .ite ?_ ?_
  · exact skipParenthesized_mirrors.bind fun _ => .pure rfl
  · refine (consume_mirrors _).bind fun _ => .ite ?_ (.pure rfl)
    exact skip_mirrors.bind fun _ => .pure rfl

theorem tableHints_mirrors : Mirrors ρ tableHints tableHints := by
  refine .listIf (consumePair_mirrors _ _) (tableHint_mirrors.commaSeparated.bind fun hints => ?_)
  exact (expect_mirrors _).bind fun _ => .pure rfl

/-! ## Joins -/

theorem outerJoin_mirrors (join : QualifiedJoin) : Mirrors ρ (outerJoin join) (outerJoin join) :=
  (consumeKeyword_mirrors _).bind fun _ => .pure rfl

theorem joinKind_mirrors : Mirrors ρ joinKind joinKind := by
  refine (consumeKeyword_mirrors _).bind fun _ => .ite (.pure rfl) ?_
  refine (consumeKeyword_mirrors _).bind fun _ => .ite ((outerJoin_mirrors _).map fun _ => rfl) ?_
  refine (consumeKeyword_mirrors _).bind fun _ => .ite ((outerJoin_mirrors _).map fun _ => rfl) ?_
  refine (consumeKeyword_mirrors _).bind fun _ => .ite ((outerJoin_mirrors _).map fun _ => rfl) ?_
  exact .look (fun pos => ρ.isKeyword pos _) fun _ => .ite (.pure rfl) (.pure rfl)

theorem qualifiedJoin_mirrors : Mirrors ρ qualifiedJoin qualifiedJoin := by
  refine joinKind_mirrors.bind fun join? => ?_
  cases join? with
  | none => exact .pure rfl
  | some join =>
    refine .look (fun pos => by simp [joinHints]) fun _ => .ite ?_ ?_
    · exact skip_mirrors.bind fun _ => (expectKeyword_mirrors _).bind fun _ => .pure rfl
    · exact (expectKeyword_mirrors _).bind fun _ => .pure rfl

theorem unqualifiedJoin_mirrors : Mirrors ρ unqualifiedJoin unqualifiedJoin := by
  refine (consumeKeyword_mirrors _).bind fun _ => .ite ?_ ?_
  · refine (consumeKeyword_mirrors _).bind fun _ => .ite (.pure rfl) ?_
    exact (expectWord_mirrors _).bind fun _ => .pure rfl
  · refine .look (fun pos => by simp) fun _ => .ite ?_ (.pure rfl)
    exact skipTwo_mirrors.bind fun _ => .pure rfl

variable {inner : Level} (h : inner.Mirrors ρ)
include h

/-! ## Sources without joins -/

theorem derivedTable_mirrors : Mirrors ρ (derivedTable inner) (derivedTable inner) := by
  refine h.query.bind fun query => (expect_mirrors _).bind fun _ => ?_
  refine tableAlias_mirrors.bind fun aliasName => ?_
  rw [isSome_mapSpans]
  refine .bind (.listIf ?_ identList_mirrors) fun columns => .pure rfl
  exact .look (fun pos => ρ.isKind pos _) fun _ => .pure rfl

theorem tableFunction_mirrors (name : ObjectName) :
    Mirrors ρ (tableFunction inner name) (tableFunction inner (mapSpans ρ.move name)) := by
  refine (expect_mirrors _).bind fun _ => .look (fun pos => ρ.isKind pos _) fun empty => ?_
  refine .bind (.listIf (.pure rfl) (expressionList_mirrors h)) fun arguments => ?_
  refine (expect_mirrors _).bind fun _ => tableAlias_mirrors.bind fun aliasName => .pure ?_
  simp [mapSpans, TableSourceKind.relocate]

theorem namedSource_mirrors : Mirrors ρ (namedSource inner) (namedSource inner) := by
  refine objectName_mirrors.bind fun name => .look (fun pos => ρ.isKind pos _) fun _ => ?_
  refine .ite (tableFunction_mirrors h name) ?_
  exact tableAlias_mirrors.bind fun aliasName => tableHints_mirrors.bind fun hints => .pure rfl

/-! ## Sources with joins -/

section
variable {factor : Parser TableSource} (hfactor : Mirrors ρ factor factor)
include hfactor

theorem joinStep_mirrors (start : Nat) (left : TableSource) :
    Mirrors ρ (joinStep inner factor start left)
      (joinStep inner factor (start + ρ.shift) (mapSpans ρ.move left)) := by
  refine qualifiedJoin_mirrors.bind fun join? => ?_
  cases join? with
  | some join =>
    refine hfactor.bind fun right => (expectKeyword_mirrors _).bind fun _ => ?_
    refine h.expression.bind fun condition => ?_
    exact (Mirrors.spanFrom start).bind fun span => .pure rfl
  | none =>
    refine unqualifiedJoin_mirrors.bind fun join? => ?_
    cases join? with
    | some join =>
      exact hfactor.bind fun right => (Mirrors.spanFrom start).bind fun span => .pure rfl
    | none => exact .pure rfl

theorem joined_mirrors : Mirrors ρ (joined inner factor) (joined inner factor) :=
  .position fun start => hfactor.bind fun first => .iterate (joinStep_mirrors h hfactor start) first

theorem parenthesizedSource_mirrors :
    Mirrors ρ (parenthesizedSource inner factor) (parenthesizedSource inner factor) :=
  (joined_mirrors h hfactor).bind fun _ => (expect_mirrors _).bind fun _ => .pure rfl

end

theorem factorWithin_mirrors : ∀ n, Mirrors ρ (factorWithin inner n) (factorWithin inner n)
  | 0 => .spanned (namedSource_mirrors h) fun _ _ => rfl
  | n + 1 => by
    refine .spanned ((consume_mirrors _).bind fun _ => .ite ?_ (namedSource_mirrors h)) fun _ _ => rfl
    refine .look (fun pos => ρ.startsQuery pos) fun _ => .ite (derivedTable_mirrors h) ?_
    exact parenthesizedSource_mirrors h (factorWithin_mirrors n)

theorem tableFactor_mirrors : Mirrors ρ (tableFactor inner) (tableFactor inner) := by
  intro pos
  unfold tableFactor
  rw [ρ.left_eq]
  exact factorWithin_mirrors h _ pos

theorem tableSource_mirrors : Mirrors ρ (tableSource inner) (tableSource inner) :=
  joined_mirrors h (tableFactor_mirrors h)

theorem tableSources_mirrors : Mirrors ρ (tableSources inner) (tableSources inner) :=
  (tableSource_mirrors h).commaSeparated

/-! ## Clauses of a query -/

theorem whereClause_mirrors : Mirrors ρ (whereClause inner) (whereClause inner) :=
  .optionIf (.test fun pos => ρ.isKeyword pos _)
    (.spanned (skip_mirrors.bind fun _ => h.expression) fun _ _ => rfl)

theorem topCount_mirrors : Mirrors ρ (topCount inner) (topCount inner) := by
  refine (consume_mirrors _).bind fun _ => .ite ?_ (primary_mirrors h)
  exact h.expression.bind fun expr => (expect_mirrors _).bind fun _ => .pure rfl

theorem topClause_mirrors : Mirrors ρ (topClause inner) (topClause inner) := by
  refine .spanned ((expectKeyword_mirrors _).bind fun _ => (topCount_mirrors h).bind fun expr => ?_)
    fun _ _ => rfl
  refine (consumeKeyword_mirrors _).bind fun percent => .look (fun pos => by simp) fun withTies => ?_
  exact .ite (skipTwo_mirrors.bind fun _ => .pure rfl) (.pure rfl)

theorem optionalTop_mirrors : Mirrors ρ (optionalTop inner) (optionalTop inner) :=
  .optionIf (.test fun pos => ρ.isKeyword pos _) (topClause_mirrors h)

omit h in
theorem columnAlias_mirrors : Mirrors ρ columnAlias columnAlias :=
  .look (fun pos => ρ.isString pos) fun _ => .ite anyIdent_mirrors ident_mirrors

omit h in
theorem optionalColumnAlias_mirrors : Mirrors ρ optionalColumnAlias optionalColumnAlias := by
  refine (consumeKeyword_mirrors _).bind fun _ => .ite (columnAlias_mirrors.map fun _ => rfl) ?_
  exact .optionIf (.test fun pos => by simp) columnAlias_mirrors

theorem selectElement_mirrors : Mirrors ρ (selectElement inner) (selectElement inner) := by
  refine .spanned ((consume_mirrors _).bind fun _ => .ite (.pure rfl) ?_) fun _ _ => rfl
  refine .look (fun pos => ρ.isQualifiedStar pos) fun _ => .ite ?_ ?_
  · refine objectName_mirrors.bind fun qualifier => (expect_mirrors _).bind fun _ => ?_
    exact (expect_mirrors _).bind fun _ => .pure rfl
  refine .look (fun pos => by simp) fun _ => .ite ?_ ?_
  · refine variableName_mirrors.bind fun name => (expect_mirrors _).bind fun _ => ?_
    exact h.expression.bind fun value => .pure rfl
  refine .look (fun pos => by simp) fun _ => .ite ?_ ?_
  · refine ident_mirrors.bind fun aliasName => (expect_mirrors _).bind fun _ => ?_
    exact h.expression.bind fun expr => .pure rfl
  · exact h.expression.bind fun expr => optionalColumnAlias_mirrors.bind fun aliasName => .pure rfl

theorem groupBy_mirrors : Mirrors ρ (groupBy inner) (groupBy inner) :=
  .listIf (consumePair_mirrors _ _) (expressionList_mirrors h)

theorem specification_mirrors : Mirrors ρ (specification inner) (specification inner) := by
  refine .position fun start => (expectKeyword_mirrors _).bind fun _ => ?_
  refine (consumeKeyword_mirrors _).bind fun distinct => ?_
  refine .ite (.bind (.pure (rfl : mapSpans ρ.move false = false)) fun _ => ?_)
    ((consumeKeyword_mirrors _).bind fun _ => ?_)
  all_goals
    refine (optionalTop_mirrors h).bind fun top => ?_
    refine (selectElement_mirrors h).commaSeparated.bind fun selectList => ?_
    refine .bind (.optionIf (consumeKeyword_mirrors _) objectName_mirrors) fun target => ?_
    refine .bind (.listIf (consumeKeyword_mirrors _) (tableSources_mirrors h)) fun sources => ?_
    refine (whereClause_mirrors h).bind fun filter => (groupBy_mirrors h).bind fun groups => ?_
    refine .bind (.optionIf (consumeKeyword_mirrors _) h.expression) fun having => ?_
    refine (Mirrors.spanFrom start).bind fun span => .pure ?_
    simp [mapSpans, QuerySpecification.relocate]

/-! ## Queries -/

theorem queryTerm_mirrors : Mirrors ρ (queryTerm inner) (queryTerm inner) := by
  refine .spanned ((consume_mirrors _).bind fun _ => .ite ?_ ?_) fun _ _ => rfl
  · exact h.query.bind fun query => (expect_mirrors _).bind fun _ => .pure rfl
  refine .look (fun pos => ρ.isKeyword pos _) fun _ => .ite ?_ (.failExpected _)
  exact (specification_mirrors h).map fun _ => rfl

omit h in
theorem setOperator_mirrors : Mirrors ρ setOperator setOperator := by
  refine (consumeKeyword_mirrors _).bind fun _ => .ite (.pure rfl) ?_
  refine (consumeKeyword_mirrors _).bind fun _ => .ite (.pure rfl) ?_
  exact (consumeKeyword_mirrors _).bind fun _ => .ite (.pure rfl) (.pure rfl)

omit h in
theorem setOperation_mirrors : Mirrors ρ setOperation setOperation := by
  refine setOperator_mirrors.bind fun op? => ?_
  cases op? with
  | none => exact .pure rfl
  | some op => exact (consumeKeyword_mirrors _).bind fun all => .pure rfl

theorem queryExpr_mirrors : Mirrors ρ (queryExpr inner) (queryExpr inner) :=
  (queryTerm_mirrors h).leftChain setOperation_mirrors fun _ _ _ _ => rfl

theorem commonTable_mirrors : Mirrors ρ (commonTable inner) (commonTable inner) := by
  refine .spanned (ident_mirrors.bind fun name => ?_) fun _ _ => rfl
  refine .bind (.listIf (.test fun pos => ρ.isKind pos _) identList_mirrors) fun columns => ?_
  refine (expectKeyword_mirrors _).bind fun _ => (expect_mirrors _).bind fun _ => ?_
  exact h.query.bind fun query => (expect_mirrors _).bind fun _ => .pure rfl

theorem fetchClause_mirrors : Mirrors ρ (fetchClause inner) (fetchClause inner) := by
  refine (expectEither_mirrors _ _).bind fun _ => h.expression.bind fun count => ?_
  exact (expectEither_mirrors _ _).bind fun _ => (expectWord_mirrors _).bind fun _ => .pure rfl

theorem offsetClause_mirrors : Mirrors ρ (offsetClause inner) (offsetClause inner) := by
  refine h.expression.bind fun offset => (expectEither_mirrors _ _).bind fun _ => ?_
  exact .bind (.optionIf (consumeKeyword_mirrors _) (fetchClause_mirrors h)) fun fetch => .pure rfl

theorem query_mirrors : Mirrors ρ (query inner) (query inner) := by
  refine .position fun start => ?_
  refine .bind (.listIf (consumeKeyword_mirrors _) (commonTable_mirrors h).commaSeparated) fun commonTables => ?_
  refine (queryExpr_mirrors h).bind fun body => ?_
  refine .bind (.listIf (.test fun pos => ρ.isKeyword pos _) (orderBy_mirrors h)) fun order => ?_
  refine .bind (.optionIf (consumeWord_mirrors _) (offsetClause_mirrors h)) fun page => ?_
  have hquery : ∀ span : Span, mapSpans ρ.move
      (⟨commonTables, body, order, page.map Prod.fst, page.bind Prod.snd, span⟩ : Query) =
      ⟨mapSpans ρ.move commonTables, mapSpans ρ.move body, mapSpans ρ.move order,
        (mapSpans ρ.move page).map Prod.fst, (mapSpans ρ.move page).bind Prod.snd, ρ.move span⟩ := by
    intro span
    cases page <;> simp [mapSpans, Query.relocate]
  refine (consumeKeyword_mirrors _).bind fun _ => .ite (skipParenthesized_mirrors.bind fun _ => ?_) ?_
  all_goals exact (Mirrors.spanFrom start).bind fun span => .pure (hquery span)

end TransactLint.Grammar
