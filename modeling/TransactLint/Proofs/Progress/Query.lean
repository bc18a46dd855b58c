import Mathlib.Logic.Function.Iterate
import TransactLint.Grammar.Execution
import TransactLint.Grammar.Query
import TransactLint.Proofs.Progress.Expression

/-!
# Progress in queries

Sources in parentheses nest without being a level, but each reads its parenthesis first. So they agree if as many of
them are allowed as there are terminals left, whatever is read below the last of them.
-/

namespace TransactLint.Grammar

open TransactLint.Parser

variable {ts : Terminals} {R : FaithfulRepetition ts} {base pos : Nat} {inner inner' : Level}

/-! ## Table sources -/

theorem tableAlias_agrees : Agrees ts base tableAlias tableAlias fun _ => false := by
  apply Agrees.whether (consumeKeyword_agrees _) ident_agrees.map
  exact .look fun _ => .ite ident_agrees.map (.pure rfl)

theorem tableHint_agrees {owed : Ident → Bool} : Agrees ts base tableHint (@tableHint R) owed := by
  refine .look fun _ => .ite (anyIdent_agrees.then fun hint => .look fun _ => .ite ?_ ?_) .failExpected
  · exact skipParenthesized_agrees.bind fun _ => .pure rfl
  · exact .whether (consume_agrees _) (skip_agrees.bind fun _ => .pure rfl) (.pure rfl)

theorem tableHints_agrees : Agrees ts base tableHints (@tableHints R) fun _ => false := by
  apply Agrees.listIf (consumePair_agrees _ _)
  exact (Agrees.commaSeparated tableHint_agrees).bind fun hints => (expect_agrees _).bind fun _ => .pure rfl

theorem derivedTable_agrees (hinner : inner.Agrees ts base inner') {owed : TableSourceKind → Bool} :
    Agrees ts base (derivedTable inner) (@derivedTable R inner') owed := by
  refine hinner.query.then fun query => (expect_agrees _).bind fun _ => tableAlias_agrees.bind fun aliasName => ?_
  have hcolumns : Agrees ts (base + 1) (listIf (do pure (aliasName.isSome && (← atKind .leftParen))) identList)
      (listIf (do pure (aliasName.isSome && (← atKind .leftParen))) (@identList R)) fun _ => false :=
    .listLook identList_agrees
  exact hcolumns.bind fun columns => .pure rfl

section
variable (hinner : inner.Agrees ts (base + 1) inner')
include hinner

theorem tableFunction_agrees (name : ObjectName) {owed : TableSourceKind → Bool} :
    Agrees ts base (tableFunction inner name) (@tableFunction R inner' name) owed := by
  refine (expect_agrees _).then fun _ => .look fun empty => ?_
  refine .bind (.listPure (expressionList_agrees hinner)) fun arguments => (expect_agrees _).bind fun _ => ?_
  exact tableAlias_agrees.bind fun aliasName => .pure rfl

theorem namedSource_agrees {owed : TableSourceKind → Bool} :
    Agrees ts base (namedSource inner) (@namedSource R inner') owed := by
  refine objectName_agrees.then fun name => .look fun _ => .ite (tableFunction_agrees hinner name).later ?_
  exact tableAlias_agrees.bind fun aliasName => tableHints_agrees.bind fun hints => .pure rfl

end

/-! ## Joins -/

theorem outerJoin_agrees (join : QualifiedJoin) : Agrees ts base (outerJoin join) (outerJoin join) fun _ => false :=
  (consumeKeyword_agrees _).free.bind fun _ => .pure rfl

theorem joinKind_agrees : Agrees ts base joinKind joinKind fun _ => false := by
  have houter : ∀ join, Agrees ts (base + 1) (some <$> outerJoin join) (some <$> outerJoin join) fun _ => false :=
    fun join => (outerJoin_agrees join).bind fun _ => .pure rfl
  refine .whether (consumeKeyword_agrees _) (.pure rfl) ?_
  refine .whether (consumeKeyword_agrees _) (houter _) ?_
  refine .whether (consumeKeyword_agrees _) (houter _) ?_
  refine .whether (consumeKeyword_agrees _) (houter _) ?_
  exact .look fun _ => .ite (.pure rfl) (.pure rfl)

theorem qualifiedJoin_agrees : Agrees ts base qualifiedJoin qualifiedJoin Option.isSome := by
  refine joinKind_agrees.bind fun join? => ?_
  cases join? with
  | none => exact .pure rfl
  | some join =>
    have hjoin : Agrees ts base (do
        expectKeyword .JOIN
        pure (some join)) (do
        expectKeyword .JOIN
        pure (some join)) Option.isSome :=
      (expectKeyword_agrees _).then fun _ => .pure rfl
    exact .look fun _ => .ite (skip_agrees.bind fun _ => hjoin) hjoin

theorem unqualifiedJoin_agrees : Agrees ts base unqualifiedJoin unqualifiedJoin Option.isSome := by
  refine .whether (consumeKeyword_agrees _) ?_ ?_
  · refine .whether (consumeKeyword_agrees _) (.pure rfl) ?_
    exact (expectWord_agrees _).bind fun _ => .pure rfl
  · refine .ifLook (fun pos _ h => ?_) (.pure rfl)
    exact (skipTwo_agreesAt (keywordWord_lt h)).then fun _ => .pure rfl

section
variable {factor factor' : Parser TableSource} (hinner : inner.Agrees ts (base + 1) inner')
  (hfactor : Agrees ts base factor factor' fun _ => true)
include hinner hfactor

theorem joinStep_agrees (start : Nat) (left : TableSource) :
    Agrees ts base (joinStep inner factor start left) (joinStep inner' factor' start left) Option.isSome := by
  apply Agrees.found qualifiedJoin_agrees
  · intro join
    refine hfactor.later.free.bind fun right => (expectKeyword_agrees _).bind fun _ => ?_
    exact hinner.expression.free.bind fun condition => .look fun span => .pure rfl
  apply Agrees.found unqualifiedJoin_agrees
  · intro join
    exact hfactor.later.free.bind fun right => .look fun span => .pure rfl
  · exact .pure rfl

theorem joined_agrees {owed : TableSource → Bool} :
    Agrees ts base (joined inner factor) (@joined R inner' factor') owed := by
  refine .look fun start => hfactor.then fun first => .iterate ?_ first
  exact fun left => (joinStep_agrees hinner hfactor start left).later

theorem parenthesizedSource_agrees {owed : TableSourceKind → Bool} :
    Agrees ts base (parenthesizedSource inner factor) (@parenthesizedSource R inner' factor') owed :=
  (joined_agrees hinner hfactor).then fun _ => (expect_agrees _).bind fun _ => .pure rfl

end

/-! ## Sources in parentheses -/

def factorAround [Repetition] (inner : Level) (factor : Parser TableSource) : Parser TableSource :=
  spanned TableSource.mk do
    if ← consume .leftParen then
      if ← look Terminals.startsQuery then derivedTable inner
      else parenthesizedSource inner factor
    else namedSource inner

theorem factorWithin_eq [Repetition] (inner : Level) (n : Nat) :
    factorWithin inner n = (factorAround inner)^[n] (spanned TableSource.mk (namedSource inner)) := by
  induction n with
  | zero => rfl
  | succ n ih =>
    rw [Function.iterate_succ_apply', ← ih]
    rfl

theorem factorAround_agrees {factor factor' : Parser TableSource} (hinner : inner.Agrees ts (base + 1) inner')
    (hfactor : Agrees ts (base + 1) factor factor' fun _ => true) {owed : TableSource → Bool} :
    Agrees ts base (factorAround inner factor) (@factorAround R inner' factor') owed := by
  apply Agrees.spanned
  refine .whether (consume_agrees _) (.look fun _ => .ite ?_ ?_) (namedSource_agrees hinner)
  · exact derivedTable_agrees hinner
  · exact parenthesizedSource_agrees hinner.later hfactor

/-- Sources within enough parentheses agree, whatever `bottom` and `bottom'` are. -/
theorem factors_agree {bottom bottom' : Parser TableSource} (hinner : inner.Agrees ts (base + 1) inner')
    {n n' : Nat} (hn : ts.size - base < n) (hn' : ts.size - base < n') :
    Agrees ts base ((factorAround inner)^[n] bottom) ((@factorAround R inner')^[n'] bottom') fun _ => true := by
  induction n generalizing base n' with
  | zero => omega
  | succ n ih =>
    obtain ⟨n', rfl⟩ : ∃ m, n' = m + 1 := ⟨n' - 1, by omega⟩
    rw [Function.iterate_succ_apply', Function.iterate_succ_apply']
    apply factorAround_agrees hinner
    by_cases hbase : base < ts.size
    · exact ih hinner.later (by omega) (by omega)
    · exact .past (by omega)

theorem tableFactor_agrees (hinner : inner.Agrees ts (base + 1) inner') :
    Agrees ts base (tableFactor inner) (@tableFactor R inner') fun _ => true := by
  intro pos hbase h
  have hfactor : AgreesAt ts pos (factorWithin inner (ts.size - pos + 1))
      (@factorWithin R inner' (ts.size - pos + 1))
      fun _ => true := by
    rw [factorWithin_eq, @factorWithin_eq R]
    exact (factors_agree (hinner.mono (by omega)) (Nat.lt_succ_self _) (Nat.lt_succ_self _)).here h
  exact ⟨hfactor.same, hfactor.advances⟩

section
variable (hinner : inner.Agrees ts (base + 1) inner')
include hinner

theorem tableSource_agrees {owed : TableSource → Bool} :
    Agrees ts base (tableSource inner) (@tableSource R inner') owed :=
  joined_agrees hinner (tableFactor_agrees hinner)

theorem tableSources_agrees {owed : List TableSource → Bool} :
    Agrees ts base (tableSources inner) (@tableSources R inner') owed :=
  .commaSeparated (tableSource_agrees hinner)

/-! ## Parts of a query -/

theorem whereClause_agrees : Agrees ts base (whereClause inner) (whereClause inner') fun _ => false := by
  apply Agrees.ifLook _ (.pure rfl)
  intro pos hbase hwhere
  have hclause : AgreesAt ts pos (spanned WhereClause.mk do
      skip
      inner.expression) (spanned WhereClause.mk do
      skip
      inner'.expression) fun _ => true :=
    .spanned (.skip (isKind_lt hwhere) hbase hinner.expression)
  exact hclause.then fun _ => .pure rfl

theorem topCount_agrees {owed : Expr → Bool} : Agrees ts base (topCount inner) (@topCount R inner') owed := by
  apply Agrees.whether (consume_agrees _) _ (primary_agrees hinner)
  exact hinner.expression.free.bind fun expr => (expect_agrees _).bind fun _ => .pure rfl

theorem topClause_agrees {owed : TopClause → Bool} :
    Agrees ts base (topClause inner) (@topClause R inner') owed := by
  apply Agrees.spanned
  refine (expectKeyword_agrees _).then fun _ => (topCount_agrees hinner).later.bind fun expr => ?_
  refine (consumeKeyword_agrees _).free.bind fun percent => .look fun withTies => .ite ?_ (.pure rfl)
  exact skipTwo_agrees.bind fun _ => .pure rfl

theorem optionalTop_agrees : Agrees ts base (optionalTop inner) (@optionalTop R inner') fun _ => false :=
  .optionLook (topClause_agrees hinner) rfl

/-! ## Select lists -/

omit hinner in
theorem columnAlias_agrees {owed : Ident → Bool} : Agrees ts base columnAlias columnAlias owed :=
  .look fun _ => .ite anyIdent_agrees ident_agrees

omit hinner in
theorem optionalColumnAlias_agrees : Agrees ts base optionalColumnAlias optionalColumnAlias fun _ => false :=
  .whether (consumeKeyword_agrees _) columnAlias_agrees.map (.optionLook columnAlias_agrees rfl)

omit hinner in
theorem qualifiedStar_agrees {owed : SelectElementKind → Bool} :
    Agrees ts base qualifiedStar (@qualifiedStar R) owed :=
  objectName_agrees.then fun _ => (expect_agrees _).bind fun _ => (expect_agrees _).bind fun _ => .pure rfl

theorem selectAssignment_agrees {owed : SelectElementKind → Bool} :
    Agrees ts base (selectAssignment inner) (selectAssignment inner') owed :=
  variableName_agrees.then fun _ => (expect_agrees _).bind fun _ => hinner.expression.free.bind fun _ => .pure rfl

theorem leadingAlias_agrees {owed : SelectElementKind → Bool} :
    Agrees ts base (leadingAlias inner) (leadingAlias inner') owed :=
  ident_agrees.then fun _ => (expect_agrees _).bind fun _ => hinner.expression.free.bind fun _ => .pure rfl

end

theorem trailingAlias_agrees (hinner : inner.Agrees ts base inner') {owed : SelectElementKind → Bool} :
    Agrees ts base (trailingAlias inner) (trailingAlias inner') owed :=
  hinner.expression.then fun _ => optionalColumnAlias_agrees.bind fun _ => .pure rfl

/-- An element may begin with an expression, so what is nested in the query must agree from its own beginning on. -/
theorem selectElement_agrees (hinner : inner.Agrees ts base inner') {owed : SelectElement → Bool} :
    Agrees ts base (selectElement inner) (@selectElement R inner') owed := by
  apply Agrees.spanned
  refine .whether (consume_agrees _) (.pure rfl) (.look fun _ => .ite qualifiedStar_agrees ?_)
  refine .look fun _ => .ite (selectAssignment_agrees hinner.later) ?_
  exact .look fun _ => .ite (leadingAlias_agrees hinner.later) (trailingAlias_agrees hinner)

/-! ## Query specifications -/

section
variable (hinner : inner.Agrees ts (base + 1) inner')
include hinner

theorem groupBy_agrees : Agrees ts base (groupBy inner) (@groupBy R inner') fun _ => false :=
  .listIf (consumePair_agrees _ _) (expressionList_agrees hinner)

theorem specification_agrees {owed : QuerySpecification → Bool} :
    Agrees ts base (specification inner) (@specification R inner') owed := by
  have hrest : ∀ start, ∀ distinct : Bool, Agrees ts (base + 1) (do
      let top ← optionalTop inner
      let selectList ← commaSeparated (selectElement inner)
      let target ← optionIf (consumeKeyword .INTO) objectName
      let sources ← listIf (consumeKeyword .FROM) (tableSources inner)
      let filter ← whereClause inner
      let groups ← groupBy inner
      let having ← optionIf (consumeKeyword .HAVING) inner.expression
      let span ← spanFrom start
      pure ⟨distinct, top, selectList, target, sources, filter, groups, having, span⟩) (do
      let top ← @optionalTop R inner'
      let selectList ← @commaSeparated _ R (@selectElement R inner')
      let target ← optionIf (consumeKeyword .INTO) (@objectName R)
      let sources ← listIf (consumeKeyword .FROM) (@tableSources R inner')
      let filter ← whereClause inner'
      let groups ← @groupBy R inner'
      let having ← optionIf (consumeKeyword .HAVING) inner'.expression
      let span ← spanFrom start
      pure (QuerySpecification.mk distinct top selectList target sources filter groups having span))
      fun _ => false := by
    intro start distinct
    refine (optionalTop_agrees hinner).later.bind fun top => ?_
    refine .bind (.commaSeparated (selectElement_agrees hinner)) fun selectList => ?_
    refine .bind (.optionIf (consumeKeyword_agrees _) objectName_agrees rfl) fun target => ?_
    refine .bind (.listIf (consumeKeyword_agrees _) (tableSources_agrees hinner).later.later) fun sources => ?_
    refine (whereClause_agrees hinner).later.bind fun filter => (groupBy_agrees hinner).later.bind fun groups => ?_
    refine .bind (.optionIf (consumeKeyword_agrees _) hinner.expression.later.free rfl) fun having => ?_
    exact .look fun span => .pure rfl
  refine .look fun start => (expectKeyword_agrees _).then fun _ => ?_
  refine (consumeKeyword_agrees _).free.bind fun distinct => .ite ?_ ?_
  · exact .bind (.pure rfl) fun _ => hrest start distinct
  · exact (consumeKeyword_agrees _).free.bind fun _ => hrest start distinct

/-! ## Queries -/

theorem queryTerm_agrees {owed : QueryExpr → Bool} :
    Agrees ts base (queryTerm inner) (@queryTerm R inner') owed := by
  apply Agrees.spanned
  apply Agrees.whether (consume_agrees _)
  · exact hinner.query.free.bind fun query => (expect_agrees _).bind fun _ => .pure rfl
  · exact .look fun _ => .ite (specification_agrees hinner).map .failExpected

omit hinner in
theorem setOperation_agrees : Agrees ts base setOperation setOperation fun _ => false := by
  have hoperator : Agrees ts base setOperator setOperator fun _ => false := by
    apply Agrees.whether (consumeKeyword_agrees _) (.pure rfl)
    apply Agrees.whether (consumeKeyword_agrees _) (.pure rfl)
    exact .whether (consumeKeyword_agrees _) (.pure rfl) (.pure rfl)
  refine hoperator.bind fun op? => ?_
  cases op? with
  | none => exact .pure rfl
  | some op => exact (consumeKeyword_agrees _).free.bind fun all => .pure rfl

theorem queryExpr_agrees {owed : QueryExpr → Bool} :
    Agrees ts base (queryExpr inner) (@queryExpr R inner') owed :=
  .leftChain (queryTerm_agrees hinner) setOperation_agrees

theorem commonTable_agrees {owed : CommonTable → Bool} :
    Agrees ts base (commonTable inner) (@commonTable R inner') owed := by
  apply Agrees.spanned
  refine ident_agrees.then fun name => .bind (.listLook identList_agrees) fun columns => ?_
  refine (expectKeyword_agrees _).bind fun _ => (expect_agrees _).bind fun _ => ?_
  exact hinner.query.free.bind fun query => (expect_agrees _).bind fun _ => .pure rfl

theorem fetchClause_agrees {owed : Expr → Bool} :
    Agrees ts base (fetchClause inner) (fetchClause inner') owed := by
  refine (expectEither_agrees _ _).then fun _ => hinner.expression.free.bind fun count => ?_
  exact (expectEither_agrees _ _).bind fun _ => (expectWord_agrees _).bind fun _ => .pure rfl

omit hinner in
theorem offsetClause_agrees (hinner : inner.Agrees ts base inner') :
    Agrees ts base (offsetClause inner) (offsetClause inner') fun _ => false := by
  refine hinner.expression.free.bind fun offset => (expectEither_agrees _ _).bind fun _ => ?_
  refine .bind (.optionIf (consumeKeyword_agrees _) (fetchClause_agrees hinner.later.later) rfl)
    fun fetch => .pure rfl

theorem query_agrees {owed : Query → Bool} : Agrees ts base (query inner) (@query R inner') owed := by
  refine .look fun start => ?_
  refine .bind (.listIf (consumeKeyword_agrees _) (.commaSeparated (commonTable_agrees hinner).later))
    fun commonTables => ?_
  refine (queryExpr_agrees hinner).then fun body => ?_
  refine .bind (.listLook (orderBy_agrees hinner).later) fun order => ?_
  refine .bind (.optionIf (consumeWord_agrees _) (offsetClause_agrees hinner).later rfl) fun page => ?_
  apply Agrees.whether (consumeKeyword_agrees _)
  · exact skipParenthesized_agrees.bind fun _ => .look fun span => .pure rfl
  · exact .look fun span => .pure rfl

/-! ## Executions -/

omit hinner in
theorem variableBeforeEq_agrees : Agrees ts base variableBeforeEq variableBeforeEq fun _ => false :=
  .optionLook (variableName_agrees.then fun _ => skip_agrees.bind fun _ => .pure rfl) rfl

omit hinner in
theorem outputMark_agrees : Agrees ts base outputMark outputMark id :=
  .whether (consumeWord_agrees _) (.pure rfl) (consumeWord_agrees _)

omit hinner in
theorem argument_agrees (hinner : inner.Agrees ts base inner') {owed : Argument → Bool} :
    Agrees ts base (argument inner) (argument inner') owed := by
  apply Agrees.spanned
  refine variableBeforeEq_agrees.bind fun name => hinner.expression.then fun value => ?_
  exact outputMark_agrees.free.bind fun output => .pure rfl

/-- The word `EXECUTE` is there. -/
theorem execution_agreesAt (hbase : base ≤ pos) (h : pos < ts.size) {owed : Execution → Bool} :
    AgreesAt ts pos (execution inner) (@execution R inner') owed := by
  apply (skip_agreesAt h).then
  intro _
  apply Agrees.mono _ (Nat.succ_le_succ hbase)
  apply Agrees.whether (consume_agrees _)
  · exact hinner.later.expression.free.bind fun text => (expect_agrees _).bind fun _ => .pure rfl
  refine variableBeforeEq_agrees.bind fun returnVariable => objectName_agrees.bind fun name => ?_
  refine .bind (.listLook (.commaSeparated (argument_agrees hinner))) fun arguments => .look fun _ => ?_
  exact .ite (skipTwo_agrees.bind fun _ => .pure rfl) (.pure rfl)

end

end TransactLint.Grammar
