import TransactLint.Grammar.Script
import TransactLint.Proofs.Excerpt.Expression

/-!
# Table sources and queries of an excerpt
-/

namespace TransactLint.Grammar

open TransactLint.Parser

variable {ts ts' : Terminals} {ρ : Excerpt ts ts'} {base limit pos : Nat}

/-! ## Aliases and hints -/

/-- At the first terminal an alias is not told from a separator. -/
theorem tableAlias_persists (hbase : 0 < base) : Persists ρ base limit tableAlias tableAlias fun _ => false := by
  refine .whether (consumeKeyword_persists _) ident_persists.map ?_
  exact .look (fun _ hpos h => ρ.isBareAlias_eq (by omega) h) fun _ => .ite ident_persists.map (.pure rfl)

theorem tableHint_persists (hlimit : limit < ts.size) {owed : Ident → Bool} :
    Persists ρ base limit tableHint tableHint owed := by
  refine .lookInside (fun pos _ h => ?_) fun _ => .ite (anyIdent_persists.then fun hint => ?_) .failExpected
  · rw [atHint, atHint, ρ.token?_eq h]
  refine .look (fun _ _ h => ρ.isKind_eq h (by decide)) fun _ => .ite ?_ ?_
  · exact skipParenthesized_persists.bind fun _ => .pure rfl
  · exact .whether (consume_persists (by decide)) (.skipInside hlimit (.pure rfl)) (.pure rfl)

theorem tableHints_persists :
    Persists ρ base limit tableHints tableHints fun _ => false := by
  refine .listIf (consumePair_persists (by decide) (by decide)) ?_
  refine .before (Nat.succ_pos _) (fun hsize => .commaSeparated fun _ => tableHint_persists hsize) fun hints => ?_
  exact (expect_persists _).then fun _ => .pure rfl

variable {inner inner' : Level} (hinner : inner.Persists ρ inner')
include hinner

/-! ## Sources without joins -/

theorem derivedTable_persists {owed : TableSourceKind → Bool} :
    Persists ρ base limit (derivedTable inner) (derivedTable inner') owed := by
  refine (hinner.query _ limit).then fun query => (expect_persists _).bind fun _ => ?_
  refine (tableAlias_persists (Nat.succ_pos _)).bind fun aliasName => ?_
  refine .bind (.bind (.look (fun _ _ h => ρ.isKind_eq h (by decide)) fun _ => .pure rfl) fun _ => ?_)
    fun _ => .pure rfl
  exact .ite identList_persists (.pure rfl)

theorem tableFunction_persists (name : ObjectName) {owed : TableSourceKind → Bool} :
    Persists ρ base limit (tableFunction inner name) (tableFunction inner' name) owed := by
  refine (expect_persists _).then fun _ => .lookInside (fun _ _ h => ρ.isKind_inside h _) fun empty => ?_
  refine .bind (.listPure (expressionList_persists hinner)) fun arguments => (expect_persists _).then fun _ => ?_
  exact (tableAlias_persists (Nat.succ_pos _)).bind fun aliasName => .pure rfl

theorem namedSource_persists {owed : TableSourceKind → Bool} :
    Persists ρ base limit (namedSource inner) (namedSource inner') owed := by
  refine objectName_persists.then fun name => .look (fun _ _ h => ρ.isKind_eq h (by decide)) fun _ => ?_
  refine .ite (tableFunction_persists hinner name) ?_
  refine (tableAlias_persists (Nat.succ_pos _)).bind fun aliasName => ?_
  exact tableHints_persists.bind fun hints => .pure rfl

/-! ## Joins -/

section
omit hinner

theorem outerJoin_persists (join : QualifiedJoin) :
    Persists ρ base limit (outerJoin join) (outerJoin join) fun _ => false :=
  (consumeKeyword_persists _).free.bind fun _ => .pure rfl

theorem joinKind_persists : Persists ρ base limit joinKind joinKind fun _ => false := by
  have houter : ∀ base, ∀ join : QualifiedJoin,
      Persists ρ base limit (some <$> outerJoin join) (some <$> outerJoin join) fun _ => false :=
    fun _ join => (outerJoin_persists join).bind fun _ => .pure rfl
  refine .whether (consumeKeyword_persists _) (.pure rfl) ?_
  refine .whether (consumeKeyword_persists _) (houter _ _) ?_
  refine .whether (consumeKeyword_persists _) (houter _ _) ?_
  refine .whether (consumeKeyword_persists _) (houter _ _) ?_
  exact .look (fun _ _ h => ρ.isKeyword_eq h _) fun _ => .ite (.pure rfl) (.pure rfl)

theorem qualifiedJoin_persists : Persists ρ base limit qualifiedJoin qualifiedJoin Option.isSome := by
  refine joinKind_persists.bind fun join? => ?_
  cases join? with
  | none => exact .pure rfl
  | some join =>
    have hjoin : ∀ base, ∀ due : Option QualifiedJoin → Bool, Persists ρ base limit (do
        expectKeyword .JOIN
        pure (some join)) (do
        expectKeyword .JOIN
        pure (some join)) due :=
      fun _ _ => (expectKeyword_persists _).then fun _ => .pure rfl
    refine .lookInside (fun pos _ h => ?_) fun _ => .ite (.skip (hjoin _ _)) (hjoin _ _)
    have hword : ts'.isWord (pos + ρ.shift) = ts.isWord pos := by
      funext word
      rw [Terminals.isWord, Terminals.isWord, ρ.token?_eq h]
    rw [hword]

theorem unqualifiedJoin_persists : Persists ρ base limit unqualifiedJoin unqualifiedJoin Option.isSome := by
  refine .whether (consumeKeyword_persists _) ?_ ?_
  · refine .whether (consumeKeyword_persists _) (.pure rfl) ?_
    exact (expectWord_persists _).bind fun _ => .pure rfl
  · refine .ifLook (fun _ _ h => keywordWord_eq h _ (by decide)) (fun pos _ h => ?_) (.pure rfl)
    exact (skipTwo_persistsAt (keywordWord_lt h)).then fun _ => .pure rfl

end

/-- A source reads something, so the span of what it is joined to has a terminal. -/
theorem joinStep_persists {factor factor' : Parser TableSource} {start : Nat} (hstart : start < base)
    (hfactor : Persists ρ base limit factor factor' fun _ => true) (left : TableSource) :
    Persists ρ base limit (joinStep inner factor start left) (joinStep inner' factor' (start + ρ.shift) left)
      Option.isSome := by
  refine qualifiedJoin_persists.free.bind fun join? => ?_
  cases join? with
  | some join =>
    refine hfactor.owes.bind fun right => (expectKeyword_persists _).then fun _ => ?_
    exact (hinner.expression _ limit).free.bind fun condition => .spanFrom (by omega) fun span => .pure rfl
  | none =>
    refine unqualifiedJoin_persists.free.bind fun join? => ?_
    cases join? with
    | some join =>
      refine fun pos hbase h => (hfactor pos hbase h).then fun right => ?_
      exact .spanFrom (by omega) fun span => .pure rfl
    | none => exact .pure rfl

theorem joined_persists {factor factor' : Parser TableSource} {owed : TableSource → Bool}
    (hfactor : Persists ρ base limit factor factor' fun _ => true) :
    Persists ρ base limit (joined inner factor) (joined inner' factor') owed := by
  refine .position fun start hbase => ?_
  have hlater : ∀ later, start ≤ later → Persists ρ later limit factor factor' fun _ => true :=
    fun later hle pos hpos h => hfactor pos (by omega) h
  refine (hlater start (Nat.le_refl _)).then fun first => .iterate (fun left => ?_) first
  exact joinStep_persists hinner (Nat.lt_succ_self _) (hlater _ (Nat.le_succ _)) left

/-- Induction on the parentheses allowed in the excerpt. Each is a terminal, so it never has fewer of
them than it needs. -/
theorem factorWithin_persists {owed : TableSource → Bool} :
    ∀ (n n' : Nat) (base : Nat), ts.size - base < n → n ≤ n' →
    Persists ρ base limit (factorWithin inner n) (factorWithin inner' n') owed
  | 0, _, _, hn, _ => by omega
  | n + 1, 0, _, _, hn' => by omega
  | n + 1, n' + 1, base, hn, hn' => by
    refine .spanned (.whether (consume_persists (by decide)) ?_ (namedSource_persists hinner))
    refine .look (fun _ _ h => ρ.startsQuery_eq h) fun _ => .ite (derivedTable_persists hinner) ?_
    rcases Nat.lt_or_ge base ts.size with hlt | hle
    · refine (joined_persists hinner (factorWithin_persists n n' _ (by omega) (by omega))).bind fun source => ?_
      exact (expect_persists _).bind fun _ => .pure rfl
    · intro pos hbase h
      omega

theorem tableFactor_persistsAt {owed : TableSource → Bool} {n : Nat} (hn : ts.size - pos < n)
    (h : pos ≤ ts.size) :
    PersistsAt ρ limit pos (tableFactor inner) (factorWithin inner' n) owed := by
  intro pos' source hread
  exact (factorWithin_persists hinner _ n pos (Nat.lt_succ_self _) hn).here h pos' source hread

theorem tableFactor_persists {owed : TableSource → Bool} :
    Persists ρ base limit (tableFactor inner) (tableFactor inner') owed := by
  intro pos _ h pos' source hread
  have hleft := ρ.left_le pos
  have hkept : ρ.Kept limit pos (factorWithin inner' (ts'.size - (pos + ρ.shift) + 1)) owed pos' source :=
    tableFactor_persistsAt hinner (by omega) h pos' source hread
  exact ⟨hkept.le, hkept.size, hkept.lt, hkept.same⟩

theorem tableSource_persists {owed : TableSource → Bool} :
    Persists ρ base limit (tableSource inner) (tableSource inner') owed :=
  joined_persists hinner (tableFactor_persists hinner)

theorem tableSources_persists {owed : List TableSource → Bool} :
    Persists ρ base limit (tableSources inner) (tableSources inner') owed :=
  .commaSeparated fun _ => tableSource_persists hinner

/-! ## Select lists -/

theorem whereClause_persists :
    Persists ρ base limit (whereClause inner) (whereClause inner') fun _ => false :=
  .optionLook (fun _ _ h => ρ.isKeyword_eq h _) (.spanned (.skip (hinner.expression _ limit))) rfl

theorem topCount_persists {owed : Expr → Bool} :
    Persists ρ base limit (topCount inner) (topCount inner') owed := by
  refine .whether (consume_persists (by decide)) ?_ (primary_persists hinner)
  exact (hinner.expression _ limit).free.bind fun expr => (expect_persists _).bind fun _ => .pure rfl

theorem topClause_persists {owed : TopClause → Bool} :
    Persists ρ base limit (topClause inner) (topClause inner') owed := by
  refine .spanned ((expectKeyword_persists _).then fun _ => (topCount_persists hinner).bind fun expr => ?_)
  refine (consumeKeyword_persists _).free.bind fun percent pos hbase h => ?_
  refine .look (keywordWord_eq h _ (by decide)) (.ite (fun hties => ?_) fun _ => .pure h rfl)
  exact (skipTwo_persistsAt (keywordWord_lt hties)).then fun _ => .pure rfl

theorem optionalTop_persists : Persists ρ base limit (optionalTop inner) (optionalTop inner') fun _ => false :=
  .optionLook (fun _ _ h => ρ.isKeyword_eq h _) (topClause_persists hinner) rfl

section
omit hinner

theorem columnAlias_persists {owed : Ident → Bool} : Persists ρ base limit columnAlias columnAlias owed :=
  .look (fun _ _ h => ρ.isString_eq h) fun _ => .ite anyIdent_persists ident_persists

theorem optionalColumnAlias_persists (hbase : 0 < base) :
    Persists ρ base limit optionalColumnAlias optionalColumnAlias fun _ => false := by
  refine .whether (consumeKeyword_persists _) columnAlias_persists.map ?_
  refine .optionLook (fun pos hpos h => ?_) columnAlias_persists rfl
  rw [ρ.isBareAlias_eq (by omega) h, ρ.isString_eq h]

theorem qualifiedStar_persists {owed : SelectElementKind → Bool} :
    Persists ρ base limit qualifiedStar qualifiedStar owed := by
  refine objectName_persists.then fun qualifier => (expect_persists _).bind fun _ => ?_
  exact (expect_persists _).bind fun _ => .pure rfl

end

theorem selectAssignment_persists {owed : SelectElementKind → Bool} :
    Persists ρ base limit (selectAssignment inner) (selectAssignment inner') owed := by
  refine variableName_persists.then fun name => (expect_persists _).bind fun _ => ?_
  exact (hinner.expression _ limit).free.bind fun value => .pure rfl

theorem leadingAlias_persists {owed : SelectElementKind → Bool} :
    Persists ρ base limit (leadingAlias inner) (leadingAlias inner') owed := by
  refine ident_persists.then fun aliasName => (expect_persists _).bind fun _ => ?_
  exact (hinner.expression _ limit).free.bind fun expr => .pure rfl

theorem trailingAlias_persists {owed : SelectElementKind → Bool} :
    Persists ρ base limit (trailingAlias inner) (trailingAlias inner') owed :=
  (hinner.expression _ limit).then fun _ =>
    (optionalColumnAlias_persists (Nat.succ_pos _)).bind fun _ => .pure rfl

theorem selectElement_persists {owed : SelectElement → Bool} :
    Persists ρ base limit (selectElement inner) (selectElement inner') owed := by
  refine .spanned (.whether (consume_persists (by decide)) (.pure rfl) ?_)
  refine .lookInside (fun _ _ h => ρ.isQualifiedStar_eq h) fun _ => .ite qualifiedStar_persists ?_
  refine .look (fun _ _ h => pair_eq (by decide) (by decide) h) fun _ => .ite (selectAssignment_persists hinner) ?_
  refine .lookInside (fun pos _ h => ?_) fun _ =>
    .ite (leadingAlias_persists hinner) (trailingAlias_persists hinner)
  exact and_eq_and (ρ.isIdentifier_eq h) fun _ => nextIs_eq h (by decide)

/-! ## Queries -/

theorem groupBy_persists : Persists ρ base limit (groupBy inner) (groupBy inner') fun _ => false :=
  .listIf (consumePair_persists (by decide) (by decide)) (expressionList_persists hinner)

theorem specification_persists {owed : QuerySpecification → Bool} :
    Persists ρ base limit (specification inner) (specification inner') owed := by
  have hrest : ∀ start, ∀ distinct : Bool, Persists ρ (start + 1) limit (do
      let top ← optionalTop inner
      let selectList ← commaSeparated (selectElement inner)
      let target ← optionIf (consumeKeyword .INTO) objectName
      let sources ← listIf (consumeKeyword .FROM) (tableSources inner)
      let filter ← whereClause inner
      let groups ← groupBy inner
      let having ← optionIf (consumeKeyword .HAVING) inner.expression
      let span ← spanFrom start
      pure ⟨distinct, top, selectList, target, sources, filter, groups, having, span⟩) (do
      let top ← optionalTop inner'
      let selectList ← commaSeparated (selectElement inner')
      let target ← optionIf (consumeKeyword .INTO) objectName
      let sources ← listIf (consumeKeyword .FROM) (tableSources inner')
      let filter ← whereClause inner'
      let groups ← groupBy inner'
      let having ← optionIf (consumeKeyword .HAVING) inner'.expression
      let span ← spanFrom (start + ρ.shift)
      pure (QuerySpecification.mk distinct top selectList target sources filter groups having span))
      fun _ => false := by
    intro start distinct
    refine (optionalTop_persists hinner).bind fun top => ?_
    refine .bind (.commaSeparated fun _ => selectElement_persists hinner) fun selectList => ?_
    refine .bind (.optionIf (consumeKeyword_persists _) objectName_persists rfl) fun target => ?_
    refine .bind (.listIf (consumeKeyword_persists _) (tableSources_persists hinner)) fun sources => ?_
    refine (whereClause_persists hinner).bind fun filter => (groupBy_persists hinner).bind fun groups => ?_
    refine .bind (.optionIf (consumeKeyword_persists _) (hinner.expression _ limit).free rfl) fun having => ?_
    exact .spanFrom (Nat.lt_succ_self _) fun span => .pure rfl
  refine .position fun start _ => (expectKeyword_persists _).then fun _ => ?_
  refine (consumeKeyword_persists _).free.bind fun distinct => .ite ?_ ?_
  · exact .bind (.pure rfl) fun _ => hrest start distinct
  · exact (consumeKeyword_persists _).free.bind fun _ => hrest start distinct

theorem queryTerm_persists {owed : QueryExpr → Bool} :
    Persists ρ base limit (queryTerm inner) (queryTerm inner') owed := by
  refine .spanned (.whether (consume_persists (by decide)) ?_ ?_)
  · exact (hinner.query _ limit).free.bind fun query => (expect_persists _).bind fun _ => .pure rfl
  · refine .look (fun _ _ h => ρ.isKeyword_eq h _) fun _ => .ite ?_ .failExpected
    exact (specification_persists hinner).map

omit hinner in
theorem setOperation_persists : Persists ρ base limit setOperation setOperation fun _ => false := by
  have hoperator : Persists ρ base limit setOperator setOperator fun _ => false := by
    refine .whether (consumeKeyword_persists _) (.pure rfl) ?_
    refine .whether (consumeKeyword_persists _) (.pure rfl) ?_
    exact .whether (consumeKeyword_persists _) (.pure rfl) (.pure rfl)
  refine hoperator.bind fun op? => ?_
  cases op? with
  | none => exact .pure rfl
  | some op => exact (consumeKeyword_persists _).free.bind fun all => .pure rfl

theorem queryExpr_persists {owed : QueryExpr → Bool} :
    Persists ρ base limit (queryExpr inner) (queryExpr inner') owed :=
  .leftChain (fun _ => queryTerm_persists hinner) fun _ => setOperation_persists

theorem commonTable_persists {owed : CommonTable → Bool} :
    Persists ρ base limit (commonTable inner) (commonTable inner') owed := by
  refine .spanned (ident_persists.then fun name => ?_)
  refine .bind (.listLook (fun _ _ h => ρ.isKind_eq h (by decide)) identList_persists) fun columns => ?_
  refine (expectKeyword_persists _).bind fun _ => (expect_persists _).bind fun _ => ?_
  exact (hinner.query _ limit).free.bind fun query => (expect_persists _).bind fun _ => .pure rfl

theorem fetchClause_persists {owed : Expr → Bool} :
    Persists ρ base limit (fetchClause inner) (fetchClause inner') owed := by
  refine (expectEither_persists _ (by decide)).then fun _ => (hinner.expression _ limit).free.bind fun count => ?_
  exact (expectEither_persists _ (by decide)).bind fun _ => (expectWord_persists _).bind fun _ => .pure rfl

theorem offsetClause_persists {owed : Expr × Option Expr → Bool} :
    Persists ρ base limit (offsetClause inner) (offsetClause inner') owed := by
  refine (hinner.expression _ limit).then fun offset => (expectEither_persists _ (by decide)).bind fun _ => ?_
  exact .bind (.optionIf (consumeKeyword_persists _) (fetchClause_persists hinner) rfl) fun fetch => .pure rfl

theorem query_persists {owed : Query → Bool} : Persists ρ base limit (query inner) (query inner') owed := by
  refine .position fun start _ => ?_
  refine .bind (.listIf (consumeKeyword_persists _) (.commaSeparated fun _ => commonTable_persists hinner))
    fun commonTables => (queryExpr_persists hinner).then fun body => ?_
  refine .bind (.listLook (fun _ _ h => ρ.isKeyword_eq h _) (orderBy_persists hinner)) fun order => ?_
  refine .bind (.optionIf (consumeWord_persists (by decide)) (offsetClause_persists hinner) rfl) fun page => ?_
  refine .whether (consumeKeyword_persists _) (skipParenthesized_persists.bind fun _ => ?_) ?_
  · exact .spanFrom (by omega) fun span => .pure rfl
  · exact .spanFrom (by omega) fun span => .pure rfl

omit hinner in
/-- A deeper level reads the same of the whole. -/
theorem level_persists {ts ts' : Terminals} {ρ : Excerpt ts ts'} :
    ∀ {n n' : Nat}, n ≤ n' → (level n).Persists ρ (level n')
  | 0, _, _ => ⟨fun _ _ => .failTooDeep, fun _ _ => .failTooDeep, fun _ _ => .failTooDeep,
      fun _ _ => .failTooDeep⟩
  | n + 1, 0, h => by omega
  | n + 1, n' + 1, h =>
    have hinner : (level n).Persists ρ (level n') := level_persists (by omega)
    ⟨fun _ _ => disjunction_persists hinner, fun _ _ => negation_persists hinner,
      fun _ _ => unary_persists hinner, fun _ _ => query_persists hinner⟩

end TransactLint.Grammar
