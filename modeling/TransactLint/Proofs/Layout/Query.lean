import TransactLint.Grammar.Query
import TransactLint.Proofs.Layout.Expression

/-!
# Layout of table sources and queries
-/

namespace TransactLint.Grammar

open TransactLint.Parser

variable {ts : Terminals}

/-! ## Aliases and hints -/

theorem tableAlias_reads : Reads ts tableAlias fun x? => .ofNodes (x?.toList.map .ident) := by
  intro start
  refine (consumeKeyword_reads _).then fun b => .ite (fun _ => ?_) fun _ => ?_
  · refine Lays.map (ident_reads.lays.entails (.refl _) fun x => ?_)
    exact .of_eq rfl (by simp)
  refine .look fun b => .ite (fun _ => ?_) fun _ => .pure (.of_eq rfl (by simp))
  refine Lays.map (ident_reads.lays.entails (.refl _) fun x => ?_)
  exact .of_eq rfl (by simp)

theorem tableHint_reads : Reads ts tableHint fun x => .node (.ident x) := by
  intro start
  refine .look fun b => .ite (fun _ => ?_) fun _ => .failExpected
  refine anyIdent_reads.then fun hint => .look fun b => .ite (fun _ => ?_) fun _ => ?_
  · exact skipParenthesized_reads.then fun _ => .pure (.of_eq rfl (by simp))
  · refine (consume_reads _).then fun b => .ite (fun _ => ?_) fun _ => .pure (.of_eq rfl (by simp))
    exact skip_reads.then fun _ => .pure (.of_eq rfl (by simp))

theorem tableHints_reads : Reads ts tableHints fun xs => .ofNodes (xs.map .ident) := by
  refine Reads.listNodes (consumePair_reads _ _) fun start => ?_
  refine (Reads.commaNodes tableHint_reads).then fun hints => (expect_reads _).then fun _ => ?_
  exact .pure (.of_eq (by simp) (by simp))

/-! ## Joins -/

theorem outerJoin_reads (join : QualifiedJoin) : Reads ts (outerJoin join) fun _ => .none :=
  fun start => (consumeKeyword_reads _).then fun _ => .pure (.of_eq rfl (by simp))

theorem joinKind_reads : Reads ts joinKind fun _ => .none := by
  intro start
  have houter : ∀ (join : QualifiedJoin) (L : Layout), L.nodes = [] →
      Lays ts start L (some <$> outerJoin join) fun _ => .none := fun join L hL =>
    Lays.map ((outerJoin_reads join).lays.entails (.refl _) fun _ => .of_eq (by simp [hL]) (by simp))
  refine (consumeKeyword_reads _).then fun b => .ite (fun _ => .pure (.of_eq rfl (by simp))) fun _ => ?_
  refine (consumeKeyword_reads _).then fun b => .ite (fun _ => houter _ _ rfl) fun _ => ?_
  refine (consumeKeyword_reads _).then fun b => .ite (fun _ => houter _ _ rfl) fun _ => ?_
  refine (consumeKeyword_reads _).then fun b => .ite (fun _ => houter _ _ rfl) fun _ => ?_
  refine .look fun b => .ite (fun _ => ?_) fun _ => ?_ <;> exact .pure (.of_eq rfl (by simp))

theorem qualifiedJoin_reads : Reads ts qualifiedJoin fun _ => .none := by
  intro start
  refine joinKind_reads.then fun join? => ?_
  cases join? with
  | none => exact .pure (.of_eq rfl (by simp))
  | some join =>
    refine .look fun b => .ite (fun _ => ?_) fun _ => ?_
    · refine skip_reads.then fun _ => (expectKeyword_reads _).then fun _ => ?_
      exact .pure (.of_eq rfl (by simp))
    · exact (expectKeyword_reads _).then fun _ => .pure (.of_eq rfl (by simp))

theorem unqualifiedJoin_reads : Reads ts unqualifiedJoin fun _ => .none := by
  intro start
  refine (consumeKeyword_reads _).then fun b => .ite (fun _ => ?_) fun _ => ?_
  · refine (consumeKeyword_reads _).then fun b => .ite (fun _ => .pure (.of_eq rfl (by simp))) fun _ => ?_
    exact (expectWord_reads _).then fun _ => .pure (.of_eq rfl (by simp))
  · refine .look fun b => .ite (fun _ => ?_) fun _ => .pure (.of_eq rfl (by simp))
    exact skipTwo_reads.then fun _ => .pure (.of_eq rfl (by simp))

variable {inner : Level} (h : inner.Reads ts)
include h

/-! ## Sources without joins -/

theorem derivedTable_reads : Reads ts (derivedTable inner) fun k => ⟨true, k.parts⟩ := by
  intro start
  refine h.query.then fun query => (expect_reads _).then fun _ => ?_
  refine tableAlias_reads.then fun aliasName => ?_
  have hcolumns : Reads ts (do pure (aliasName.isSome && (← atKind .leftParen))) fun _ => .none :=
    fun start => .look fun b => .pure (.refl _)
  refine (hcolumns.listNodes identList_reads).then fun columns => ?_
  exact .pure (.of_eq (by simp [TableSourceKind.parts]) (by simp))

/-- The name of the function has been read. -/
theorem tableFunction_lays (name : ObjectName) (start : Nat) :
    Lays ts start (.node (.objectName name)) (tableFunction inner name) fun k => ⟨true, k.parts⟩ := by
  refine (expect_reads _).then fun _ => .look fun empty => ?_
  have harguments : Reads ts (pure !empty) fun _ => .none := fun start => .pure (.refl _)
  refine (harguments.listNodes (expressionList_reads h)).then fun arguments => ?_
  refine (expect_reads _).then fun _ => tableAlias_reads.then fun aliasName => ?_
  exact .pure (.of_eq (by simp [TableSourceKind.parts]) (by simp))

theorem namedSource_reads : Reads ts (namedSource inner) fun k => ⟨true, k.parts⟩ := by
  intro start
  refine objectName_reads.then fun name => .look fun b => .ite (fun _ => ?_) fun _ => ?_
  · exact tableFunction_lays h name start
  · refine tableAlias_reads.then fun aliasName => tableHints_reads.then fun hints => ?_
    exact .pure (.of_eq (by simp [TableSourceKind.parts]) (by simp))

/-! ## Sources with joins -/

section
variable {factor : Parser TableSource} (hfactor : Reads ts factor fun x => .node (.tableSource x))
include hfactor

theorem joinStep_lays (start : Nat) (left : TableSource) :
    Lays ts start (.node (.tableSource left)) (joinStep inner factor start left)
      fun x? => .node (.tableSource (x?.getD left)) := by
  refine qualifiedJoin_reads.then fun join? => ?_
  cases join? with
  | some join =>
    refine hfactor.then fun right => (expectKeyword_reads _).then fun _ => ?_
    refine h.expression.then fun condition => ?_
    refine .closeAs (fun s => .tableSource ⟨.qualifiedJoin join left right condition, s⟩) (fun _ => rfl)
      (fun s => ?_) fun _ => .refl _
    exact .of_eq rfl (by simp)
  | none =>
    refine unqualifiedJoin_reads.then fun join? => ?_
    cases join? with
    | some join =>
      refine hfactor.then fun right => ?_
      refine .closeAs (fun s => .tableSource ⟨.unqualifiedJoin join left right, s⟩) (fun _ => rfl)
        (fun s => ?_) fun _ => .refl _
      exact .of_eq rfl (by simp)
    | none => exact .pure (.of_eq rfl (by simp))

theorem joined_reads : Reads ts (joined inner factor) fun x => .node (.tableSource x) :=
  .position fun start => hfactor.then fun first =>
    Lays.iterate (f := fun x => .node (.tableSource x)) (joinStep_lays h hfactor start) first

theorem parenthesizedSource_reads :
    Reads ts (parenthesizedSource inner factor) fun k => ⟨true, k.parts⟩ := by
  intro start
  refine (joined_reads h hfactor).then fun source => (expect_reads _).then fun _ => ?_
  exact .pure (.of_eq (by simp [TableSourceKind.parts]) (by simp))

end

theorem factorWithin_reads : ∀ n, Reads ts (factorWithin inner n) fun x => .node (.tableSource x)
  | 0 => Reads.spanned (namedSource_reads h) (fun _ _ => rfl) fun _ _ => .refl _
  | n + 1 => by
    refine Reads.spanned (f := fun k => ⟨true, k.parts⟩) (fun start => ?_) (fun _ _ => rfl) fun _ _ => .refl _
    refine (consume_reads _).then fun b => .ite (fun _ => .look fun b => .ite (fun _ => ?_) fun _ => ?_) fun _ => ?_
    · exact (derivedTable_reads h).lays.entails (.refl _) fun _ => .of_eq rfl (by simp)
    · refine (parenthesizedSource_reads h (factorWithin_reads n)).lays.entails (.refl _) fun _ => ?_
      exact .of_eq rfl (by simp)
    · exact (namedSource_reads h).lays.entails (.refl _) fun _ => .of_eq rfl (by simp)

theorem tableFactor_reads : Reads ts (tableFactor inner) fun x => .node (.tableSource x) :=
  fun start pos => factorWithin_reads h _ start pos

theorem tableSources_reads : Reads ts (tableSources inner) fun xs => ⟨true, xs.map .tableSource⟩ :=
  Reads.commaNodes (joined_reads h (tableFactor_reads h))

/-! ## Clauses of a query -/

theorem whereClause_reads : Reads ts (whereClause inner) fun x? => .ofNodes (x?.toList.map .whereClause) := by
  refine Reads.optionNode .look (Reads.spanned (f := fun e => .node (.expr e)) (fun start => ?_)
    (fun _ _ => rfl) fun _ _ => .refl _)
  exact skip_reads.then fun _ => h.expression.lays.entails (.refl _) fun _ => .of_eq rfl (by simp)

theorem topCount_reads : Reads ts (topCount inner) fun e => .node (.expr e) := by
  intro start
  refine (consume_reads _).then fun b => .ite (fun _ => ?_) fun _ => ?_
  · refine h.expression.then fun expr => (expect_reads _).then fun _ => ?_
    exact .pure (.of_eq rfl (by simp))
  · exact (primary_reads h).lays.entails (.refl _) fun _ => .of_eq rfl (by simp)

theorem topClause_reads : Reads ts (topClause inner) fun x => .node (.topClause x) := by
  refine Reads.spanned (f := fun x => .node (.expr x.1)) (fun start => ?_) (fun _ _ => rfl) fun _ _ => .refl _
  refine (expectKeyword_reads _).then fun _ => (topCount_reads h).then fun expr => ?_
  refine (consumeKeyword_reads _).then fun percent => .look fun withTies => .ite (fun _ => ?_) fun _ => ?_
  · exact skipTwo_reads.then fun _ => .pure (.of_eq rfl (by simp))
  · exact .pure (.of_eq rfl (by simp))

theorem optionalTop_reads : Reads ts (optionalTop inner) fun x? => .ofNodes (x?.toList.map .topClause) :=
  Reads.optionNode .look (topClause_reads h)

omit h in
theorem columnAlias_reads : Reads ts columnAlias fun x => .node (.ident x) :=
  fun start => .look fun _ => .ite (fun _ => anyIdent_reads start) fun _ => ident_reads start

omit h in
theorem optionalColumnAlias_reads :
    Reads ts optionalColumnAlias fun x? => .ofNodes (x?.toList.map .ident) := by
  intro start
  refine (consumeKeyword_reads _).then fun b => .ite (fun _ => ?_) fun _ => ?_
  · refine Lays.map (columnAlias_reads.lays.entails (.refl _) fun x => ?_)
    exact .of_eq rfl (by simp)
  · exact (Reads.optionNode .look columnAlias_reads).lays.entails (.refl _) fun _ => .of_eq rfl (by simp)

theorem selectElement_reads : Reads ts (selectElement inner) fun x => .node (.selectElement x) := by
  refine Reads.spanned (f := fun k => ⟨true, k.parts⟩) (fun start => ?_) (fun _ _ => rfl) fun _ _ => .refl _
  refine (consume_reads _).then fun star => .ite (fun hstar => .pure (.of_eq rfl (by simp [hstar]))) fun _ => ?_
  refine .look fun b => .ite (fun _ => ?_) fun _ => ?_
  · refine objectName_reads.then fun qualifier => (expect_reads _).then fun _ => (expect_reads _).then fun _ => ?_
    exact .pure (.of_eq (by simp [SelectElementKind.parts]) (by simp))
  refine .look fun b => .ite (fun _ => ?_) fun _ => ?_
  · refine variableName_reads.then fun name => (expect_reads _).then fun _ => h.expression.then fun value => ?_
    exact .pure (.of_eq (by simp [SelectElementKind.parts]) (by simp))
  refine .look fun b => .ite (fun _ => ?_) fun _ => ?_
  · refine ident_reads.then fun aliasName => (expect_reads _).then fun _ => h.expression.then fun expr => ?_
    -- the alias stands before its expression
    exact .pure (.of_perm (by simpa [SelectElementKind.parts] using .swap ..) (by simp))
  · refine h.expression.then fun expr => optionalColumnAlias_reads.then fun aliasName => ?_
    exact .pure (.of_eq (by simp [SelectElementKind.parts]) (by simp))

theorem groupBy_reads : Reads ts (groupBy inner) fun es => .ofNodes (es.map .expr) :=
  Reads.listNodes (consumePair_reads _ _) (expressionList_reads h)

theorem specification_reads : Reads ts (specification inner) fun x => .node (.specification x) := by
  refine .position fun start => (expectKeyword_reads _).then fun _ => ?_
  refine (consumeKeyword_reads _).then fun distinct => ?_
  have hrest : ∀ L : Layout, L.nodes = [] → Lays ts start L (do
      let top ← optionalTop inner
      let selectList ← commaSeparated (selectElement inner)
      let target ← optionIf (consumeKeyword .INTO) objectName
      let sources ← listIf (consumeKeyword .FROM) (tableSources inner)
      let filter ← whereClause inner
      let groups ← groupBy inner
      let having ← optionIf (consumeKeyword .HAVING) inner.expression
      let span ← spanFrom start
      pure ⟨distinct, top, selectList, target, sources, filter, groups, having, span⟩)
      fun x => .node (.specification x) := by
    intro L hL
    refine (optionalTop_reads h).then fun top => ?_
    refine (Reads.commaNodes (selectElement_reads h)).then fun selectList => ?_
    refine (Reads.optionNode (consumeKeyword_reads _) objectName_reads).then fun target => ?_
    refine (Reads.listNodes (consumeKeyword_reads _) (tableSources_reads h)).then fun sources => ?_
    refine (whereClause_reads h).then fun filter => (groupBy_reads h).then fun groups => ?_
    refine (Reads.optionNode (consumeKeyword_reads _) h.expression).then fun having => ?_
    refine Lays.close (fun _ => rfl) fun _ => .of_eq (by simp [Node.constituents, Node.parts, hL]) (by simp)
  refine .ite (fun _ => ?_) fun _ => ?_
  · exact Lays.bind (f := fun _ => .read) (.pure (.of_eq rfl (by simp))) fun _ => hrest _ rfl
  · exact (consumeKeyword_reads _).then fun _ => hrest _ rfl

/-! ## Queries -/

theorem queryTerm_reads : Reads ts (queryTerm inner) fun x => .node (.queryExpr x) := by
  refine Reads.spanned (f := fun k => ⟨true, k.parts⟩) (fun start => ?_) (fun _ _ => rfl) fun _ _ => .refl _
  refine (consume_reads _).then fun b => .ite (fun _ => ?_) fun _ => ?_
  · refine h.query.then fun query => (expect_reads _).then fun _ => ?_
    exact .pure (.of_eq (by simp [QueryExprKind.parts]) (by simp))
  refine .look fun b => .ite (fun _ => ?_) fun _ => .failExpected
  refine Lays.map ((specification_reads h).lays.entails (.refl _) fun x => ?_)
  exact .of_eq rfl (by simp)

omit h in
theorem setOperator_reads : Reads ts setOperator fun _ => .none := by
  intro start
  refine (consumeKeyword_reads _).then fun b => .ite (fun _ => .pure (.of_eq rfl (by simp))) fun _ => ?_
  refine (consumeKeyword_reads _).then fun b => .ite (fun _ => .pure (.of_eq rfl (by simp))) fun _ => ?_
  refine (consumeKeyword_reads _).then fun b => .ite (fun _ => ?_) fun _ => ?_ <;>
    exact .pure (.of_eq rfl (by simp))

omit h in
theorem setOperation_reads : Reads ts setOperation fun _ => .none := by
  intro start
  refine setOperator_reads.then fun op? => ?_
  cases op? with
  | none => exact .pure (.of_eq rfl (by simp))
  | some op => exact (consumeKeyword_reads _).then fun all => .pure (.of_eq rfl (by simp))

theorem queryExpr_reads : Reads ts (queryExpr inner) fun x => .node (.queryExpr x) :=
  (queryTerm_reads h).leftChain setOperation_reads (fun _ _ _ _ => rfl) fun _ _ _ _ => rfl

theorem commonTable_reads : Reads ts (commonTable inner) fun x => .node (.commonTable x) := by
  refine Reads.spanned (f := fun x => ⟨true, .ident x.1 :: x.2.1.map .ident ++ [.query x.2.2]⟩)
    (fun start => ?_) (fun _ _ => rfl) fun _ _ => .refl _
  refine ident_reads.then fun name => (Reads.listNodes .look identList_reads).then fun columns => ?_
  refine (expectKeyword_reads _).then fun _ => (expect_reads _).then fun _ => ?_
  refine h.query.then fun query => (expect_reads _).then fun _ => ?_
  exact .pure (.of_eq (by simp) (by simp))

theorem fetchClause_reads : Reads ts (fetchClause inner) fun e => .node (.expr e) := by
  intro start
  refine (expectEither_reads _ _).then fun _ => h.expression.then fun count => ?_
  refine (expectEither_reads _ _).then fun _ => (expectWord_reads _).then fun _ => ?_
  exact .pure (.of_eq rfl (by simp))

theorem offsetClause_reads :
    Reads ts (offsetClause inner) fun x => .ofNodes (.expr x.1 :: x.2.toList.map .expr) := by
  intro start
  refine h.expression.then fun offset => (expectEither_reads _ _).then fun _ => ?_
  refine (Reads.optionNode (consumeKeyword_reads _) (fetchClause_reads h)).then fun fetch => ?_
  exact .pure (.of_eq (by simp) (by simp))

theorem query_reads : Reads ts (query inner) fun x => .node (.query x) := by
  refine .position fun start => ?_
  refine (Reads.listNodes (consumeKeyword_reads _) (Reads.commaNodes (commonTable_reads h))).then
    fun commonTables => ?_
  refine (queryExpr_reads h).then fun body => ?_
  refine (Reads.listNodes .look (orderBy_reads h)).then fun order => ?_
  refine (Reads.optionIf (consumeWord_reads _) (offsetClause_reads h)).then fun page => ?_
  have hclose : ∀ L : Layout, L.nodes = commonTables.map .commonTable ++ .queryExpr body ::
      order.map .orderItem ++ page.toList.flatMap (fun x => .expr x.1 :: x.2.toList.map .expr) →
      L.moved = true → Lays ts start L (do
        let span ← spanFrom start
        pure ⟨commonTables, body, order, page.map Prod.fst, page.bind Prod.snd, span⟩)
        fun x => .node (.query x) := by
    intro L hL hm
    refine Lays.close (fun _ => rfl) fun s => .of_eq ?_ fun _ => hm
    rw [hL]
    cases page <;> simp [Node.constituents, Node.parts]
  refine (consumeKeyword_reads _).then fun b => .ite (fun _ => ?_) fun _ => ?_
  · exact skipParenthesized_reads.then fun _ => hclose _ (by simp) (by simp)
  · exact hclose _ (by simp) (by simp)

end TransactLint.Grammar
