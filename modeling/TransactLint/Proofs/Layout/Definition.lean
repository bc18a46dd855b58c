import TransactLint.Grammar.Definition
import TransactLint.Proofs.Layout.Query
import TransactLint.Proofs.Layout.TableDefinition

/-!
# Layout of `EXECUTE`, `CREATE`, `ALTER` and `DROP`
-/

namespace TransactLint.Grammar

open TransactLint.Parser

variable {ts : Terminals}

/-! ## `EXECUTE` -/

theorem variableBeforeEq_reads : Reads ts variableBeforeEq fun x? => .ofNodes (x?.toList.map .ident) := by
  refine Reads.optionNode .look fun start => ?_
  exact variableName_reads.then fun name => skip_reads.then fun _ => .pure (.of_eq rfl (by simp))

theorem outputMark_reads : Reads ts outputMark fun _ => .none := by
  intro start
  refine (consumeWord_reads _).then fun b => .ite (fun _ => .pure (.of_eq rfl (by simp))) fun _ => ?_
  exact (consumeWord_reads _).lays.entails (.refl _) fun _ => .of_eq rfl (by simp)

section
variable {inner : Level} (h : inner.Reads ts)
include h

theorem argument_reads : Reads ts (argument inner) fun x => .node (.argument x) := by
  refine Reads.spanned (f := fun x => ⟨true, x.1.toList.map .ident ++ [.expr x.2.1]⟩) (fun start => ?_)
    (fun _ _ => rfl) fun _ _ => .refl _
  refine variableBeforeEq_reads.then fun name => h.expression.then fun value => ?_
  exact outputMark_reads.then fun output => .pure (.of_eq (by simp) (by simp))

theorem execution_reads : Reads ts (execution inner) fun x => ⟨true, x.parts⟩ := by
  intro start
  refine skip_reads.then fun _ => (consume_reads _).then fun b => .ite (fun _ => ?_) fun _ => ?_
  · refine h.expression.then fun text => (expect_reads _).then fun _ => ?_
    exact .pure (.of_eq (by simp [Execution.parts]) (by simp))
  refine variableBeforeEq_reads.then fun returnVariable => objectName_reads.then fun name => ?_
  refine (Reads.listNodes .look (Reads.commaNodes (argument_reads h))).then fun arguments => ?_
  refine .look fun b => .ite (fun _ => ?_) fun _ => ?_
  · exact skipTwo_reads.then fun _ => .pure (.of_eq (by simp [Execution.parts]) (by simp))
  · exact .pure (.of_eq (by simp [Execution.parts]) (by simp))

/-! ## Lists of statements -/

theorem statementList_reads (inBlock : Bool) :
    Reads ts (statementList inner inBlock) fun xs => .ofNodes (xs.map .statement) := by
  refine Reads.manyNodes fun start => ?_
  refine (Reads.repeatWhile (consume_reads _)).then fun _ => .look fun stop => ?_
  have hstop : Reads ts (pure !stop) fun _ => .none := fun start => .pure (.refl _)
  exact (hstop.optionNode h.statement) start

/-! ## Tables, indexes and views -/

theorem createTable_reads : Reads ts (createTable inner) fun k => ⟨true, k.parts⟩ := by
  intro start
  refine (expectKeyword_reads _).then fun _ => objectName_reads.then fun name => ?_
  refine (tableDefinition_reads h).then fun definition => storageOptions_reads.then fun _ => ?_
  exact .pure (.of_eq (by simp [StatementKind.parts]) (by simp))

def alterNodes : AlterAction → List Node
  | .add definition => [.tableDefinition definition]
  | .unknown => []

theorem alterAction_reads : Reads ts (alterAction inner) fun x => .ofNodes (alterNodes x) := by
  intro start
  refine (consumeKeyword_reads _).then fun b => .ite (fun _ => ?_) fun _ => ?_
  · have hspanned : Reads ts (spanned definitionOf (tableElements inner)) fun x => .node (.tableDefinition x) :=
      (tableElements_reads h).spanned (fun _ _ => rfl) fun xs s => .of_perm (parts_definitionOf s xs) id
    exact Lays.map (hspanned.lays.entails (.refl _) fun x => .of_eq rfl (by simp))
  · refine skip_reads.then fun _ => (skipUntil_reads _).then fun _ => ?_
    exact .pure (.of_eq rfl (by simp))

theorem alterTable_reads : Reads ts (alterTable inner) fun k => ⟨true, k.parts⟩ := by
  intro start
  have haction : ∀ (name : ObjectName) (L : Layout), L.nodes = [.objectName name] → L.moved = true →
      Lays ts start L (do
        let action ← alterAction inner
        pure (StatementKind.alterTable name action)) fun k => ⟨true, k.parts⟩ := by
    intro name L hL hm
    refine (alterAction_reads h).then fun action => .pure (.of_eq ?_ (by simp [hm]))
    cases action <;> simp [StatementKind.parts, alterNodes, hL]
  refine (expectKeyword_reads _).then fun _ => objectName_reads.then fun name => ?_
  refine .look fun b => .ite (fun _ => ?_) fun _ => haction name _ (by simp) (by simp)
  exact skipTwo_reads.then fun _ => haction name _ (by simp) (by simp)

theorem createIndex_reads : Reads ts (createIndex inner) fun k => ⟨true, k.parts⟩ := by
  intro start
  refine (consumeKeyword_reads _).then fun unique => clusteredOption_reads.then fun clustered => ?_
  refine (consumeWord_reads _).then fun columnstore => (expectKeyword_reads _).then fun _ => ?_
  refine ident_reads.then fun name => (expectKeyword_reads _).then fun _ => ?_
  refine objectName_reads.then fun table => (indexBody_reads h).then fun body => ?_
  exact .pure (.of_eq (by simp [StatementKind.parts]) (by simp))

theorem createView_reads (mode : CreateMode) : Reads ts (createView inner mode) fun k => ⟨true, k.parts⟩ := by
  intro start
  refine (expectKeyword_reads _).then fun _ => objectName_reads.then fun name => ?_
  refine (Reads.listNodes .look identList_reads).then fun columns => ?_
  have hoptions : Reads ts (listIf (consumeKeyword .WITH) (commaSeparated anyIdent)) fun _ => .none :=
    (Reads.listNodes (consumeKeyword_reads _) (Reads.commaNodes anyIdent_reads)).entails fun _ =>
      ⟨by simp, by simp⟩
  refine hoptions.then fun _ => (expectKeyword_reads _).then fun _ => h.query.then fun query => ?_
  refine .look fun b => .ite (fun _ => ?_) fun _ => ?_
  · refine skipTwo_reads.then fun _ => (expectKeyword_reads _).then fun _ => ?_
    exact .pure (.of_eq (by simp [StatementKind.parts]) (by simp))
  · exact .pure (.of_eq (by simp [StatementKind.parts]) (by simp))

omit h in
theorem parameterMarks_reads : Reads ts parameterMarks fun _ => .none := by
  intro start
  refine Lays.iterate (f := fun _ => .none) (fun marks => ?_) _
  refine outputMark_reads.then fun b => .ite (fun _ => .pure (.of_eq rfl (by simp))) fun _ => ?_
  refine (consumeWord_reads _).then fun b => .ite (fun _ => ?_) fun _ => ?_ <;>
    exact .pure (.of_eq rfl (by simp))

theorem parameter_reads : Reads ts (parameter inner) fun x => .node (.parameter x) := by
  refine .position fun start => variableName_reads.then fun name => ?_
  refine (consumeKeyword_reads _).then fun _ => dataType_reads.then fun type => ?_
  refine (consumeWord_reads _).then fun _ => ?_
  refine (Reads.optionNode (consume_reads _) h.expression).then fun initial => ?_
  refine parameterMarks_reads.then fun marks => ?_
  exact Lays.close (fun _ => rfl) fun _ => .of_eq (by simp [Node.constituents, Node.parts]) (by simp)

omit h in
theorem procedureOption_reads : Reads ts procedureOption fun _ => .read := by
  intro start
  refine .look fun b => .ite (fun _ => ?_) fun _ => ?_
  · refine skip_reads.then fun _ => (expectKeyword_reads _).then fun _ => anyIdent_reads.then fun _ => ?_
    exact .pure ⟨by simp, by simp⟩
  · exact anyIdent_reads.then fun _ => .pure ⟨by simp, by simp⟩

theorem createProcedure_reads (mode : CreateMode) :
    Reads ts (createProcedure inner mode) fun k => ⟨true, k.parts⟩ := by
  intro start
  refine skip_reads.then fun _ => objectName_reads.then fun name => (consume_reads _).then fun _ => ?_
  refine (Reads.listNodes .look (Reads.commaNodes (parameter_reads h))).then fun parameters => ?_
  have hlist : Reads ts (commaSeparated procedureOption) fun _ => .ofNodes [] :=
    procedureOption_reads.commaRead.entails fun _ => .of_eq rfl (by simp)
  have hoptions : Reads ts (listIf (consumeKeyword .WITH) (commaSeparated procedureOption)) fun _ => .none :=
    (consumeKeyword_reads _).listIf hlist rfl
  have hbody : ∀ L : Layout, L.nodes = .objectName name :: parameters.map .parameter →
      Lays ts start L (do
        let _ ← listIf (consumeKeyword .WITH) (commaSeparated procedureOption)
        if ← atKeywordWord .FOR "REPLICATION" then skipTwo
        expectKeyword .AS
        let body ← statementList inner false
        pure (StatementKind.createProcedure mode name parameters body)) fun k => ⟨true, k.parts⟩ := by
    intro L hL
    have hend : ∀ L' : Layout, L'.nodes = L.nodes → Lays ts start L' (do
        expectKeyword .AS
        let body ← statementList inner false
        pure (StatementKind.createProcedure mode name parameters body)) fun k => ⟨true, k.parts⟩ := by
      intro L' hL'
      refine (expectKeyword_reads _).then fun _ => (statementList_reads h false).then fun body => ?_
      exact .pure (.of_eq (by simp [StatementKind.parts, hL', hL]) (by simp))
    refine hoptions.then fun _ => .look fun b => .ite (fun _ => ?_) fun _ => hend _ (by simp)
    exact skipTwo_reads.then fun _ => hend _ (by simp)
  refine .ite (fun _ => ?_) fun _ => hbody _ (by simp)
  exact (expect_reads _).then fun _ => hbody _ (by simp)

/-! ## Statements -/

theorem createPlain_reads (t : Token) : Reads ts (createPlain inner t) fun k => ⟨true, k.parts⟩ := by
  unfold createPlain
  split
  · exact createTable_reads h
  · exact createIndex_reads h
  · exact createIndex_reads h
  · exact createIndex_reads h
  · exact createIndex_reads h
  · exact createView_reads h _
  · exact createProcedure_reads h _
  · exact createProcedure_reads h _
  · exact .ite (createIndex_reads h) .failUnsupported
  · exact .failUnsupported

theorem createOrAlter_reads (mode : CreateMode) (t : Token) :
    Reads ts (createOrAlter inner mode t) fun k => ⟨true, k.parts⟩ := by
  unfold createOrAlter
  split
  · exact createView_reads h mode
  · exact createProcedure_reads h mode
  · exact createProcedure_reads h mode
  · exact .failUnsupported

theorem create_reads : Reads ts (create inner) fun k => ⟨true, k.parts⟩ := by
  intro start
  refine (expectKeyword_reads _).then fun _ => (consumePair_reads _ _).then fun orAlter => .look fun t? => ?_
  cases t? with
  | none => exact .failExpected
  | some t =>
    have hobject := Reads.ite (c := orAlter = true) (createOrAlter_reads h .createOrAlter t) (createPlain_reads h t)
    exact hobject.lays.entails (.refl _) fun _ => .of_eq (by simp) (by simp)

theorem alter_reads : Reads ts (alter inner) fun k => ⟨true, k.parts⟩ := by
  intro start
  refine (expectKeyword_reads _).then fun _ => .look fun t? => ?_
  cases t? with
  | none => exact .failExpected
  | some t =>
    have hobject := Reads.ite (c := t.kind = .keyword .TABLE) (alterTable_reads h) (createOrAlter_reads h .alter t)
    exact hobject.lays.entails (.refl _) fun _ => .of_eq (by simp) (by simp)

end

theorem drop_reads : Reads ts drop fun k => ⟨true, k.parts⟩ := by
  intro start
  refine (expectKeyword_reads _).then fun _ => anyIdent_reads.then fun objectType => ?_
  refine (consumePair_reads _ _).then fun ifExists => (Reads.commaNodes objectName_reads).then fun names => ?_
  refine (Reads.optionNode (consumeKeyword_reads _) objectName_reads).then fun table => ?_
  exact .pure ⟨by simpa [StatementKind.parts] using (List.sublist_cons_self _ _).subperm, by simp⟩

end TransactLint.Grammar
