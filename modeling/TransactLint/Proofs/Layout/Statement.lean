import TransactLint.Grammar.Statement
import TransactLint.Proofs.Layout.Definition

/-!
# Layout of statements
-/

namespace TransactLint.Grammar

open TransactLint.Parser

variable {ts : Terminals}

theorem assignmentMark_reads : Reads ts assignmentMark fun _ => .read := by
  intro start
  refine .look fun op => .ite (fun _ => ?_) fun _ => ?_
  · refine skip_reads.then fun _ => (expect_reads _).then fun _ => ?_
    exact .pure (.of_eq rfl (by simp))
  · exact (expect_reads _).then fun _ => .pure (.of_eq rfl (by simp))

/-! ## Names of transactions -/

theorem transactionName_reads : Reads ts transactionName fun x? => .ofNodes (x?.toList.map .ident) :=
  Reads.optionNode .look anyIdent_reads

theorem transactionWord_reads : Reads ts transactionWord fun _ => .none := by
  intro start
  refine (consumeKeyword_reads _).then fun b => .ite (fun _ => .pure (.of_eq rfl (by simp))) fun _ => ?_
  refine (consumeKeyword_reads _).then fun b => .ite (fun _ => .pure (.of_eq rfl (by simp))) fun _ => ?_
  exact (consumeWord_reads _).lays.entails (.refl _) fun _ => .of_eq rfl (by simp)

theorem transactionEnd_reads (kind : TransactionKind) :
    ReadsHere ts (transactionEnd kind) fun k => ⟨true, k.parts⟩ := by
  refine .skip fun start => transactionWord_reads.then fun b => .ite (fun _ => ?_) fun _ => ?_
  · refine Lays.map (transactionName_reads.lays.entails (.refl _) fun name => ?_)
    exact .of_eq (by simp [StatementKind.parts]) (by simp)
  · exact .pure (.of_eq (by simp [StatementKind.parts]) (by simp))

/-! ## Options -/

def OptionWords.nodes (found : OptionWords) : List Node :=
  found.words.reverse.map .ident ++ found.value.toList.map .ident

theorem optionStep_lays (found : OptionWords) (start : Nat) : Lays ts start (.ofNodes found.nodes)
    (optionStep found) fun found? => .ofNodes (found?.getD found).nodes := by
  obtain ⟨words, value⟩ := found
  refine .look fun t? => ?_
  cases value with
  | some value => exact .pure (.refl _)
  | none =>
    cases t? with
    | none => exact .pure (.refl _)
    | some t =>
      refine .ite (fun _ => ?_) fun _ => .ite (fun _ => ?_) fun _ => ?_
      · refine anyIdent_reads.then fun value => .pure (.of_eq ?_ (by simp))
        simp [OptionWords.nodes]
      · exact skip_reads.then fun _ => .pure (.of_eq (by simp) (by simp))
      refine .look fun b => .ite (fun _ => ?_) fun _ => .pure (.refl _)
      refine anyIdent_reads.then fun word => .pure (.of_eq ?_ (by simp))
      simp [OptionWords.nodes]

theorem setOption_reads : Reads ts setOption fun k => ⟨true, k.parts⟩ := by
  intro start
  refine Lays.bind (f := fun found => .ofNodes found.nodes) ?_ fun found => ?_
  · exact (Lays.iterate (optionStep_lays · start) ⟨[], none⟩).weaken (.of_eq rfl id)
  refine .ite (fun _ => .failExpected) fun hwords => .pure ⟨.refl _, fun _ => .inr ?_⟩
  have hne : found.words ≠ [] := by simpa using hwords
  simp [OptionWords.nodes, hne]

theorem truncation_reads : Reads ts truncation fun k => ⟨true, k.parts⟩ := by
  intro start
  refine skip_reads.then fun _ => (expectKeyword_reads _).then fun _ => ?_
  refine Lays.map (objectName_reads.lays.entails (.refl _) fun name => ?_)
  exact .of_eq (by simp [StatementKind.parts]) (by simp)

section
variable {inner : Level} (h : inner.Reads ts)
include h

/-! ## Changes to rows -/

theorem valuesRow_reads : Reads ts (valuesRow inner) fun row => ⟨true, row.map .expr⟩ := by
  intro start
  refine (expect_reads _).then fun _ => (expressionList_reads h).then fun row => ?_
  exact (expect_reads _).then fun _ => .pure (.of_eq (by simp) (by simp))

theorem insertSource_reads : Reads ts (insertSource inner) fun source => .ofNodes source.parts := by
  intro start
  refine (consumeKeyword_reads _).then fun b => .ite (fun _ => ?_) fun _ => ?_
  · refine Lays.map ((Reads.commaSeparated (valuesRow_reads h)).lays.entails (.refl _) fun rows => ?_)
    exact .of_eq (by simp [InsertSource.parts, List.map_flatten, List.flatMap]) (by simp)
  refine (consumePair_reads _ _).then fun b => .ite (fun _ => .pure (.of_eq rfl (by simp))) fun _ => ?_
  refine .look fun b => .ite (fun _ => ?_) fun _ => .look fun b => .ite (fun _ => ?_) fun _ => .failExpected
  · refine Lays.map ((execution_reads h).lays.entails (.refl _) fun x => ?_)
    exact .of_eq (by simp [InsertSource.parts]) (by simp)
  · refine Lays.map (h.query.lays.entails (.refl _) fun q => ?_)
    exact .of_eq (by simp [InsertSource.parts]) (by simp)

theorem insertion_reads : Reads ts (insertion inner) fun x => ⟨true, (StatementKind.insertion x).parts⟩ := by
  intro start
  refine (expectKeyword_reads _).then fun _ => (optionalTop_reads h).then fun top => ?_
  refine (consumeKeyword_reads _).then fun _ => objectName_reads.then fun target => ?_
  refine (Reads.listNodes .look identList_reads).then fun columns => (insertSource_reads h).then fun source => ?_
  exact .pure (.of_eq (by simp [StatementKind.parts]) (by simp))

theorem assignment_reads : Reads ts (assignment inner) fun x => .node (.assignment x) := by
  refine Reads.spanned (f := fun x => ⟨true, [.expr x.1, .expr x.2]⟩) (fun start => ?_)
    (fun _ _ => rfl) fun _ _ => .refl _
  refine (primary_reads h).then fun target => assignmentMark_reads.then fun _ => h.expression.then fun value => ?_
  exact .pure (.of_eq (by simp) (by simp))

theorem update_reads : Reads ts (update inner) fun x => ⟨true, (StatementKind.update x).parts⟩ := by
  intro start
  refine (expectKeyword_reads _).then fun _ => (optionalTop_reads h).then fun top => ?_
  refine (tableFactor_reads h).then fun target => (expectKeyword_reads _).then fun _ => ?_
  refine (Reads.commaNodes (assignment_reads h)).then fun assignments => ?_
  refine (Reads.listNodes (consumeKeyword_reads _) (tableSources_reads h)).then fun sources => ?_
  refine (whereClause_reads h).then fun filter => ?_
  exact .pure (.of_eq (by simp [StatementKind.parts]) (by simp))

theorem deletion_reads : Reads ts (deletion inner) fun x => ⟨true, (StatementKind.deletion x).parts⟩ := by
  intro start
  refine (expectKeyword_reads _).then fun _ => (optionalTop_reads h).then fun top => ?_
  refine (consumeKeyword_reads _).then fun _ => (tableFactor_reads h).then fun target => ?_
  refine (Reads.listNodes (consumeKeyword_reads _) (tableSources_reads h)).then fun sources => ?_
  refine (whereClause_reads h).then fun filter => ?_
  exact .pure (.of_eq (by simp [StatementKind.parts]) (by simp))

/-! ## Variables -/

theorem declarationKind_reads : Reads ts (declarationKind inner) fun k => .ofNodes k.parts := by
  intro start
  refine (consumeKeyword_reads _).then fun b => .ite (fun _ => ?_) fun _ => ?_
  · refine Lays.map ((tableDefinition_reads h).lays.entails (.refl _) fun definition => ?_)
    exact .of_eq (by simp [DeclarationKind.parts]) (by simp)
  refine .look fun b => .ite (fun _ => .failUnsupported) fun _ => ?_
  refine dataType_reads.then fun type => ?_
  refine (Reads.optionNode (consume_reads _) h.expression).then fun value => ?_
  exact .pure (.of_eq (by simp [DeclarationKind.parts]) (by simp))

theorem declaration_reads : Reads ts (declaration inner) fun x => .node (.declaration x) := by
  refine Reads.spanned (f := fun x => ⟨true, .ident x.1 :: x.2.parts⟩) (fun start => ?_)
    (fun _ _ => rfl) fun _ _ => .refl _
  refine variableName_reads.then fun name => (consumeKeyword_reads _).then fun _ => ?_
  refine (declarationKind_reads h).then fun kind => .pure (.of_eq (by simp) (by simp))

theorem declarations_reads : Reads ts (declarations inner) fun k => ⟨true, k.parts⟩ := by
  intro start
  refine (expectKeyword_reads _).then fun _ => ?_
  refine Lays.map ((Reads.commaNodes (declaration_reads h)).lays.entails (.refl _) fun xs => ?_)
  exact .of_eq (by simp [StatementKind.parts]) (by simp)

theorem setVariable_reads : Reads ts (setVariable inner) fun k => ⟨true, k.parts⟩ := by
  intro start
  refine variableName_reads.then fun name => assignmentMark_reads.then fun op => h.expression.then fun value => ?_
  exact .pure (.of_eq (by simp [StatementKind.parts]) (by simp))

theorem setStatement_reads : Reads ts (setStatement inner) fun k => ⟨true, k.parts⟩ := by
  intro start
  refine (expectKeyword_reads _).then fun _ => .look fun b => .ite (fun _ => ?_) fun _ => ?_
  · exact (setVariable_reads h).lays.entails (.refl _) fun _ => .of_eq rfl (by simp)
  · exact setOption_reads.lays.entails (.refl _) fun _ => .of_eq rfl (by simp)

/-! ## Control flow -/

theorem elsePart_reads : Reads ts (elsePart inner) fun s? => .ofNodes (s?.toList.map .statement) := by
  intro start pos pos' s? hL hp
  have hmark : Reads ts (do
      repeatWhile (consume .semicolon)
      consumeKeyword .ELSE : Parser Bool) fun _ => .none := fun start =>
    (Reads.repeatWhile (consume_reads _)).then fun _ =>
      (consumeKeyword_reads _).lays.entails (.refl _) fun _ => .of_eq rfl (by simp)
  unfold elsePart at hp
  split at hp
  · cases hp
  · rename_i after hafter
    have hfits := hmark start _ _ _ hL hafter
    split at hp
    · cases hp
    · rename_i s mid hs
      cases hp
      exact (h.statement.lays _ _ _ hfits hs).entails (.of_eq rfl (by simp))
  · -- semicolons before something else than `ELSE` are not read
    cases hp
    exact hL.entails (.of_eq rfl (by simp))

theorem conditional_reads : Reads ts (conditional inner) fun k => ⟨true, k.parts⟩ := by
  intro start
  refine (expectKeyword_reads _).then fun _ => h.expression.then fun condition => ?_
  refine h.statement.then fun consequent => (elsePart_reads h).then fun alternative => ?_
  exact .pure (.of_eq (by simp [StatementKind.parts]) (by simp))

theorem loop_reads : Reads ts (loop inner) fun k => ⟨true, k.parts⟩ := by
  intro start
  refine skip_reads.then fun _ => h.expression.then fun condition => h.statement.then fun body => ?_
  exact .pure (.of_eq (by simp [StatementKind.parts]) (by simp))

theorem tryCatch_reads : Reads ts (tryCatch inner) fun k => ⟨true, k.parts⟩ := by
  intro start
  refine (statementList_reads h true).then fun attempt => (expectKeyword_reads _).then fun _ => ?_
  refine (expectWord_reads _).then fun _ => (expectKeyword_reads _).then fun _ => ?_
  refine (expectWord_reads _).then fun _ => (statementList_reads h true).then fun handler => ?_
  refine (expectKeyword_reads _).then fun _ => (expectWord_reads _).then fun _ => ?_
  exact .pure (.of_eq (by simp [StatementKind.parts]) (by simp))

theorem block_reads : Reads ts (block inner) fun k => ⟨true, k.parts⟩ := by
  intro start
  refine (expectKeyword_reads _).then fun _ => (statementList_reads h true).then fun statements => ?_
  exact (expectKeyword_reads _).then fun _ => .pure (.of_eq (by simp [StatementKind.parts]) (by simp))

theorem begins_reads : ReadsHere ts (begins inner) fun k => ⟨true, k.parts⟩ := by
  refine .look fun b => .ite (.skipTwo fun start => ?_) (.look fun b => .ite (.skipTwo fun start => ?_) ?_)
  · refine Lays.map (transactionName_reads.lays.entails (.refl _) fun name => ?_)
    exact .of_eq (by simp [StatementKind.parts]) (by simp)
  · exact (tryCatch_reads h).lays.entails (.refl _) fun _ => .of_eq rfl (by simp)
  · exact .look fun b => .ite Reads.failUnsupported.here (block_reads h).here

theorem returning_reads : ReadsHere ts (returning inner) fun k => ⟨true, k.parts⟩ := by
  refine .skip fun start => Lays.map ?_
  refine (Reads.optionNode .look h.expression).lays.entails (.refl _) fun value => ?_
  exact .of_eq (by simp [StatementKind.parts]) (by simp)

theorem print_reads : Reads ts (print inner) fun k => ⟨true, k.parts⟩ := by
  intro start
  refine skip_reads.then fun _ => Lays.map (h.expression.lays.entails (.refl _) fun value => ?_)
  exact .of_eq (by simp [StatementKind.parts]) (by simp)

omit h in
theorem unmodelled_reads (t : Token) {rest : Parser Unit} (hrest : Reads ts rest fun _ => .none) :
    ReadsHere ts (unmodelled t rest) fun k => ⟨true, k.parts⟩ :=
  .skip fun _ => hrest.then fun _ => .pure (.of_eq rfl (by simp))

/-! ## Statements -/

omit h in
theorem asStatement_reads {κ : Type} {p : Parser κ} {make : κ → StatementKind}
    (hp : Reads ts p fun x => ⟨true, (make x).parts⟩) : Reads ts (make <$> p) fun k => ⟨true, k.parts⟩ :=
  hp.map (g := fun k : StatementKind => ⟨true, k.parts⟩)

theorem statementKind_reads (t : Token) : ReadsHere ts (statementKind inner t) fun k => ⟨true, k.parts⟩ := by
  have hselect : Reads ts (StatementKind.select <$> inner.query) fun k => ⟨true, k.parts⟩ :=
    asStatement_reads h.query
  have hexecution : Reads ts (StatementKind.execution <$> execution inner) fun k => ⟨true, k.parts⟩ :=
    asStatement_reads (execution_reads h)
  have hword : ∀ k : StatementKind, k.parts = [] → ReadsHere ts (do
      skip
      pure k) fun k => ⟨true, k.parts⟩ :=
    fun k hk => .skip fun _ => .pure (.of_eq (by simp [hk]) (by simp))
  unfold statementKind
  split
  · exact hselect.here
  · exact hselect.here
  · exact hselect.here
  · exact Reads.here (asStatement_reads (insertion_reads h))
  · exact Reads.here (asStatement_reads (update_reads h))
  · exact Reads.here (asStatement_reads (deletion_reads h))
  · exact (create_reads h).here
  · exact (alter_reads h).here
  · exact drop_reads.here
  · exact truncation_reads.here
  · exact hexecution.here
  · exact hexecution.here
  · exact (declarations_reads h).here
  · exact (setStatement_reads h).here
  · exact (conditional_reads h).here
  · exact (loop_reads h).here
  · exact begins_reads h
  · exact transactionEnd_reads _
  · exact transactionEnd_reads _
  · exact returning_reads h
  · exact (print_reads h).here
  · exact hword _ rfl
  · exact hword _ rfl
  · exact unmodelled_reads t (skipUntil_reads _)
  · exact unmodelled_reads t (skipUntil_reads _)
  · exact unmodelled_reads t (skipUntil_reads _)
  · exact unmodelled_reads t (skipUntil_reads _)
  · exact unmodelled_reads t (skipUntil_reads _)
  · split
    · exact unmodelled_reads t (skipUntil_reads _)
    · exact Reads.failUnsupported.here
  · exact Reads.failUnsupported.here

theorem statement_reads : Reads ts (statement inner) fun x => .node (.statement x) :=
  Reads.spanned (.current (statementKind_reads h) .failExpected) (fun _ _ => rfl) fun _ _ => .refl _

/-- A statement stands at all that was read for it. -/
theorem statement_stands {pos pos' : Nat} {x : Statement} (hpos : pos ≤ ts.size)
    (hx : statement inner ts pos = .ok (x, pos')) : Stands ts (.statement x) pos pos' ∧ pos' ≤ ts.size := by
  apply Reads.stands_spanned (n := .statement) (f := fun k => ⟨true, k.parts⟩) _ (fun _ _ => rfl) _ hpos hx
  · exact .current (statementKind_reads h) .failExpected
  · exact fun _ _ => .refl _

end

end TransactLint.Grammar
