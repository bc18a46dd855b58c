import TransactLint.Grammar.Definition
import TransactLint.Proofs.Progress.Query

/-!
# Progress in definitions

Every storage option, every option of a column or a reference, and every constraint that is found has read a
terminal.
-/

namespace TransactLint.Grammar

open TransactLint.Parser

variable {ts : Terminals} {R : FaithfulRepetition ts} {base pos : Nat} {inner inner' : Level}

theorem notForReplication_agrees : Agrees ts base notForReplication notForReplication id :=
  .whether (consumePair_agrees _ _) ((expectWord_agrees _).bind fun _ => .pure rfl) (.pure rfl)

theorem clusteredOption_agrees : Agrees ts base clusteredOption clusteredOption fun _ => false := by
  apply Agrees.whether (consumeKeyword_agrees _) (.pure rfl)
  exact .whether (consumeKeyword_agrees _) (.pure rfl) (.pure rfl)

/-! ## Storage options -/

theorem storageOption_agrees : Agrees ts base storageOption (@storageOption R) id := by
  refine .look fun _ => .ite ?_ ?_
  · exact skip_agrees.bind fun _ => skipParenthesized_agrees.then fun _ => .pure rfl
  refine .look fun _ => .ite ?_ ?_
  · exact skipTwo_agrees.bind fun _ => (expect_agrees _).then fun _ => skip_agrees.bind fun _ => .pure rfl
  refine .look fun _ => .ite ?_ ?_
  · refine skip_agrees.bind fun _ => anyIdent_agrees.then fun _ => .look fun _ => .ite ?_ (.pure rfl)
    exact skipParenthesized_agrees.bind fun _ => .pure rfl
  · exact .look fun _ => .ite (skip_agrees.bind fun _ => anyIdent_agrees.then fun _ => .pure rfl) (.pure rfl)

theorem storageOptions_agrees : Agrees ts base storageOptions (@storageOptions R) fun _ => false :=
  .repeatWhile storageOption_agrees

/-! ## Indexes -/

theorem indexColumn_agrees {owed : IndexColumn → Bool} : Agrees ts base indexColumn indexColumn owed :=
  .spanned (ident_agrees.then fun _ => sortDirection_agrees.bind fun _ => .pure rfl)

theorem indexColumns_agrees {owed : List IndexColumn → Bool} :
    Agrees ts base indexColumns (@indexColumns R) owed := by
  refine (expect_agrees _).then fun _ => (Agrees.commaSeparated indexColumn_agrees).bind fun columns => ?_
  exact (expect_agrees _).bind fun _ => .pure rfl

section
variable (hinner : inner.Agrees ts (base + 1) inner')
include hinner

theorem indexBody_agrees : Agrees ts base (indexBody inner) (@indexBody R inner') fun _ => false := by
  refine .bind (.listLook indexColumns_agrees) fun columns => ?_
  refine .bind (.listIf (consumeWord_agrees _) identList_agrees) fun included => ?_
  refine .bind (.optionIf (consumeKeyword_agrees _) hinner.expression.free rfl) fun filter => ?_
  exact storageOptions_agrees.bind fun _ => .pure rfl

theorem indexDefinition_agrees {owed : IndexDefinition → Bool} :
    Agrees ts base (indexDefinition inner) (@indexDefinition R inner') owed := by
  refine .look fun start => (expectKeyword_agrees _).then fun _ => ident_agrees.bind fun name => ?_
  refine (consumeKeyword_agrees _).free.bind fun unique => clusteredOption_agrees.bind fun clustered => ?_
  refine (consumeWord_agrees _).free.bind fun columnstore => (indexBody_agrees hinner).later.bind fun x => ?_
  exact .look fun span => .pure rfl

/-! ## Constraints -/

omit hinner in
theorem uniqueBody_agrees (primaryKey : Bool) :
    Agrees ts base (uniqueBody primaryKey) (@uniqueBody R primaryKey) fun _ => false := by
  refine clusteredOption_agrees.bind fun clustered => (consumeWord_agrees _).free.bind fun _ => ?_
  exact .bind (.listLook indexColumns_agrees) fun columns => storageOptions_agrees.bind fun _ => .pure rfl

omit hinner in
theorem referentialAction_agrees {owed : Unit → Bool} :
    Agrees ts base referentialAction referentialAction owed := by
  apply Agrees.whether (consumeKeyword_agrees _) (.pure rfl)
  apply Agrees.whether (consumeWord_agrees _) (expectWord_agrees _)
  refine (expectKeyword_agrees _).then fun _ => ?_
  exact .whether (consumeKeyword_agrees _) (.pure rfl) (expectKeyword_agrees _)

omit hinner in
theorem referenceOption_agrees : Agrees ts base referenceOption referenceOption id := by
  refine .look fun _ => .ite ?_ notForReplication_agrees
  exact skipTwo_agrees.bind fun _ => referentialAction_agrees.then fun _ => .pure rfl

omit hinner in
theorem references_agrees (columns : List Ident) {owed : ConstraintKind → Bool} :
    Agrees ts base (references columns) (@references R columns) owed := by
  refine (expectKeyword_agrees _).then fun _ => objectName_agrees.bind fun target => ?_
  refine .bind (.listLook identList_agrees) fun targetColumns => ?_
  exact (Agrees.repeatWhile referenceOption_agrees).bind fun _ => .pure rfl

theorem checkBody_agrees {owed : ConstraintKind → Bool} :
    Agrees ts base (checkBody inner) (checkBody inner') owed := by
  refine notForReplication_agrees.free.bind fun _ => (expect_agrees _).then fun _ => ?_
  exact hinner.expression.free.bind fun condition => (expect_agrees _).bind fun _ => .pure rfl

omit hinner in
theorem defaultBody_agrees (hinner : inner.Agrees ts base inner') {owed : ConstraintKind → Bool} :
    Agrees ts base (defaultBody inner) (defaultBody inner') owed := by
  refine hinner.expression.then fun value => ?_
  exact .bind (.optionIf (consumeKeyword_agrees _) ident_agrees rfl) fun column => .pure rfl

theorem constraintKind_agrees : Agrees ts base (constraintKind inner) (@constraintKind R inner') Option.isSome := by
  have hunique : ∀ primaryKey,
      Agrees ts (base + 1) (some <$> uniqueBody primaryKey) (some <$> @uniqueBody R primaryKey)
      fun _ => false :=
    fun primaryKey => (uniqueBody_agrees primaryKey).bind fun _ => .pure rfl
  apply Agrees.whether (consumeKeyword_agrees _) ((expectKeyword_agrees _).bind fun _ => hunique _)
  apply Agrees.whether (consumeKeyword_agrees _) (hunique _)
  apply Agrees.whether (consumeKeyword_agrees _)
  · refine (expectKeyword_agrees _).bind fun _ => identList_agrees.bind fun columns => ?_
    exact (references_agrees columns).map
  refine .look fun _ => .ite (references_agrees []).map ?_
  apply Agrees.whether (consumeKeyword_agrees _) (checkBody_agrees hinner).later.map
  exact .whether (consumeKeyword_agrees _) (defaultBody_agrees hinner).map (.pure rfl)

theorem constraint_agrees : Agrees ts base (constraint inner) (@constraint R inner') Option.isSome := by
  refine .look fun start => .bind (.optionIf (consumeKeyword_agrees _) ident_agrees rfl) fun name => ?_
  apply Agrees.found (constraintKind_agrees hinner)
  · exact fun kind => .look fun span => .pure rfl
  · exact .ite .failExpected (.pure rfl)

/-! ## Columns -/

omit hinner in
theorem ignoredColumnWord_agrees : Agrees ts base ignoredColumnWord ignoredColumnWord id := by
  apply Agrees.whether (consumeKeyword_agrees _) (.pure rfl)
  apply Agrees.whether (consumeWord_agrees _) (.pure rfl)
  exact .whether (consumeWord_agrees _) (.pure rfl) (consumeWord_agrees _)

theorem columnOption_agrees (found : ColumnOptions) :
    Agrees ts base (columnOption inner found) (@columnOption R inner' found) Option.isSome := by
  apply Agrees.whether (consumeKeyword_agrees _) (.pure rfl)
  apply Agrees.whether (consumePair_agrees _ _) (.pure rfl)
  apply Agrees.whether notForReplication_agrees (.pure rfl)
  apply Agrees.whether (consumeKeyword_agrees _)
  · exact .look fun _ => .ite (skipParenthesized_agrees.bind fun _ => .pure rfl) (.pure rfl)
  apply Agrees.whether (consumeKeyword_agrees _) (ident_agrees.bind fun _ => .pure rfl)
  apply Agrees.whether ignoredColumnWord_agrees (.pure rfl)
  refine .look fun _ => .ite ((indexDefinition_agrees hinner).then fun _ => .pure rfl) ?_
  exact .found (constraint_agrees hinner) (fun c => .pure rfl) (.pure rfl)

theorem columnType_agrees {owed : Option DataType × Option Expr → Bool} :
    Agrees ts base (columnType inner) (@columnType R inner') owed := by
  apply Agrees.whether (consumeKeyword_agrees _) _ (dataType_agrees.then fun _ => .pure rfl)
  exact hinner.expression.free.bind fun expr => (consumeWord_agrees _).free.bind fun _ => .pure rfl

theorem columnDefinition_agrees {owed : ColumnDefinition → Bool} :
    Agrees ts base (columnDefinition inner) (@columnDefinition R inner') owed := by
  refine .look fun start => ident_agrees.then fun name => (columnType_agrees hinner).later.bind fun x => ?_
  refine .bind (.iterate (fun found => (columnOption_agrees hinner found).later) _) fun options => ?_
  exact .look fun span => .pure rfl

/-! ## Tables -/

theorem tableElement_agrees {owed : TableElement → Bool} :
    Agrees ts base (tableElement inner) (@tableElement R inner') owed := by
  refine .look fun _ => .ite (indexDefinition_agrees hinner).map ?_
  exact .found (constraint_agrees hinner) (fun c => .pure rfl) (columnDefinition_agrees hinner).map

theorem tableElements_agrees {owed : List TableElement → Bool} :
    Agrees ts base (tableElements inner) (@tableElements R inner') owed :=
  .commaSeparated (tableElement_agrees hinner)

theorem tableDefinition_agrees {owed : TableDefinition → Bool} :
    Agrees ts base (tableDefinition inner) (@tableDefinition R inner') owed := by
  apply Agrees.spanned
  refine (expect_agrees _).then fun _ => (tableElements_agrees hinner).later.bind fun elements => ?_
  exact (expect_agrees _).bind fun _ => .pure rfl

theorem createTable_agrees {owed : StatementKind → Bool} :
    Agrees ts base (createTable inner) (@createTable R inner') owed := by
  refine (expectKeyword_agrees _).then fun _ => objectName_agrees.bind fun name => ?_
  refine (tableDefinition_agrees hinner).later.bind fun definition => ?_
  exact storageOptions_agrees.bind fun _ => .pure rfl

theorem alterAction_agrees : Agrees ts base (alterAction inner) (@alterAction R inner') fun _ => false := by
  apply Agrees.whether (consumeKeyword_agrees _)
  · exact Agrees.map (.spanned (tableElements_agrees hinner).later)
  · exact skip_agrees.bind fun _ => (skipUntil_agrees _).bind fun _ => .pure rfl

theorem alterTable_agrees {owed : StatementKind → Bool} :
    Agrees ts base (alterTable inner) (@alterTable R inner') owed := by
  have haction : ∀ name : ObjectName, Agrees ts (base + 1) (do
      let action ← alterAction inner
      pure (StatementKind.alterTable name action)) (do
      let action ← @alterAction R inner'
      pure (StatementKind.alterTable name action)) fun _ => false :=
    fun name => (alterAction_agrees hinner).later.bind fun action => .pure rfl
  refine (expectKeyword_agrees _).then fun _ => objectName_agrees.bind fun name => .look fun _ => ?_
  exact .ite (skipTwo_agrees.bind fun _ => haction name) (haction name)

theorem createIndex_agrees {owed : StatementKind → Bool} :
    Agrees ts base (createIndex inner) (@createIndex R inner') owed := by
  refine (consumeKeyword_agrees _).free.bind fun unique => clusteredOption_agrees.bind fun clustered => ?_
  refine (consumeWord_agrees _).free.bind fun columnstore => (expectKeyword_agrees _).then fun _ => ?_
  refine ident_agrees.bind fun name => (expectKeyword_agrees _).bind fun _ => objectName_agrees.bind fun table => ?_
  exact (indexBody_agrees hinner).later.bind fun x => .pure rfl

/-! ## Views -/

theorem createView_agrees (mode : CreateMode) {owed : StatementKind → Bool} :
    Agrees ts base (createView inner mode) (@createView R inner' mode) owed := by
  refine (expectKeyword_agrees _).then fun _ => objectName_agrees.bind fun name => ?_
  refine .bind (.listLook identList_agrees) fun columns => ?_
  refine .bind (.listIf (consumeKeyword_agrees _) (.commaSeparated anyIdent_agrees)) fun _ => ?_
  refine (expectKeyword_agrees _).bind fun _ => hinner.query.free.bind fun query => .look
    fun _ => .ite ?_ (.pure rfl)
  exact skipTwo_agrees.bind fun _ => (expectKeyword_agrees _).bind fun _ => .pure rfl

/-! ## Procedures -/

omit hinner in
theorem parameterMarks_agrees : Agrees ts base parameterMarks (@parameterMarks R) fun _ => false := by
  refine .iterate (fun marks => ?_) _
  apply Agrees.whether outputMark_agrees (.pure rfl)
  exact .whether (consumeWord_agrees _) (.pure rfl) (.pure rfl)

theorem parameter_agrees {owed : Parameter → Bool} :
    Agrees ts base (parameter inner) (@parameter R inner') owed := by
  refine .look fun start => variableName_agrees.then fun name => (consumeKeyword_agrees _).free.bind fun _ => ?_
  refine dataType_agrees.bind fun type => (consumeWord_agrees _).free.bind fun _ => ?_
  refine .bind (.optionIf (consume_agrees _) hinner.expression.later.free rfl) fun initial => ?_
  exact parameterMarks_agrees.bind fun marks => .look fun span => .pure rfl

omit hinner in
theorem procedureOption_agrees {owed : Unit → Bool} : Agrees ts base procedureOption procedureOption owed := by
  have hname : Agrees ts base (do
      let _ ← anyIdent
      pure ()) (do
      let _ ← anyIdent
      pure ()) owed :=
    anyIdent_agrees.then fun _ => .pure rfl
  refine .look fun _ => .ite ?_ hname
  exact skip_agrees.bind fun _ => (expectKeyword_agrees _).then fun _ => hname.later.free

end

/-- The levels agree from `base` on, and so do the statements nested in them. -/
structure Level.AgreesWhole (ts : Terminals) (base : Nat) (inner inner' : Level) : Prop extends
    inner.Agrees ts base inner' where
  statement : Parser.Agrees ts base inner.statement inner'.statement fun _ => true

theorem Level.AgreesWhole.later (h : inner.AgreesWhole ts base inner') : inner.AgreesWhole ts (base + 1) inner' :=
  ⟨h.toAgrees.later, h.statement.later⟩

theorem statementList_agrees (hinner : inner.AgreesWhole ts base inner') (inBlock : Bool) :
    Agrees ts base (statementList inner inBlock) (@statementList R inner' inBlock) fun _ => false := by
  apply Agrees.many
  refine (Agrees.repeatWhile (consume_agrees _)).bind fun _ => .look fun stop => ?_
  exact .optionPure hinner.statement rfl

section
variable (hinner : inner.AgreesWhole ts (base + 1) inner')
include hinner

/-- The body of a procedure is read after its name. -/
theorem createProcedure_agrees (mode : CreateMode) {owed : StatementKind → Bool} :
    Agrees ts base (createProcedure inner mode) (@createProcedure R inner' mode) owed := by
  have hbody : ∀ (name : ObjectName) (parameters : List Parameter), Agrees ts (base + 1) (do
      expectKeyword .AS
      let body ← statementList inner false
      pure (StatementKind.createProcedure mode name parameters body)) (do
      expectKeyword .AS
      let body ← @statementList R inner' false
      pure (StatementKind.createProcedure mode name parameters body)) fun _ => false :=
    fun _ _ => (expectKeyword_agrees _).bind fun _ => (statementList_agrees hinner false).bind fun _ => .pure rfl
  have hoptions : ∀ (name : ObjectName) (parameters : List Parameter), Agrees ts (base + 1) (do
      let _ ← listIf (consumeKeyword .WITH) (commaSeparated procedureOption)
      if ← atKeywordWord .FOR "REPLICATION" then skipTwo
      expectKeyword .AS
      let body ← statementList inner false
      pure (StatementKind.createProcedure mode name parameters body)) (do
      let _ ← listIf (consumeKeyword .WITH) (@commaSeparated _ R procedureOption)
      if ← atKeywordWord .FOR "REPLICATION" then skipTwo
      expectKeyword .AS
      let body ← @statementList R inner' false
      pure (StatementKind.createProcedure mode name parameters body)) fun _ => false := by
    intro name parameters
    refine .bind (.listIf (consumeKeyword_agrees _) (.commaSeparated procedureOption_agrees)) fun _ => ?_
    exact .look fun _ => .ite (skipTwo_agrees.bind fun _ => hbody _ _) (hbody _ _)
  refine skip_agrees.bind fun _ => objectName_agrees.then fun name => ?_
  refine (consume_agrees _).free.bind fun parenthesized => ?_
  refine .bind (.listLook (.commaSeparated (parameter_agrees hinner.toAgrees).later)) fun parameters => ?_
  exact .ite ((expect_agrees _).bind fun _ => hoptions _ _) (hoptions _ _)

/-! ## Statements that define -/

theorem createOrAlter_agrees (mode : CreateMode) (t : Token) {owed : StatementKind → Bool} :
    Agrees ts base (createOrAlter inner mode t) (@createOrAlter R inner' mode t) owed := by
  unfold createOrAlter
  split
  · exact createView_agrees hinner.toAgrees mode
  · exact createProcedure_agrees hinner mode
  · exact createProcedure_agrees hinner mode
  · exact .failUnsupported

theorem createPlain_agrees (t : Token) {owed : StatementKind → Bool} :
    Agrees ts base (createPlain inner t) (@createPlain R inner' t) owed := by
  unfold createPlain
  split
  · exact createTable_agrees hinner.toAgrees
  · exact createIndex_agrees hinner.toAgrees
  · exact createIndex_agrees hinner.toAgrees
  · exact createIndex_agrees hinner.toAgrees
  · exact createIndex_agrees hinner.toAgrees
  · exact createView_agrees hinner.toAgrees .create
  · exact createProcedure_agrees hinner .create
  · exact createProcedure_agrees hinner .create
  · exact .ite (createIndex_agrees hinner.toAgrees) .failUnsupported
  · exact .failUnsupported

theorem create_agrees {owed : StatementKind → Bool} : Agrees ts base (create inner) (@create R inner') owed := by
  refine (expectKeyword_agrees _).then fun _ => (consumePair_agrees _ _).free.bind fun orAlter => .look fun t? => ?_
  cases t? with
  | none => exact .failExpected
  | some t => exact .ite (createOrAlter_agrees hinner _ t).later (createPlain_agrees hinner t).later

theorem alter_agrees {owed : StatementKind → Bool} : Agrees ts base (alter inner) (@alter R inner') owed := by
  refine (expectKeyword_agrees _).then fun _ => .look fun t? => ?_
  cases t? with
  | none => exact .failExpected
  | some t => exact .ite (alterTable_agrees hinner.toAgrees).later (createOrAlter_agrees hinner _ t).later

omit hinner in
theorem drop_agrees {owed : StatementKind → Bool} : Agrees ts base drop (@drop R) owed := by
  refine (expectKeyword_agrees _).then fun _ => anyIdent_agrees.bind fun objectType => ?_
  refine (consumePair_agrees _ _).free.bind fun ifExists => .bind (.commaSeparated objectName_agrees)
    fun names => ?_
  exact .bind (.optionIf (consumeKeyword_agrees _) objectName_agrees rfl) fun table => .pure rfl

end

end TransactLint.Grammar
