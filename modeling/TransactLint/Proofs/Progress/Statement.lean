import TransactLint.Grammar.Script
import TransactLint.Proofs.Progress.Definition

/-!
# Progress in statements

A statement reads its first word before anything nested in it, except that a query is a statement, which begins
where the query does.
-/

namespace TransactLint.Grammar

open TransactLint.Parser

variable {ts : Terminals} {R : FaithfulRepetition ts} {base pos : Nat} {inner inner' : Level}

/-! ## Changes to rows -/

theorem assignmentMark_agrees {owed : Option BinaryOperator → Bool} :
    Agrees ts base assignmentMark assignmentMark owed := by
  have hmark : ∀ op : Option BinaryOperator, Agrees ts base (do
      expect .eq
      pure op) (do
      expect .eq
      pure op) owed :=
    fun op => (expect_agrees _).then fun _ => .pure rfl
  exact .look fun op => .ite (skip_agrees.bind fun _ => hmark op) (hmark op)

section
variable (hinner : inner.Agrees ts (base + 1) inner')
include hinner

theorem valuesRow_agrees {owed : List Expr → Bool} :
    Agrees ts base (valuesRow inner) (@valuesRow R inner') owed := by
  refine (expect_agrees _).then fun _ => (expressionList_agrees hinner).bind fun row => ?_
  exact (expect_agrees _).bind fun _ => .pure rfl

theorem insertSource_agrees :
    Agrees ts (base + 1) (insertSource inner) (@insertSource R inner') fun _ => false := by
  apply Agrees.whether (consumeKeyword_agrees _)
  · exact Agrees.map (.commaSeparated (valuesRow_agrees hinner).later.later)
  apply Agrees.whether (consumePair_agrees _ _) (.pure rfl)
  apply Agrees.ifLook
  · intro pos hbase hexecute
    have hlt : pos < ts.size := by
      rcases Bool.or_eq_true_iff.mp hexecute with h | h
      · exact isKind_lt h
      · exact isKind_lt h
    exact (execution_agreesAt hinner.later hbase hlt).then fun _ => .pure rfl
  · exact .look fun _ => .ite hinner.query.map .failExpected

theorem insertion_agrees {owed : Insertion → Bool} :
    Agrees ts base (insertion inner) (@insertion R inner') owed := by
  refine (expectKeyword_agrees _).then fun _ => (optionalTop_agrees hinner).later.bind fun top => ?_
  refine (consumeKeyword_agrees _).free.bind fun _ => objectName_agrees.bind fun target => ?_
  exact .bind (.listLook identList_agrees) fun columns => (insertSource_agrees hinner).bind fun source => .pure rfl

theorem assignment_agrees {owed : Assignment → Bool} :
    Agrees ts base (assignment inner) (@assignment R inner') owed := by
  apply Agrees.spanned
  refine (primary_agrees hinner).then fun target => assignmentMark_agrees.bind fun _ => ?_
  exact hinner.expression.free.bind fun value => .pure rfl

/-- What follows the tables that a statement changes. -/
theorem fromClause_agrees : Agrees ts base (listIf (consumeKeyword .FROM) (tableSources inner))
    (listIf (consumeKeyword .FROM) (@tableSources R inner')) fun _ => false :=
  .listIf (consumeKeyword_agrees _) (tableSources_agrees hinner).later

theorem update_agrees {owed : Update → Bool} : Agrees ts base (update inner) (@update R inner') owed := by
  refine (expectKeyword_agrees _).then fun _ => (optionalTop_agrees hinner).later.bind fun top => ?_
  refine (tableFactor_agrees hinner).later.free.bind fun target => (expectKeyword_agrees _).bind fun _ => ?_
  refine .bind (.commaSeparated (assignment_agrees hinner).later) fun assignments => ?_
  refine (fromClause_agrees hinner).later.bind fun sources => ?_
  exact (whereClause_agrees hinner).later.bind fun filter => .pure rfl

theorem deletion_agrees {owed : Deletion → Bool} : Agrees ts base (deletion inner) (@deletion R inner') owed := by
  refine (expectKeyword_agrees _).then fun _ => (optionalTop_agrees hinner).later.bind fun top => ?_
  refine (consumeKeyword_agrees _).free.bind fun _ => (tableFactor_agrees hinner).later.free.bind fun target => ?_
  refine (fromClause_agrees hinner).later.bind fun sources => ?_
  exact (whereClause_agrees hinner).later.bind fun filter => .pure rfl

omit hinner in
theorem truncation_agrees {owed : StatementKind → Bool} : Agrees ts base truncation (@truncation R) owed :=
  skip_agrees.bind fun _ => (expectKeyword_agrees _).then fun _ => objectName_agrees.map

/-! ## Variables and options -/

theorem declarationKind_agrees {owed : DeclarationKind → Bool} :
    Agrees ts base (declarationKind inner) (@declarationKind R inner') owed := by
  apply Agrees.whether (consumeKeyword_agrees _) (tableDefinition_agrees hinner).later.map
  refine .look fun _ => .ite .failUnsupported (dataType_agrees.then fun type => ?_)
  exact .bind (.optionIf (consume_agrees _) hinner.expression.later.free rfl) fun value => .pure rfl

theorem declaration_agrees {owed : Declaration → Bool} :
    Agrees ts base (declaration inner) (@declaration R inner') owed := by
  apply Agrees.spanned
  refine variableName_agrees.then fun name => (consumeKeyword_agrees _).free.bind fun _ => ?_
  exact (declarationKind_agrees hinner).later.bind fun kind => .pure rfl

theorem declarations_agrees {owed : StatementKind → Bool} :
    Agrees ts base (declarations inner) (@declarations R inner') owed :=
  (expectKeyword_agrees _).then fun _ => Agrees.map (.commaSeparated (declaration_agrees hinner).later)

theorem setVariable_agrees {owed : StatementKind → Bool} :
    Agrees ts base (setVariable inner) (setVariable inner') owed := by
  refine variableName_agrees.then fun name => assignmentMark_agrees.bind fun op => ?_
  exact hinner.expression.free.bind fun value => .pure rfl

omit hinner in
/-- The next word, value or mark of an option is read if there is one. -/
theorem optionStep_agrees (found : OptionWords) :
    Agrees ts base (optionStep found) (optionStep found) Option.isSome := by
  intro pos hbase h
  apply AgreesAt.look
  cases found.value with
  | some value => exact .pure h rfl
  | none =>
    cases ht : ts.token? pos with
    | none => exact .pure h rfl
    | some t =>
      have hlt : pos < ts.size := token?_isSome (by simp [ht])
      have hword : ∀ next : Ident → OptionWords, AgreesAt ts pos (do
          let word ← anyIdent
          pure (some (next word))) (do
          let word ← anyIdent
          pure (some (next word))) Option.isSome :=
        fun next => (anyIdent_agrees.here h).then fun _ => .pure rfl
      refine .ite (fun _ => hword _) fun _ => .ite (fun _ => ?_) fun _ => ?_
      · exact (skip_agreesAt hlt).then fun _ => .pure rfl
      · exact .look (.ite (fun _ => hword _) fun _ => .pure h rfl)

omit hinner in
theorem setOption_agrees : Agrees ts base setOption (@setOption R) fun _ => false :=
  (Agrees.iterate optionStep_agrees _).bind fun _ => .ite .failExpected (.pure rfl)

theorem setStatement_agrees {owed : StatementKind → Bool} :
    Agrees ts base (setStatement inner) (@setStatement R inner') owed :=
  (expectKeyword_agrees _).then fun _ => .look fun _ => .ite (setVariable_agrees hinner).later setOption_agrees

end

/-! ## Control flow -/

/-- Where no `ELSE` follows, the position is where it was before the semicolons. -/
theorem elsePart_agrees (hinner : inner.AgreesWhole ts base inner') :
    Agrees ts base (elsePart inner) (@elsePart R inner') Option.isSome := by
  intro pos hbase h
  have hmark : Agrees ts base (do
      repeatWhile (consume .semicolon)
      consumeKeyword .ELSE) (do
      @repeatWhile R (consume .semicolon)
      consumeKeyword .ELSE) id :=
    (Agrees.repeatWhile (consume_agrees _)).bind fun _ => consumeKeyword_agrees _
  obtain ⟨hsame, hadvances⟩ := hmark pos hbase h
  unfold elsePart
  refine ⟨?_, ?_⟩
  · simp only [hsame]
    split
    · rfl
    · rename_i after hread
      obtain ⟨hle, hsize, -⟩ := hadvances _ _ hread
      rw [(hinner.statement after (by omega) hsize).same]
    · rfl
  · intro a pos' ha
    split at ha
    · cases ha
    · rename_i after hread
      obtain ⟨hle, hsize, -⟩ := hadvances _ _ hread
      split at ha
      · cases ha
      · rename_i x last hx
        obtain ⟨-, hsize', hlt⟩ := (hinner.statement after (by omega) hsize).advances x last hx
        have := hlt rfl
        cases ha
        exact ⟨by omega, hsize', fun _ => by omega⟩
    · cases ha
      exact ⟨Nat.le_refl _, h, nofun⟩

theorem transactionName_agrees : Agrees ts base transactionName transactionName fun _ => false :=
  .optionLook anyIdent_agrees rfl

theorem transactionWord_agrees : Agrees ts base transactionWord transactionWord id := by
  apply Agrees.whether (consumeKeyword_agrees _) (.pure rfl)
  exact .whether (consumeKeyword_agrees _) (.pure rfl) (consumeWord_agrees _)

section
variable (hinner : inner.AgreesWhole ts (base + 1) inner')
include hinner

theorem conditional_agrees {owed : StatementKind → Bool} :
    Agrees ts base (conditional inner) (@conditional R inner') owed := by
  refine (expectKeyword_agrees _).then fun _ => hinner.expression.free.bind fun condition => ?_
  refine hinner.statement.free.bind fun consequent => (elsePart_agrees hinner).free.bind
    fun alternative => .pure rfl

theorem tryCatch_agrees : Agrees ts (base + 1) (tryCatch inner) (@tryCatch R inner') fun _ => false := by
  refine (statementList_agrees hinner true).bind fun attempt => (expectKeyword_agrees _).bind fun _ => ?_
  refine (expectWord_agrees _).bind fun _ => (expectKeyword_agrees _).bind fun _ =>
    (expectWord_agrees _).bind fun _ => ?_
  refine (statementList_agrees hinner true).bind fun handler => (expectKeyword_agrees _).bind fun _ => ?_
  exact (expectWord_agrees _).bind fun _ => .pure rfl

theorem block_agrees {owed : StatementKind → Bool} : Agrees ts base (block inner) (@block R inner') owed := by
  refine (expectKeyword_agrees _).then fun _ => (statementList_agrees hinner true).bind fun statements => ?_
  exact (expectKeyword_agrees _).bind fun _ => .pure rfl

theorem begins_agrees {owed : StatementKind → Bool} : Agrees ts base (begins inner) (@begins R inner') owed := by
  apply Agrees.ifLook
  · intro pos _ htransaction
    have hlt : pos + 1 < ts.size := by
      rcases Bool.or_eq_true_iff.mp htransaction with h | h
      · exact isKind_lt h
      · exact isKind_lt h
    exact (skipTwo_agreesAt hlt).then fun _ => transactionName_agrees.bind fun _ => .pure rfl
  apply Agrees.ifLook
  · intro pos hbase htry
    apply (skipTwo_agreesAt (isWord_lt htry)).then
    exact fun _ => (tryCatch_agrees hinner).mono (Nat.succ_le_succ hbase)
  · exact .look fun _ => .ite .failUnsupported (block_agrees hinner)

end

/-! ## Statements -/

/-- What comes after the first word of a statement, which is there. -/
theorem unmodelled_agreesAt (h : pos < ts.size) (t : Token) {rest rest' : Parser Unit}
    (hrest : Agrees ts (pos + 1) rest rest' fun _ => false) {owed : StatementKind → Bool} :
    AgreesAt ts pos (unmodelled t rest) (unmodelled t rest') owed :=
  (skip_agreesAt h).then fun _ => hrest.bind fun _ => .pure rfl

section
variable (hinner : inner.AgreesWhole ts (base + 1) inner')
include hinner

theorem loop_agreesAt (hbase : base ≤ pos) (h : pos < ts.size) {owed : StatementKind → Bool} :
    AgreesAt ts pos (loop inner) (loop inner') owed := by
  apply AgreesAt.skip h hbase
  exact hinner.expression.then fun condition => hinner.statement.later.free.bind fun body => .pure rfl

theorem returning_agreesAt (hbase : base ≤ pos) (h : pos < ts.size) {owed : StatementKind → Bool} :
    AgreesAt ts pos (returning inner) (returning inner') owed := by
  apply (skip_agreesAt h).then
  intro _
  apply Agrees.mono _ (Nat.succ_le_succ hbase)
  exact Agrees.bind (.optionLook hinner.expression rfl) fun value => .pure rfl

theorem print_agreesAt (hbase : base ≤ pos) (h : pos < ts.size) {owed : StatementKind → Bool} :
    AgreesAt ts pos (print inner) (print inner') owed :=
  .skip h hbase hinner.expression.map

omit hinner in
theorem transactionEnd_agreesAt (h : pos < ts.size) (kind : TransactionKind) {owed : StatementKind → Bool} :
    AgreesAt ts pos (transactionEnd kind) (transactionEnd kind) owed := by
  apply (skip_agreesAt h).then
  exact fun _ => .whether transactionWord_agrees (transactionName_agrees.bind fun _ => .pure rfl) (.pure rfl)

theorem statementKind_agreesAt (hquery : Agrees ts base inner.query inner'.query fun _ => true)
    (hbase : base ≤ pos) (h : pos < ts.size) (t : Token) {owed : StatementKind → Bool} :
    AgreesAt ts pos (statementKind inner t) (@statementKind R inner' t) owed := by
  have hle := Nat.le_of_lt h
  have hselect : AgreesAt ts pos (StatementKind.select <$> inner.query) (StatementKind.select <$> inner'.query)
      owed :=
    hquery.map pos hbase hle
  have hexecution : AgreesAt ts pos (StatementKind.execution <$> execution inner)
      (StatementKind.execution <$> @execution R inner') owed :=
    (execution_agreesAt hinner.toAgrees hbase h).then fun _ => .pure rfl
  have hskipped : AgreesAt ts pos (unmodelled t skipStatement) (unmodelled t (@skipStatement R)) owed :=
    unmodelled_agreesAt h t (skipUntil_agrees _)
  unfold statementKind
  split
  · exact hselect
  · exact hselect
  · exact hselect
  · exact (insertion_agrees hinner.toAgrees).map pos hbase hle
  · exact (update_agrees hinner.toAgrees).map pos hbase hle
  · exact (deletion_agrees hinner.toAgrees).map pos hbase hle
  · exact create_agrees hinner pos hbase hle
  · exact alter_agrees hinner pos hbase hle
  · exact drop_agrees.here hle
  · exact truncation_agrees.here hle
  · exact hexecution
  · exact hexecution
  · exact declarations_agrees hinner.toAgrees pos hbase hle
  · exact setStatement_agrees hinner.toAgrees pos hbase hle
  · exact conditional_agrees hinner pos hbase hle
  · exact loop_agreesAt hinner hbase h
  · exact begins_agrees hinner pos hbase hle
  · exact transactionEnd_agreesAt h _
  · exact transactionEnd_agreesAt h _
  · exact returning_agreesAt hinner hbase h
  · exact print_agreesAt hinner hbase h
  · exact (skip_agreesAt h).then fun _ => .pure rfl
  · exact (skip_agreesAt h).then fun _ => .pure rfl
  · exact unmodelled_agreesAt h t (skipUntil_agrees _)
  · exact hskipped
  · exact hskipped
  · exact hskipped
  · exact hskipped
  · exact .ite (fun _ => hskipped) fun _ => Agrees.failUnsupported.here hle
  · exact Agrees.failUnsupported.here hle

theorem statement_agrees (hquery : Agrees ts base inner.query inner'.query fun _ => true)
    {owed : Statement → Bool} :
    Agrees ts base (statement inner) (@statement R inner') owed :=
  .spanned (.current (fun _ t hbase hlt => statementKind_agreesAt hinner hquery hbase hlt t) .failExpected)

end

end TransactLint.Grammar
