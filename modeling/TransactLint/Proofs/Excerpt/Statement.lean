import TransactLint.Proofs.Excerpt.Definition

/-!
# Statements of a closed excerpt
-/

namespace TransactLint.Grammar

open TransactLint.Parser

variable {ts ts' : Terminals} {ρ : Excerpt ts ts'} {base limit pos : Nat}

/-! ## Changes to rows -/

theorem atColumnList_persists (h : pos ≤ ts.size) : atColumnList ts' (pos + ρ.shift) = atColumnList ts pos := by
  simp only [atColumnList, Bool.and_assoc]
  refine and_eq_and (ρ.isKind_eq h (by decide)) fun hparen => ?_
  have hlt := isKind_lt hparen
  rw [nextIsKeyword_eq hlt, nextIsKeyword_eq hlt]

theorem compound_inside (h : pos < ts.size) :
    (if ts'.isKind (pos + ρ.shift + 1) .eq then (ts'.token? (pos + ρ.shift)).bind fun t => compoundOperator t.kind
      else none) =
    if ts.isKind (pos + 1) .eq then (ts.token? pos).bind fun t => compoundOperator t.kind else none := by
  rw [nextIs_eq h (by decide), ρ.token?_eq h]

theorem assignmentMark_persists {owed : Option BinaryOperator → Bool} :
    Persists ρ base limit assignmentMark assignmentMark owed := by
  have hmark : ∀ op : Option BinaryOperator, ∀ base, Persists ρ base limit (do
      expect .eq
      pure op) (do
      expect .eq
      pure op) fun _ => true :=
    fun op _ => (expect_persists _).then fun _ => .pure rfl
  exact .lookInside (fun _ _ h => compound_inside h) fun op => .ite (.skip (hmark op _)) (hmark op _)

variable (hρ : ρ.Closed) {inner : Level} (hinner : inner.Continues ρ)
include hρ hinner

omit hρ in
theorem valuesRow_persists {owed : List Expr → Bool} :
    Persists ρ base limit (valuesRow inner) (valuesRow inner) owed := by
  refine (expect_persists _).then fun _ => (expressionList_persists hinner.toPersists).bind fun row => ?_
  exact (expect_persists _).bind fun _ => .pure rfl

theorem insertSource_persists {owed : InsertSource → Bool} :
    Persists ρ base limit (insertSource inner) (insertSource inner) owed := by
  refine .whether (consumeKeyword_persists _) ?_ ?_
  · exact Persists.map (.commaSeparated fun _ => valuesRow_persists hinner)
  refine .whether (consumePair_persists (by simp) (by simp)) (.pure rfl) ?_
  refine .ifLook (fun pos _ h => ?_) (fun pos _ h => ?_) ?_
  · rw [ρ.isKeyword_eq h, ρ.isKeyword_eq h]
  · have hlt : pos < ts.size := (Bool.or_eq_true_iff.mp h).elim isKind_lt isKind_lt
    exact (execution_persistsAt hρ hinner hlt).then fun _ => .pure rfl
  exact .look (fun _ _ h => ρ.startsQuery_eq h) fun _ => .ite (hinner.query _ limit).map .failExpected

theorem insertion_persists {owed : Insertion → Bool} :
    Persists ρ base limit (insertion inner) (insertion inner) owed := by
  refine (expectKeyword_persists _).then fun _ => (optionalTop_persists hinner.toPersists).bind fun top => ?_
  refine (consumeKeyword_persists _).free.bind fun _ => objectName_persists.bind fun target => ?_
  refine .bind (.listLook (fun _ _ h => atColumnList_persists h) identList_persists) fun columns => ?_
  exact (insertSource_persists hρ hinner).bind fun source => .pure rfl

section
omit hρ

theorem assignment_persists {owed : Assignment → Bool} :
    Persists ρ base limit (assignment inner) (assignment inner) owed := by
  refine .spanned ((primary_persists hinner.toPersists).then fun target => assignmentMark_persists.bind fun _ => ?_)
  exact (hinner.expression _ limit).free.bind fun value => .pure rfl

theorem fromClause_persists :
    Persists ρ base limit (listIf (consumeKeyword .FROM) (tableSources inner))
      (listIf (consumeKeyword .FROM) (tableSources inner)) fun _ => false :=
  .listIf (consumeKeyword_persists _) (tableSources_persists hinner.toPersists)

theorem update_persists {owed : Update → Bool} : Persists ρ base limit (update inner) (update inner) owed := by
  refine (expectKeyword_persists _).then fun _ => (optionalTop_persists hinner.toPersists).bind fun top => ?_
  refine (tableFactor_persists hinner.toPersists).bind fun target => (expectKeyword_persists _).bind fun _ => ?_
  refine .bind (.commaSeparated fun _ => assignment_persists hinner) fun assignments => ?_
  exact (fromClause_persists hinner).bind fun sources =>
    (whereClause_persists hinner.toPersists).bind fun filter => .pure rfl

theorem deletion_persists {owed : Deletion → Bool} :
    Persists ρ base limit (deletion inner) (deletion inner) owed := by
  refine (expectKeyword_persists _).then fun _ => (optionalTop_persists hinner.toPersists).bind fun top => ?_
  refine (consumeKeyword_persists _).free.bind fun _ => (tableFactor_persists hinner.toPersists).bind
    fun target => ?_
  exact (fromClause_persists hinner).bind fun sources =>
    (whereClause_persists hinner.toPersists).bind fun filter => .pure rfl

omit hinner in
theorem truncation_persists {owed : StatementKind → Bool} : Persists ρ base limit truncation truncation owed :=
  .skip ((expectKeyword_persists _).then fun _ => objectName_persists.map)

end

/-! ## Variables and options -/

theorem declarationKind_persists {owed : DeclarationKind → Bool} :
    Persists ρ base limit (declarationKind inner) (declarationKind inner) owed := by
  refine .whether (consumeKeyword_persists _) (tableDefinition_persists hρ hinner.toPersists).map ?_
  refine .look (fun _ _ h => ρ.isKeyword_eq h _) fun _ =>
    .ite .failUnsupported (dataType_persists.then fun type => ?_)
  exact .bind (.optionIf (consume_persists (by decide)) (hinner.expression _ limit).free rfl) fun value => .pure rfl

theorem declaration_persists {owed : Declaration → Bool} :
    Persists ρ base limit (declaration inner) (declaration inner) owed := by
  refine .spanned (variableName_persists.then fun name => (consumeKeyword_persists _).free.bind fun _ => ?_)
  exact (declarationKind_persists hρ hinner).bind fun kind => .pure rfl

theorem declarations_persists {owed : StatementKind → Bool} :
    Persists ρ base limit (declarations inner) (declarations inner) owed :=
  (expectKeyword_persists _).then fun _ => Persists.map (.commaSeparated fun _ => declaration_persists hρ hinner)

omit hρ in
theorem setVariable_persists {owed : StatementKind → Bool} :
    Persists ρ base limit (setVariable inner) (setVariable inner) owed := by
  refine variableName_persists.then fun name => assignmentMark_persists.bind fun op => ?_
  exact (hinner.expression _ limit).free.bind fun value => .pure rfl

omit hinner in
/-- The separator ends the words of an option as the end does. -/
theorem optionStep_persists (found : OptionWords) :
    Persists ρ base limit (optionStep found) (optionStep found) Option.isSome := by
  obtain ⟨words, value?⟩ := found
  intro pos _ h
  rcases Nat.lt_or_eq_of_le h with hlt | rfl
  · obtain ⟨t, ht⟩ : ∃ t, ts.token? pos = some t := by simp [Terminals.token?, hlt]
    refine .look (ρ.token?_eq hlt) ?_
    rw [ht]
    cases value? with
    | some value => exact .pure h rfl
    | none =>
      refine .ite (fun _ => (anyIdent_persists.here h).then fun _ => .pure rfl) fun _ => ?_
      refine .ite (fun _ => (skip_persistsAt hlt).then fun _ => .pure rfl) fun _ => ?_
      refine .look (by rw [hρ.atBoundary_eq h]) (.ite (fun _ => ?_) fun _ => .pure h rfl)
      exact (anyIdent_persists.here h).then fun _ => .pure rfl
  · -- the words end with the excerpt, and before the separator in the longer text
    intro pos' next hnext
    have hstop : optionStep ⟨words, value?⟩ ts ts.size = .ok (none, ts.size) := by
      rw [optionStep, current, bind_look, Terminals.token?_of_le (Nat.le_refl _)]
      cases value? <;> rfl
    cases hnext.symm.trans hstop
    refine ⟨h, h, fun howed => absurd howed Bool.false_ne_true, fun _ => ?_⟩
    obtain ⟨t, ht, hkind, _⟩ := Terminals.isSeparator_token hρ.separator
    have hboundary : atBoundary ts' (ts.size + ρ.shift) = true := by
      rw [hρ.atBoundary_eq h]
      simp [atBoundary]
    rw [optionStep, current, bind_look, ht]
    cases value? with
    | some value => rfl
    | none =>
      simp only [hkind]
      rw [if_neg (by decide), if_neg (by decide), bind_look, hboundary]
      rfl

omit hinner in
theorem setOption_persists : Persists ρ base limit setOption setOption fun _ => false :=
  (Persists.iterate (optionStep_persists hρ) _).bind fun _ => .ite .failExpected (.pure rfl)

theorem setStatement_persists {owed : StatementKind → Bool} :
    Persists ρ base limit (setStatement inner) (setStatement inner) owed := by
  refine (expectKeyword_persists _).then fun _ => .look (fun _ _ h => ρ.isKind_eq h (by decide)) fun _ => ?_
  exact .ite (setVariable_persists hinner) (setOption_persists hρ)

/-! ## Control flow -/

omit hρ in
/-- Where `ELSE` does not follow, the semicolons before it are given back, however far they go. -/
theorem elsePart_persists : Persists ρ base limit (elsePart inner) (elsePart inner) fun _ => false := by
  intro pos hbase h pos' alternative halternative
  have hmark : PersistsAt ρ ts.size pos (do
      repeatWhile (consume .semicolon)
      consumeKeyword .ELSE) (do
      repeatWhile (consume .semicolon)
      consumeKeyword .ELSE) fun _ => false :=
    ((Persists.repeatWhile (consume_persists (by decide))).bind fun _ => (consumeKeyword_persists _).free).here h
  unfold elsePart at halternative ⊢
  -- the mark is read even where it is given back, so it has to be the same in both texts
  generalize (do
      repeatWhile (consume .semicolon)
      consumeKeyword .ELSE : Parser Bool) = mark at *
  cases hfound : mark ts pos with
  | error e => simp [hfound] at halternative
  | ok r =>
    obtain ⟨found, after⟩ := r
    have first := hmark after found hfound
    have hsame := first.same first.size
    have hle := first.le
    cases found with
    | false =>
      simp only [hfound] at halternative
      cases halternative
      exact ⟨Nat.le_refl _, h, nofun, fun _ => by simp only [hsame]⟩
    | true =>
      simp only [hfound] at halternative
      cases hstatement : inner.statement ts after with
      | error e => simp [hstatement] at halternative
      | ok r =>
        obtain ⟨statement, last⟩ := r
        simp only [hstatement] at halternative
        cases halternative
        have second := hinner.statement after limit after (Nat.le_refl _) first.size _ _ hstatement
        have hle' := second.le
        exact ⟨by omega, second.size, nofun, fun hlimit => by simp only [hsame, second.same hlimit]⟩

omit hρ in
theorem ifStatement_persists {owed : StatementKind → Bool} :
    Persists ρ base limit (conditional inner) (conditional inner) owed := by
  refine (expectKeyword_persists _).then fun _ => (hinner.expression _ limit).free.bind fun condition => ?_
  refine (hinner.statement _ limit).free.bind fun consequent => ?_
  exact (elsePart_persists hinner).bind fun alternative => .pure rfl

omit hρ in
theorem loop_persistsAt (h : pos < ts.size) {owed : StatementKind → Bool} :
    PersistsAt ρ limit pos (loop inner) (loop inner) owed := by
  refine (skip_persistsAt h).then fun _ => (hinner.expression _ limit).free.bind fun condition => ?_
  exact (hinner.statement _ limit).free.bind fun body => .pure rfl

section
omit hinner

theorem atTransactionName_persists (h : pos ≤ ts.size) :
    atTransactionName ts' (pos + ρ.shift) = atTransactionName ts pos := by
  have hvariable : ts'.isKind (pos + ρ.shift) .localVariable = ts.isKind pos .localVariable :=
    ρ.isKind_eq h (by decide)
  rw [atTransactionName, atTransactionName, hvariable, hρ.name_eq h]

theorem transactionName_persists : Persists ρ base limit transactionName transactionName fun _ => false :=
  .optionLook (fun _ _ h => atTransactionName_persists hρ h) anyIdent_persists rfl

omit hρ in
theorem transactionWord_persists : Persists ρ base limit transactionWord transactionWord id := by
  refine .whether (consumeKeyword_persists _) (.pure rfl) ?_
  exact .whether (consumeKeyword_persists _) (.pure rfl) (consumeWord_persists (by decide))

theorem transactionEnd_persistsAt (h : pos < ts.size) (kind : TransactionKind) {owed : StatementKind → Bool} :
    PersistsAt ρ limit pos (transactionEnd kind) (transactionEnd kind) owed := by
  refine (skip_persistsAt h).then fun _ => .whether transactionWord_persists ?_ (.pure rfl)
  exact (transactionName_persists hρ).bind fun _ => .pure rfl

end

theorem tryCatch_persists : Persists ρ base limit (tryCatch inner) (tryCatch inner) fun _ => false := by
  refine (statementList_persists hρ hinner true).bind fun attempt => (expectKeyword_persists _).bind fun _ => ?_
  refine (expectWord_persists _).bind fun _ => (expectKeyword_persists _).bind fun _ => ?_
  refine (expectWord_persists _).bind fun _ => (statementList_persists hρ hinner true).bind fun handler => ?_
  exact (expectKeyword_persists _).bind fun _ => (expectWord_persists _).bind fun _ => .pure rfl

theorem block_persists {owed : StatementKind → Bool} :
    Persists ρ base limit (block inner) (block inner) owed := by
  refine (expectKeyword_persists _).then fun _ => (statementList_persists hρ hinner true).bind fun statements => ?_
  exact (expectKeyword_persists _).bind fun _ => .pure rfl

theorem begins_persistsAt (h : pos < ts.size) {owed : StatementKind → Bool} :
    PersistsAt ρ limit pos (begins inner) (begins inner) owed := by
  refine .look (by rw [nextIsKeyword_eq h, nextIsKeyword_eq h]) (.ite (fun hword => ?_) fun _ => ?_)
  · have hlt : pos + 1 < ts.size := (Bool.or_eq_true_iff.mp hword).elim isKind_lt isKind_lt
    exact (skipTwo_persistsAt hlt).then fun _ => (transactionName_persists hρ).bind fun _ => .pure rfl
  refine .look (nextIsWord_eq h (by decide)) (.ite (fun hword => ?_) fun _ => ?_)
  · exact (skipTwo_persistsAt (isWord_lt hword)).then fun _ => tryCatch_persists hρ hinner
  refine .look (nextIsWord_eq h (by decide)) (.ite (fun _ => ?_) fun _ => ?_)
  · exact Persists.failUnsupported.here (Nat.le_of_lt h)
  · exact (block_persists hρ hinner).here (Nat.le_of_lt h)

omit hinner in
theorem atReturnValue_persists (h : pos ≤ ts.size) :
    atReturnValue ts' (pos + ρ.shift) = atReturnValue ts pos := by
  rcases Nat.lt_or_eq_of_le h with hlt | rfl
  · rw [atReturnValue, atReturnValue, ρ.token?_eq hlt, hρ.onSameLine_eq hlt, hρ.isSeparator_eq hlt]
  · obtain ⟨t, ht, hkind, _⟩ := Terminals.isSeparator_token hρ.separator
    simp [atReturnValue, ht, hkind, hρ.separator, Terminals.token?_of_le (Nat.le_refl _)]

theorem returning_persistsAt (h : pos < ts.size) {owed : StatementKind → Bool} :
    PersistsAt ρ limit pos (returning inner) (returning inner) owed := by
  refine (skip_persistsAt h).then fun _ => .bind (.optionLook (fun _ _ h => atReturnValue_persists hρ h) ?_ rfl)
    fun _ => .pure rfl
  exact hinner.expression _ limit

omit hρ in
theorem print_persistsAt (h : pos < ts.size) {owed : StatementKind → Bool} :
    PersistsAt ρ limit pos (print inner) (print inner) owed :=
  (skip_persistsAt h).then fun _ => (hinner.expression _ limit).map

omit hρ hinner in
theorem unmodelled_persistsAt (h : pos < ts.size) (t : Token) {rest : Parser Unit} {owed : StatementKind → Bool}
    (hrest : ∀ base, Persists ρ base limit rest rest fun _ => false) :
    PersistsAt ρ limit pos (unmodelled t rest) (unmodelled t rest) owed :=
  (skip_persistsAt h).then fun _ => (hrest _).bind fun _ => .pure rfl

/-! ## Statements -/

theorem statementKind_persistsAt (h : pos < ts.size) (t : Token) {owed : StatementKind → Bool} :
    PersistsAt ρ limit pos (statementKind inner t) (statementKind inner t) owed := by
  have hle := Nat.le_of_lt h
  have hselect : PersistsAt ρ limit pos (StatementKind.select <$> inner.query)
      (StatementKind.select <$> inner.query) owed :=
    (hinner.query _ limit).map.here hle
  have hexecution : PersistsAt ρ limit pos (StatementKind.execution <$> execution inner)
      (StatementKind.execution <$> execution inner) owed :=
    (execution_persistsAt hρ hinner h).then fun _ => .pure rfl
  have hskipped : PersistsAt ρ limit pos (unmodelled t skipStatement) (unmodelled t skipStatement) owed :=
    unmodelled_persistsAt h t fun _ => skipStatement_persists hρ
  unfold statementKind
  split
  · exact hselect
  · exact hselect
  · exact hselect
  · exact (insertion_persists hρ hinner).map.here hle
  · exact (update_persists hinner).map.here hle
  · exact (deletion_persists hinner).map.here hle
  · exact (create_persists hρ hinner).here hle
  · exact (alter_persists hρ hinner).here hle
  · exact drop_persists.here hle
  · exact truncation_persists.here hle
  · exact hexecution
  · exact hexecution
  · exact (declarations_persists hρ hinner).here hle
  · exact (setStatement_persists hρ hinner).here hle
  · exact (ifStatement_persists hinner).here hle
  · exact loop_persistsAt hinner h
  · exact begins_persistsAt hρ hinner h
  · exact transactionEnd_persistsAt hρ h _
  · exact transactionEnd_persistsAt hρ h _
  · exact returning_persistsAt hρ hinner h
  · exact print_persistsAt hinner h
  · exact (skip_persistsAt h).then fun _ => .pure rfl
  · exact (skip_persistsAt h).then fun _ => .pure rfl
  · exact unmodelled_persistsAt h t fun _ => skipToTerminator_persists hρ
  · exact hskipped
  · exact hskipped
  · exact hskipped
  · exact hskipped
  · exact .ite (fun _ => hskipped) fun _ => Persists.failUnsupported.here hle
  · exact Persists.failUnsupported.here hle

theorem statement_persists {owed : Statement → Bool} :
    Persists ρ base limit (statement inner) (statement inner) owed := by
  refine .spanned (.current (fun pos t _ ht => ?_) fun _ _ => failExpected_ne_ok)
  exact statementKind_persistsAt hρ hinner (token?_isSome (by rw [ht]; rfl)) t

omit hinner in
theorem level_continues : ∀ n, (level n).Continues ρ
  | 0 => ⟨level_persists (Nat.le_refl _), fun _ _ => .failTooDeep⟩
  | n + 1 => ⟨level_persists (Nat.le_refl _), fun _ _ => statement_persists hρ (level_continues n)⟩

end TransactLint.Grammar
