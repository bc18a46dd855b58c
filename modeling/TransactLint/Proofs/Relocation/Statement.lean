import TransactLint.Grammar.Script
import TransactLint.Proofs.Relocation.Definition

/-!
# Statements and scripts at other places
-/

namespace TransactLint.Grammar

open TransactLint.Parser

instance : HasSpans OptionWords := ⟨fun F x => ⟨mapSpans F x.words, mapSpans F x.value⟩⟩

variable {ts ts' : Terminals} {ρ : Relocation ts ts'} {inner : Level} (h : inner.Mirrors ρ)

/-! ## Changes to rows -/

theorem compound_eq (pos : Nat) :
    (if ts'.isKind (pos + ρ.shift + 1) .eq then
      (ts'.token? (pos + ρ.shift)).bind fun t => compoundOperator t.kind else none) =
    if ts.isKind (pos + 1) .eq then (ts.token? pos).bind fun t => compoundOperator t.kind else none := by
  rw [ρ.isKind_add]
  cases ht : ts.token? pos with
  | none => rw [ρ.token?_none ht]
  | some t =>
    obtain ⟨t', ht', halike⟩ := ρ.token ht
    simp only [ht', Option.bind_some, halike.kind]

theorem assignmentMark_mirrors : Mirrors ρ assignmentMark assignmentMark := by
  refine .look compound_eq fun op? => ?_
  have hop : mapSpans ρ.move op? = op? := by cases op? <;> rfl
  refine .ite (skip_mirrors.bind fun _ => ?_) ?_
  all_goals exact (expect_mirrors _).bind fun _ => .pure hop

section
include h

theorem valuesRow_mirrors : Mirrors ρ (valuesRow inner) (valuesRow inner) := by
  refine (expect_mirrors _).bind fun _ => (expressionList_mirrors h).bind fun row => ?_
  exact (expect_mirrors _).bind fun _ => .pure rfl

theorem insertSource_mirrors : Mirrors ρ (insertSource inner) (insertSource inner) := by
  refine (consumeKeyword_mirrors _).bind fun _ => .ite ?_ ?_
  · exact (valuesRow_mirrors h).commaSeparated.map fun _ => rfl
  refine (consumePair_mirrors _ _).bind fun _ => .ite (.pure rfl) ?_
  refine .look (fun pos => by simp) fun _ => .ite ((execution_mirrors h).map fun _ => rfl) ?_
  exact .look (fun pos => ρ.startsQuery pos) fun _ => .ite (h.query.map fun _ => rfl) (.failExpected _)

theorem insertion_mirrors : Mirrors ρ (insertion inner) (insertion inner) := by
  refine (expectKeyword_mirrors _).bind fun _ => (optionalTop_mirrors h).bind fun top => ?_
  refine (consumeKeyword_mirrors _).bind fun _ => objectName_mirrors.bind fun target => ?_
  refine .bind (.listIf (.test fun pos => by simp [atColumnList]) identList_mirrors) fun columns => ?_
  exact (insertSource_mirrors h).bind fun source => .pure rfl

theorem assignment_mirrors : Mirrors ρ (assignment inner) (assignment inner) := by
  refine .spanned ((primary_mirrors h).bind fun target => assignmentMark_mirrors.bind fun _ => ?_)
    fun _ _ => rfl
  exact h.expression.bind fun value => .pure rfl

theorem update_mirrors : Mirrors ρ (update inner) (update inner) := by
  refine (expectKeyword_mirrors _).bind fun _ => (optionalTop_mirrors h).bind fun top => ?_
  refine (tableFactor_mirrors h).bind fun target => (expectKeyword_mirrors _).bind fun _ => ?_
  refine (assignment_mirrors h).commaSeparated.bind fun assignments => ?_
  refine .bind (.listIf (consumeKeyword_mirrors _) (tableSources_mirrors h)) fun sources => ?_
  exact (whereClause_mirrors h).bind fun filter => .pure rfl

theorem deletion_mirrors : Mirrors ρ (deletion inner) (deletion inner) := by
  refine (expectKeyword_mirrors _).bind fun _ => (optionalTop_mirrors h).bind fun top => ?_
  refine (consumeKeyword_mirrors _).bind fun _ => (tableFactor_mirrors h).bind fun target => ?_
  refine .bind (.listIf (consumeKeyword_mirrors _) (tableSources_mirrors h)) fun sources => ?_
  exact (whereClause_mirrors h).bind fun filter => .pure rfl

omit h in
theorem truncation_mirrors : Mirrors ρ truncation truncation := by
  refine skip_mirrors.bind fun _ => (expectKeyword_mirrors _).bind fun _ => ?_
  exact objectName_mirrors.map fun _ => rfl

/-! ## Variables and options -/

theorem declarationKind_mirrors : Mirrors ρ (declarationKind inner) (declarationKind inner) := by
  refine (consumeKeyword_mirrors _).bind fun _ => .ite ((tableDefinition_mirrors h).map fun _ => rfl) ?_
  refine .look (fun pos => ρ.isKeyword pos _) fun _ => .ite .failUnsupported ?_
  refine dataType_mirrors.bind fun type => ?_
  exact .bind (.optionIf (consume_mirrors _) h.expression) fun value => .pure rfl

theorem declaration_mirrors : Mirrors ρ (declaration inner) (declaration inner) := by
  refine .spanned (variableName_mirrors.bind fun name => (consumeKeyword_mirrors _).bind fun _ => ?_)
    fun _ _ => rfl
  exact (declarationKind_mirrors h).bind fun kind => .pure rfl

theorem declarations_mirrors : Mirrors ρ (declarations inner) (declarations inner) :=
  (expectKeyword_mirrors _).bind fun _ => (declaration_mirrors h).commaSeparated.map fun _ => rfl

theorem setVariable_mirrors : Mirrors ρ (setVariable inner) (setVariable inner) := by
  refine variableName_mirrors.bind fun name => assignmentMark_mirrors.bind fun op? => ?_
  have hop : mapSpans ρ.move op? = op? := by cases op? <;> rfl
  rw [hop]
  exact h.expression.bind fun value => .pure rfl

omit h in
theorem optionStep_mirrors (found : OptionWords) :
    Mirrors ρ (optionStep found) (optionStep (mapSpans ρ.move found)) := by
  obtain ⟨words, value?⟩ := found
  cases value? with
  | some value => exact .current (.pure rfl) fun _ _ _ => .pure rfl
  | none =>
    refine .current (.pure rfl) fun t t' ht => ?_
    simp only [mapSpans, Option.map_none, ht.kind]
    refine .ite (anyIdent_mirrors.bind fun value => .pure rfl) ?_
    refine .ite (skip_mirrors.bind fun _ => .pure rfl) ?_
    refine .look (fun pos => by simp only [atBoundary_eq]) fun _ => .ite ?_ (.pure rfl)
    exact anyIdent_mirrors.bind fun word => .pure rfl

omit h in
theorem setOption_mirrors : Mirrors ρ setOption setOption := by
  refine .bind (.iterate optionStep_mirrors ⟨[], none⟩) fun found => ?_
  have hwords : (mapSpans ρ.move found).words.isEmpty = found.words.isEmpty := isEmpty_mapSpans ρ.move found.words
  rw [hwords]
  refine .ite (.failExpected _) (.pure ?_)
  simp [mapSpans, StatementKind.relocate]

theorem setStatement_mirrors : Mirrors ρ (setStatement inner) (setStatement inner) := by
  refine (expectKeyword_mirrors _).bind fun _ => .look (fun pos => ρ.isKind pos _) fun _ => ?_
  exact .ite (setVariable_mirrors h) setOption_mirrors

/-! ## Control flow -/

/-- Semicolons are given back where `ELSE` does not follow, so the two runs are compared by hand. -/
theorem elsePart_mirrors : Mirrors ρ (elsePart inner) (elsePart inner) := by
  intro pos
  have helse : Mirrors ρ (do
      repeatWhile (consume .semicolon)
      consumeKeyword .ELSE) (do
      repeatWhile (consume .semicolon)
      consumeKeyword .ELSE) :=
    (consume_mirrors _).repeatWhile.bind fun _ => consumeKeyword_mirrors _
  have hfound := helse pos
  unfold elsePart
  revert hfound
  generalize (do
      repeatWhile (consume .semicolon)
      consumeKeyword .ELSE : Parser Bool) = p
  -- only the two outcomes of the mark matter from here on
  generalize p ts pos = r, p ts' (pos + ρ.shift) = r'
  intro hfound
  cases hfound with
  | error h => exact .error h
  | ok found after =>
    cases found with
    | false => exact .ok none pos
    | true =>
      have hstatement := h.statement after
      dsimp only [mapSpans]
      generalize inner.statement ts after = s, inner.statement ts' (after + ρ.shift) = s' at hstatement
      cases hstatement with
      | ok s after => exact .ok (some s) after
      | error h => exact .error h

theorem conditional_mirrors : Mirrors ρ (conditional inner) (conditional inner) := by
  refine (expectKeyword_mirrors _).bind fun _ => h.expression.bind fun condition => ?_
  refine h.statement.bind fun consequent => (elsePart_mirrors h).bind fun alternative => .pure ?_
  simp [mapSpans, StatementKind.relocate]

theorem loop_mirrors : Mirrors ρ (loop inner) (loop inner) := by
  refine skip_mirrors.bind fun _ => h.expression.bind fun condition => ?_
  exact h.statement.bind fun body => .pure rfl

omit h in
theorem atTransactionName_eq (pos : Nat) : atTransactionName ts' (pos + ρ.shift) = atTransactionName ts pos := by
  simp only [atTransactionName, ρ.isKind, ρ.isIdentifier, ρ.onSameLine, ρ.isSeparator]

omit h in
theorem transactionName_mirrors : Mirrors ρ transactionName transactionName :=
  .optionIf (.test atTransactionName_eq) anyIdent_mirrors

omit h in
theorem transactionEnd_mirrors (kind : TransactionKind) :
    Mirrors ρ (transactionEnd kind) (transactionEnd kind) := by
  have hword : Mirrors ρ transactionWord transactionWord := by
    refine (consumeKeyword_mirrors _).bind fun _ => .ite (.pure rfl) ?_
    exact (consumeKeyword_mirrors _).bind fun _ => .ite (.pure rfl) (consumeWord_mirrors _)
  refine skip_mirrors.bind fun _ => hword.bind fun _ => .ite ?_ (.pure rfl)
  exact transactionName_mirrors.map fun _ => rfl

theorem tryCatch_mirrors : Mirrors ρ (tryCatch inner) (tryCatch inner) := by
  refine (statementList_mirrors h true).bind fun attempt => (expectKeyword_mirrors _).bind fun _ => ?_
  refine (expectWord_mirrors _).bind fun _ => (expectKeyword_mirrors _).bind fun _ => ?_
  refine (expectWord_mirrors _).bind fun _ => (statementList_mirrors h true).bind fun handler => ?_
  refine (expectKeyword_mirrors _).bind fun _ => (expectWord_mirrors _).bind fun _ => .pure ?_
  simp [mapSpans, StatementKind.relocate]

theorem block_mirrors : Mirrors ρ (block inner) (block inner) := by
  refine (expectKeyword_mirrors _).bind fun _ => (statementList_mirrors h true).bind fun statements => ?_
  refine (expectKeyword_mirrors _).bind fun _ => .pure ?_
  simp [mapSpans, StatementKind.relocate]

theorem begins_mirrors : Mirrors ρ (begins inner) (begins inner) := by
  refine .look (fun pos => by simp) fun _ => .ite ?_ ?_
  · exact skipTwo_mirrors.bind fun _ => transactionName_mirrors.map fun _ => rfl
  refine .look (fun pos => by simp) fun _ => .ite (skipTwo_mirrors.bind fun _ => tryCatch_mirrors h) ?_
  exact .look (fun pos => by simp) fun _ => .ite .failUnsupported (block_mirrors h)

omit h in
theorem atReturnValue_eq (pos : Nat) : atReturnValue ts' (pos + ρ.shift) = atReturnValue ts pos := by
  unfold atReturnValue
  cases ht : ts.token? pos with
  | none => rw [ρ.token?_none ht]
  | some t =>
    obtain ⟨t', ht', halike⟩ := ρ.token ht
    simp only [ht', halike.kind, ρ.onSameLine, ρ.isSeparator]

theorem returning_mirrors : Mirrors ρ (returning inner) (returning inner) :=
  skip_mirrors.bind fun _ => (Mirrors.optionIf (.test atReturnValue_eq) h.expression).map fun _ => rfl

theorem print_mirrors : Mirrors ρ (print inner) (print inner) :=
  skip_mirrors.bind fun _ => h.expression.map fun _ => rfl

omit h in
theorem unmodelled_mirrors (t : Token) {rest : Parser Unit} (hrest : Mirrors ρ rest rest) :
    Mirrors ρ (unmodelled t rest) (unmodelled t rest) :=
  skip_mirrors.bind fun _ => hrest.bind fun _ => .pure rfl

/-! ## Statements -/

omit h in
theorem statementKind_alike {t t' : Token} (ht : t.Alike t') : statementKind inner t' = statementKind inner t := by
  simp only [statementKind, unmodelled, ht.kind, ht.text, ht.isWord]

theorem statementKind_mirrors (t : Token) : Mirrors ρ (statementKind inner t) (statementKind inner t) := by
  unfold statementKind
  split
  · exact h.query.map fun _ => rfl
  · exact h.query.map fun _ => rfl
  · exact h.query.map fun _ => rfl
  · exact (insertion_mirrors h).map fun _ => rfl
  · exact (update_mirrors h).map fun _ => rfl
  · exact (deletion_mirrors h).map fun _ => rfl
  · exact create_mirrors h
  · exact alter_mirrors h
  · exact drop_mirrors
  · exact truncation_mirrors
  · exact (execution_mirrors h).map fun _ => rfl
  · exact (execution_mirrors h).map fun _ => rfl
  · exact declarations_mirrors h
  · exact setStatement_mirrors h
  · exact conditional_mirrors h
  · exact loop_mirrors h
  · exact begins_mirrors h
  · exact transactionEnd_mirrors _
  · exact transactionEnd_mirrors _
  · exact returning_mirrors h
  · exact print_mirrors h
  · exact skip_mirrors.bind fun _ => .pure rfl
  · exact skip_mirrors.bind fun _ => .pure rfl
  · exact unmodelled_mirrors t skipToTerminator_mirrors
  · exact unmodelled_mirrors t skipStatement_mirrors
  · exact unmodelled_mirrors t skipStatement_mirrors
  · exact unmodelled_mirrors t skipStatement_mirrors
  · exact unmodelled_mirrors t skipStatement_mirrors
  · exact .ite (unmodelled_mirrors t skipStatement_mirrors) .failUnsupported
  · exact .failUnsupported

theorem statement_mirrors : Mirrors ρ (statement inner) (statement inner) := by
  refine .spanned (.current (.failExpected _) fun t t' ht => ?_) fun _ _ => rfl
  dsimp only
  rw [statementKind_alike ht]
  exact statementKind_mirrors h t

end

/-! ## Scripts -/

theorem level_mirrors : ∀ n, (level n).Mirrors ρ
  | 0 => ⟨.failTooDeep, .failTooDeep, .failTooDeep, .failTooDeep, .failTooDeep⟩
  | n + 1 =>
    have h := level_mirrors n
    ⟨disjunction_mirrors h, negation_mirrors h, unary_mirrors h, query_mirrors h, statement_mirrors h⟩

theorem separator_mirrors : Mirrors ρ separator separator := by
  refine .look ρ.isSeparator fun _ => .ite (skip_mirrors.bind fun _ => ?_) (.pure rfl)
  refine .look (fun pos => by simp only [ρ.isKind, ρ.onSameLine]) fun _ => .ite ?_ (.pure rfl)
  exact skip_mirrors.bind fun _ => .pure rfl

theorem batch_mirrors (h : inner.Mirrors ρ) : Mirrors ρ (batch inner) (batch inner) := by
  refine .position fun start => (statementList_mirrors h false).bind fun statements => ?_
  refine (Mirrors.spanFrom start).bind fun span => .pure ?_
  rw [isEmpty_mapSpans]
  split <;> rfl

theorem script_mirrors : Mirrors ρ script script := by
  have hbatch : Mirrors ρ (batch (level nestingLimit)) (batch (level nestingLimit)) :=
    batch_mirrors (level_mirrors nestingLimit)
  refine .position fun start => hbatch.bind fun first => ?_
  refine .bind (.many (.optionIf separator_mirrors hbatch)) fun rest => ?_
  refine .look (fun pos => by simp only [ρ.size_le]) fun _ => .ite ?_ (.failExpected _)
  refine (Mirrors.spanFrom start).bind fun span => .pure ?_
  change (⟨((first :: rest).filterMap id).map (mapSpans ρ.move), ρ.move span⟩ : Script) =
    ⟨((first :: rest).map (Option.map (mapSpans ρ.move))).filterMap id, ρ.move span⟩
  rw [List.map_filterMap, List.filterMap_map]
  rfl

end TransactLint.Grammar
