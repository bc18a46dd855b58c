import TransactLint.Grammar.Definition
import TransactLint.Proofs.Relocation.Query
import TransactLint.Proofs.Relocation.TableDefinition

/-!
# `EXECUTE`, `CREATE`, `ALTER` and `DROP` at other places
-/

namespace TransactLint.Grammar

open TransactLint.Parser

variable {ts ts' : Terminals} {ρ : Relocation ts ts'} {inner : Level} (h : inner.Mirrors ρ)

/-! ## `EXECUTE` -/

theorem atArgument_eq (pos : Nat) : atArgument ts' (pos + ρ.shift) = atArgument ts pos := by
  unfold atArgument
  cases ht : ts.token? pos with
  | none => rw [ρ.token?_none ht]
  | some t =>
    obtain ⟨t', ht', halike⟩ := ρ.token ht
    simp only [ht', halike.kind, ρ.onSameLine, ρ.isSeparator]

theorem variableBeforeEq_mirrors : Mirrors ρ variableBeforeEq variableBeforeEq := by
  refine .optionIf (.test fun pos => by simp) (variableName_mirrors.bind fun name => ?_)
  exact skip_mirrors.bind fun _ => .pure rfl

theorem outputMark_mirrors : Mirrors ρ outputMark outputMark :=
  (consumeWord_mirrors _).bind fun _ => .ite (.pure rfl) (consumeWord_mirrors _)

section
include h

theorem argument_mirrors : Mirrors ρ (argument inner) (argument inner) := by
  refine .spanned (variableBeforeEq_mirrors.bind fun name => h.expression.bind fun value => ?_) fun _ _ => rfl
  exact outputMark_mirrors.bind fun output => .pure rfl

theorem execution_mirrors : Mirrors ρ (execution inner) (execution inner) := by
  refine skip_mirrors.bind fun _ => (consume_mirrors _).bind fun _ => .ite ?_ ?_
  · exact h.expression.bind fun text => (expect_mirrors _).bind fun _ => .pure rfl
  refine variableBeforeEq_mirrors.bind fun returnVariable => objectName_mirrors.bind fun name => ?_
  refine .bind (.listIf (.test atArgument_eq) (argument_mirrors h).commaSeparated) fun arguments => ?_
  refine .look (fun pos => by simp) fun _ => .ite ?_ (.pure rfl)
  exact skipTwo_mirrors.bind fun _ => .pure rfl

end

/-! ## Where a statement ends -/

theorem atStatementStart_eq (pos : Nat) : atStatementStart ts' (pos + ρ.shift) = atStatementStart ts pos := by
  have hword : ts'.isKeyword (pos + ρ.shift) = ts.isKeyword pos := funext (ρ.isKeyword pos)
  simp only [atStatementStart, hword, ρ.isSeparator]

theorem atBoundary_eq (pos : Nat) : atBoundary ts' (pos + ρ.shift) = atBoundary ts pos := by
  simp only [atBoundary, ρ.size_le, ρ.isKind, ρ.isKeyword, atStatementStart_eq]

theorem skipStatement_mirrors : Mirrors ρ skipStatement skipStatement :=
  skipUntil_mirrors atBoundary_eq

theorem skipToTerminator_mirrors : Mirrors ρ skipToTerminator skipToTerminator :=
  skipUntil_mirrors fun pos => by simp only [ρ.isKind, ρ.isSeparator]

section
include h

theorem statementList_mirrors (inBlock : Bool) :
    Mirrors ρ (statementList inner inBlock) (statementList inner inBlock) := by
  refine .many ((consume_mirrors _).repeatWhile.bind fun _ => ?_)
  refine .look (fun pos => ?_) fun stop => .optionIf (.pure rfl) h.statement
  simp only [ρ.size_le, ρ.isSeparator, ρ.isKeyword]

/-! ## Tables and indexes -/

theorem createTable_mirrors : Mirrors ρ (createTable inner) (createTable inner) := by
  refine (expectKeyword_mirrors _).bind fun _ => objectName_mirrors.bind fun name => ?_
  refine (tableDefinition_mirrors h).bind fun definition => ?_
  exact storageOptions_mirrors.bind fun _ => .pure rfl

theorem alterAction_mirrors : Mirrors ρ (alterAction inner) (alterAction inner) := by
  refine (consumeKeyword_mirrors _).bind fun _ => .ite ?_ ?_
  · exact (Mirrors.spanned (tableElements_mirrors h) definitionOf_relocate).map fun _ => rfl
  · exact skip_mirrors.bind fun _ => skipStatement_mirrors.bind fun _ => .pure rfl

theorem alterTable_mirrors : Mirrors ρ (alterTable inner) (alterTable inner) := by
  refine (expectKeyword_mirrors _).bind fun _ => objectName_mirrors.bind fun name => ?_
  refine .look (fun pos => by simp [atCheckOption]) fun _ => .ite (skipTwo_mirrors.bind fun _ => ?_) ?_
  all_goals exact (alterAction_mirrors h).bind fun action => .pure rfl

theorem createIndex_mirrors : Mirrors ρ (createIndex inner) (createIndex inner) := by
  refine (consumeKeyword_mirrors _).bind fun unique => clusteredOption_mirrors.bind fun clustered => ?_
  rw [mapSpans_flag]
  refine (consumeWord_mirrors _).bind fun columnstore => (expectKeyword_mirrors _).bind fun _ => ?_
  refine ident_mirrors.bind fun name => (expectKeyword_mirrors _).bind fun _ => ?_
  exact objectName_mirrors.bind fun table => (indexBody_mirrors h).bind fun x => .pure rfl

/-! ## Views and procedures -/

theorem createView_mirrors (mode : CreateMode) : Mirrors ρ (createView inner mode) (createView inner mode) := by
  refine (expectKeyword_mirrors _).bind fun _ => objectName_mirrors.bind fun name => ?_
  refine .bind (.listIf (.test fun pos => ρ.isKind pos _) identList_mirrors) fun columns => ?_
  refine .bind (.listIf (consumeKeyword_mirrors _) anyIdent_mirrors.commaSeparated) fun _ => ?_
  refine (expectKeyword_mirrors _).bind fun _ => h.query.bind fun query => ?_
  refine .look (fun pos => by simp [atCheckSuffix]) fun _ => .ite ?_ (.pure rfl)
  exact skipTwo_mirrors.bind fun _ => (expectKeyword_mirrors _).bind fun _ => .pure rfl

omit h in
theorem parameterMarks_mirrors : Mirrors ρ parameterMarks parameterMarks := by
  refine .iterate (fun marks => ?_) (false, false)
  refine outputMark_mirrors.bind fun _ => .ite (.pure rfl) ?_
  exact (consumeWord_mirrors _).bind fun _ => .ite (.pure rfl) (.pure rfl)

theorem parameter_mirrors : Mirrors ρ (parameter inner) (parameter inner) := by
  refine .position fun start => variableName_mirrors.bind fun name => ?_
  refine (consumeKeyword_mirrors _).bind fun _ => dataType_mirrors.bind fun type => ?_
  refine (consumeWord_mirrors _).bind fun _ => ?_
  refine .bind (.optionIf (consume_mirrors _) h.expression) fun initial => ?_
  refine parameterMarks_mirrors.bind fun marks => ?_
  exact (Mirrors.spanFrom start).bind fun span => .pure rfl

omit h in
theorem procedureOption_mirrors : Mirrors ρ procedureOption procedureOption := by
  refine .look (fun pos => by simp) fun _ => .ite ?_ (anyIdent_mirrors.bind fun _ => .pure rfl)
  refine skip_mirrors.bind fun _ => (expectKeyword_mirrors _).bind fun _ => ?_
  exact anyIdent_mirrors.bind fun _ => .pure rfl

theorem createProcedure_mirrors (mode : CreateMode) :
    Mirrors ρ (createProcedure inner mode) (createProcedure inner mode) := by
  refine skip_mirrors.bind fun _ => objectName_mirrors.bind fun name => ?_
  refine (consume_mirrors _).bind fun parenthesized => ?_
  refine .bind (.listIf (.test fun pos => ρ.isKind pos _) (parameter_mirrors h).commaSeparated)
    fun parameters => ?_
  refine .ite ((expect_mirrors _).bind fun _ => ?_) ?_
  all_goals
    refine .bind (.listIf (consumeKeyword_mirrors _) procedureOption_mirrors.commaSeparated) fun _ => ?_
    refine .look (fun pos => by simp) fun _ => .ite (skipTwo_mirrors.bind fun _ => ?_) ?_
  all_goals
    refine (expectKeyword_mirrors _).bind fun _ => (statementList_mirrors h false).bind fun body => .pure ?_
    simp [mapSpans, StatementKind.relocate]

/-! ## Statements -/

omit h in
theorem createPlain_alike {t t' : Token} (ht : t.Alike t') : createPlain inner t' = createPlain inner t := by
  simp only [createPlain, ht.kind, ht.isWord]

theorem createPlain_mirrors (t : Token) : Mirrors ρ (createPlain inner t) (createPlain inner t) := by
  unfold createPlain
  split
  · exact createTable_mirrors h
  · exact createIndex_mirrors h
  · exact createIndex_mirrors h
  · exact createIndex_mirrors h
  · exact createIndex_mirrors h
  · exact createView_mirrors h _
  · exact createProcedure_mirrors h _
  · exact createProcedure_mirrors h _
  · exact .ite (createIndex_mirrors h) .failUnsupported
  · exact .failUnsupported

omit h in
theorem createOrAlter_alike {t t' : Token} (ht : t.Alike t') (mode : CreateMode) :
    createOrAlter inner mode t' = createOrAlter inner mode t := by
  simp only [createOrAlter, ht.kind]

theorem createOrAlter_mirrors (mode : CreateMode) (t : Token) :
    Mirrors ρ (createOrAlter inner mode t) (createOrAlter inner mode t) := by
  unfold createOrAlter
  split
  · exact createView_mirrors h _
  · exact createProcedure_mirrors h _
  · exact createProcedure_mirrors h _
  · exact .failUnsupported

theorem create_mirrors : Mirrors ρ (create inner) (create inner) := by
  refine (expectKeyword_mirrors _).bind fun _ => (consumePair_mirrors _ _).bind fun orAlter => ?_
  refine .current (.failExpected _) fun t t' ht => ?_
  simp only [createOrAlter_alike ht, createPlain_alike ht]
  exact .ite (createOrAlter_mirrors h _ t) (createPlain_mirrors h t)

theorem alter_mirrors : Mirrors ρ (alter inner) (alter inner) := by
  refine (expectKeyword_mirrors _).bind fun _ => .current (.failExpected _) fun t t' ht => ?_
  simp only [createOrAlter_alike ht, ht.kind]
  exact .ite (alterTable_mirrors h) (createOrAlter_mirrors h _ t)

omit h in
theorem drop_mirrors : Mirrors ρ drop drop := by
  refine (expectKeyword_mirrors _).bind fun _ => anyIdent_mirrors.bind fun objectType => ?_
  refine (consumePair_mirrors _ _).bind fun ifExists => objectName_mirrors.commaSeparated.bind fun names => ?_
  exact .bind (.optionIf (consumeKeyword_mirrors _) objectName_mirrors) fun table => .pure rfl

end

end TransactLint.Grammar
