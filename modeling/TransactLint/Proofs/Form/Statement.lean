import TransactLint.Proofs.Form.Query
import TransactLint.Proofs.Form.Skipped
import TransactLint.Proofs.Nesting

/-!
# The form of scripts

The parts of a statement are formed below `k + 1` if what the level inside it yields is formed below `k`.
Each level adds one, so everything in a script is formed.
-/

namespace TransactLint

def StatementKind.Formed (ts : Terminals) (k : Nat) (kind : StatementKind) : Prop :=
  ∀ c ∈ kind.parts, c.Formed ts k

namespace Grammar

open TransactLint.Parser
open TransactLint.Node (formed_of_parts formed_succ_of_parts)

variable {ts : Terminals} {inner : Level} {k : Nat} (hinner : inner.Formed ts k)
include hinner

/-! ## Table definitions -/

theorem indexBody_formed : Yields ts (indexBody inner) fun x => ∀ e ∈ x.2.2, (Node.expr e).Formed ts (k + 1) :=
  .after fun _ => .after fun _ => (Yields.optionIf hinner.operand).bind fun _ h => .after fun _ => .pure h

theorem indexDefinition_formed : Yields ts (indexDefinition inner) fun x => (Node.index x).Formed ts (k + 1) := by
  refine .after fun _ => .after fun _ => .after fun _ => .after fun _ => .after fun _ => .after fun _ => ?_
  refine (indexBody_formed hinner).bind fun x hx => .after fun span =>
    .pure (formed_of_parts trivial rfl k.succ_pos ?_)
  simp only [Node.parts, List.forall_mem_append, List.forall_mem_cons, List.forall_mem_map, Option.mem_toList]
  exact ⟨⟨⟨Node.formed_ident _, fun _ _ => Node.formed_indexColumn _⟩, fun _ _ => Node.formed_ident _⟩,
    hx⟩

theorem constraintKind_formed :
    Yields ts (constraintKind inner) fun kind? => ∀ kind ∈ kind?, ∀ c ∈ kind.parts,
      c.Formed ts (k + 1) := by
  have hsome : ∀ {p : Parser ConstraintKind},
      (Yields ts p fun kind => ∀ c ∈ kind.parts, c.Formed ts (k + 1)) →
      Yields ts (some <$> p) fun kind? => ∀ kind ∈ kind?, ∀ c ∈ kind.parts, c.Formed ts (k + 1) := by
    intro p hp
    refine .map (hp.imp fun kind h => ?_)
    rintro _ ⟨rfl⟩
    exact h
  have hunique : ∀ primaryKey, Yields ts (uniqueBody primaryKey) fun kind => ∀ c ∈ kind.parts,
      c.Formed ts (k + 1) :=
    fun _ => .after fun _ => .after fun _ => .after fun _ => .after fun _ => .pure (by simp [ConstraintKind.parts])
  have hreferences : ∀ columns, Yields ts (references columns) fun kind => ∀ c ∈ kind.parts,
      c.Formed ts (k + 1) := by
    intro columns
    refine .after fun _ => .after fun _ => .after fun _ => .after fun _ => .pure ?_
    simp [ConstraintKind.parts, or_imp, forall_and]
  refine .after fun _ => .ite (.after fun _ => hsome (hunique true)) (.after fun _ =>
    .ite (hsome (hunique false)) ?_)
  refine .after fun _ => .ite (.after fun _ => .after fun _ => hsome (hreferences _)) (.after fun _ => ?_)
  refine .ite (hsome (hreferences _)) (.after fun _ => .ite (hsome ?_) (.after fun _ => .ite (hsome ?_) (.pure ?_)))
  · refine .after fun _ => .after fun _ => hinner.operand.bind fun e he => .after fun _ => .pure ?_
    simpa [ConstraintKind.parts] using he
  · refine hinner.operand.bind fun e he => .after fun _ => .pure ?_
    simp [ConstraintKind.parts, he]
  · rintro _ ⟨⟩

theorem constraint_formed :
    Yields ts (constraint inner) fun x? => ∀ x ∈ x?, (Node.constraint x).Formed ts (k + 1) := by
  refine .after fun _ => .after fun name => (constraintKind_formed hinner).bind fun kind? hkind => ?_
  cases kind? with
  | none => exact .ite .failExpected (.pure nofun)
  | some kind =>
    refine .after fun span => .pure ?_
    rintro _ ⟨rfl⟩
    refine formed_of_parts trivial rfl k.succ_pos ?_
    simp only [Node.parts, List.forall_mem_append, List.forall_mem_map]
    exact ⟨fun _ _ => Node.formed_ident _, hkind kind rfl⟩

def ColumnOptions.Formed (ts : Terminals) (k : Nat) (found : ColumnOptions) : Prop :=
  (∀ x ∈ found.constraints, (Node.constraint x).Formed ts k) ∧ ∀ x ∈ found.index,
    (Node.index x).Formed ts k

theorem columnOption_formed {found : ColumnOptions} (hfound : found.Formed ts (k + 1)) :
    Yields ts (columnOption inner found) fun found? => ∀ found ∈ found?, found.Formed ts (k + 1) := by
  have hkeep : ∀ {found' : ColumnOptions}, found'.Formed ts (k + 1) →
      Yields ts (pure (some found')) fun found? => ∀ found ∈ found?, found.Formed ts (k + 1) := by
    intro found' h
    refine .pure ?_
    rintro _ ⟨rfl⟩
    exact h
  refine .after fun _ => .ite (hkeep hfound) (.after fun _ => .ite (hkeep hfound) (.after fun _ => ?_))
  refine .ite (hkeep hfound) (.after fun _ =>
    .ite ?_ (.after fun _ => .ite ?_ (.after fun _ => .ite (hkeep hfound) ?_)))
  · exact .after fun _ => .ite (.after fun _ => hkeep hfound) (hkeep hfound)
  · exact .after fun _ => hkeep hfound
  refine .after fun _ => .ite ?_ ?_
  · refine (indexDefinition_formed hinner).bind fun x hx => hkeep ⟨hfound.1, ?_⟩
    rintro _ ⟨rfl⟩
    exact hx
  · refine (constraint_formed hinner).bind fun x? hx => ?_
    cases x? with
    | none => exact .pure nofun
    | some x => exact hkeep ⟨List.forall_mem_cons.mpr ⟨hx x rfl, hfound.1⟩, hfound.2⟩

theorem columnDefinition_formed :
    Yields ts (columnDefinition inner) fun x => (Node.column x).Formed ts (k + 1) := by
  have htype : Yields ts (columnType inner) fun x => ∀ e ∈ x.2, (Node.expr e).Formed ts (k + 1) := by
    refine .after fun _ => .ite (hinner.operand.bind fun e he => .after fun _ => .pure ?_) (.after
      fun _ => .pure nofun)
    rintro _ ⟨rfl⟩
    exact he
  refine .after fun _ => .after fun name => htype.bind fun x hx => ?_
  refine .bind (.iterate (I := ColumnOptions.Formed ts (k + 1)) (fun _ h => columnOption_formed hinner h)
    ⟨nofun, nofun⟩)
    fun options hoptions => .after fun span => .pure (formed_of_parts trivial rfl k.succ_pos ?_)
  simp only [Node.parts, List.forall_mem_append, List.forall_mem_cons, List.forall_mem_map, Option.mem_toList,
    List.mem_reverse]
  exact ⟨⟨⟨⟨Node.formed_ident _, fun _ _ => Node.formed_dataType _⟩, hx⟩, hoptions.1⟩, hoptions.2⟩

theorem tableElements_formed : Yields ts (tableElements inner) fun l => ∀ x ∈ l, x.node.Formed ts (k + 1) := by
  refine .commaSeparated (.after fun _ => .ite (.map (indexDefinition_formed hinner)) ?_)
  refine (constraint_formed hinner).bind fun x? hx => ?_
  cases x? with
  | none => exact .map (columnDefinition_formed hinner)
  | some x => exact .pure (hx x rfl)

omit hinner in
theorem definitionOf_formed {p : Parser (List TableElement)}
    (hp : Yields ts p fun l => ∀ x ∈ l, x.node.Formed ts (k + 1))
    {n : Nat} (hproduction : spanned definitionOf p ∈ [tableDefinition (level n),
      spanned definitionOf (tableElements (level n))]) :
    Yields ts (spanned definitionOf p) fun x => (Node.tableDefinition x).Formed ts (k + 1) := by
  intro pos x pos' hx
  obtain ⟨elements, helements, rfl⟩ := spanned_ok hx
  have h := hp pos elements pos' helements
  refine formed_of_parts ⟨n, _, hproduction, pos, pos', hx⟩ rfl k.succ_pos ?_
  simp only [Node.parts, definitionOf, List.forall_mem_append, List.forall_mem_map, List.mem_filterMap]
  refine ⟨⟨?_, ?_⟩, ?_⟩
  all_goals
    rintro x ⟨element, hmem, hx⟩
    cases element <;> cases hx
    exact h _ hmem

theorem tableDefinition_formed :
    Yields ts (tableDefinition inner) fun x => (Node.tableDefinition x).Formed ts (k + 1) := by
  obtain ⟨n, rfl⟩ := hinner.origin
  refine definitionOf_formed ?_ List.mem_cons_self
  exact .after fun _ => (tableElements_formed hinner).bind fun _ h => .after fun _ => .pure h

/-! ## Definitions -/

theorem statementList_formed (inBlock : Bool) :
    Yields ts (statementList inner inBlock) fun l => ∀ x ∈ l, (Node.statement x).Formed ts (k + 1) :=
  .many (.after fun _ => .after fun _ => .optionIf hinner.statement)

theorem createTable_formed : Yields ts (createTable inner) (StatementKind.Formed ts (k + 1)) := by
  refine .after fun _ => .after fun name => (tableDefinition_formed hinner).bind fun x hx => .after
    fun _ => .pure ?_
  simp [StatementKind.Formed, StatementKind.parts, hx]

theorem alterTable_formed : Yields ts (alterTable inner) (StatementKind.Formed ts (k + 1)) := by
  have haction : ∀ name, Yields ts (alterAction inner >>= fun action =>
      pure (StatementKind.alterTable name action))
      (StatementKind.Formed ts (k + 1)) := by
    intro name
    refine .bind (P := fun action => (StatementKind.alterTable name action).Formed ts (k + 1)) ?_ fun _ h => .pure h
    refine .after fun _ => .ite (.map ?_) (.after fun _ => .after fun _ => .pure ?_)
    · obtain ⟨n, rfl⟩ := hinner.origin
      refine (definitionOf_formed (tableElements_formed hinner) (List.mem_cons_of_mem _ List.mem_cons_self)).imp
        fun x hx => ?_
      simpa [StatementKind.Formed, StatementKind.parts] using hx
    · simp [StatementKind.Formed, StatementKind.parts]
  exact .after fun _ => .after fun name => .after fun _ => .ite (.after fun _ => haction name) (haction name)

theorem createIndex_formed : Yields ts (createIndex inner) (StatementKind.Formed ts (k + 1)) := by
  refine .after fun _ => .after fun _ => .after fun _ => .after fun _ => .after fun _ => .after fun _ => ?_
  refine .after fun _ => (indexBody_formed hinner).bind fun x hx => .pure ?_
  simp only [StatementKind.Formed, StatementKind.parts, List.forall_mem_append, List.forall_mem_cons,
    List.forall_mem_map, Option.mem_toList]
  exact ⟨⟨⟨Node.formed_ident _, Node.formed_objectName _, fun _ _ => Node.formed_indexColumn _⟩,
    fun _ _ => Node.formed_ident _⟩, hx⟩

theorem createView_formed (mode : CreateMode) :
    Yields ts (createView inner mode) (StatementKind.Formed ts (k + 1)) := by
  refine .after fun _ => .after fun _ => .after fun _ => .after fun _ => .after fun _ => ?_
  refine hinner.query.bind fun q hq => .after fun _ => ?_
  have hnode : ∀ name columns, (StatementKind.createView ⟨mode, name, columns, q⟩).Formed ts (k + 1) := by
    simp [StatementKind.Formed, StatementKind.parts, or_imp, forall_and, hq.succ]
  exact .ite (.after fun _ => .after fun _ => .pure (hnode _ _)) (.pure (hnode _ _))

theorem parameter_formed : Yields ts (parameter inner) fun x => (Node.parameter x).Formed ts (k + 1) := by
  refine .after fun _ => .after fun _ => .after fun _ => .after fun _ => .after fun _ => ?_
  refine (Yields.optionIf hinner.operand).bind fun initial hinitial => .after fun _ => .after fun _ => .pure ?_
  refine formed_of_parts trivial rfl k.succ_pos ?_
  simpa [Node.parts] using hinitial

theorem createProcedure_formed (mode : CreateMode) :
    Yields ts (createProcedure inner mode) (StatementKind.Formed ts (k + 1)) := by
  refine .after fun _ => .after fun name => .after fun parenthesized => ?_
  refine (Yields.listIf (.commaSeparated (parameter_formed hinner))).bind fun parameters hparameters => ?_
  have hbody : Yields ts (do
      expectKeyword .AS
      let body ← statementList inner false
      pure (StatementKind.createProcedure mode name parameters body)) (StatementKind.Formed ts (k + 1)) := by
    refine .after fun _ => (statementList_formed hinner false).bind fun body hstatements => .pure ?_
    simp only [StatementKind.Formed, StatementKind.parts, List.forall_mem_append, List.forall_mem_cons,
      List.forall_mem_map]
    exact ⟨⟨Node.formed_objectName name, hparameters⟩, hstatements⟩
  have hrest : Yields ts (do
      let _ ← listIf (consumeKeyword .WITH) (commaSeparated procedureOption)
      if ← atKeywordWord .FOR "REPLICATION" then skipTwo
      expectKeyword .AS
      let body ← statementList inner false
      pure (StatementKind.createProcedure mode name parameters body)) (StatementKind.Formed ts (k + 1)) :=
    .after fun _ => .after fun _ => .ite (.after fun _ => hbody) hbody
  exact .ite (.after fun _ => hrest) hrest

theorem createOrAlter_formed (mode : CreateMode) (t : Token) :
    Yields ts (createOrAlter inner mode t) (StatementKind.Formed ts (k + 1)) := by
  unfold createOrAlter
  split
  · exact createView_formed hinner mode
  · exact createProcedure_formed hinner mode
  · exact createProcedure_formed hinner mode
  · exact .failUnsupported

theorem createPlain_formed (t : Token) : Yields ts (createPlain inner t) (StatementKind.Formed ts (k + 1)) := by
  unfold createPlain
  split
  · exact createTable_formed hinner
  · exact createIndex_formed hinner
  · exact createIndex_formed hinner
  · exact createIndex_formed hinner
  · exact createIndex_formed hinner
  · exact createView_formed hinner _
  · exact createProcedure_formed hinner _
  · exact createProcedure_formed hinner _
  · exact .ite (createIndex_formed hinner) .failUnsupported
  · exact .failUnsupported

theorem create_formed : Yields ts (create inner) (StatementKind.Formed ts (k + 1)) := by
  refine .after fun _ => .after fun _ => .after fun t? => ?_
  cases t? with
  | none => exact .failExpected
  | some t => exact .ite (createOrAlter_formed hinner _ t) (createPlain_formed hinner t)

theorem alter_formed : Yields ts (alter inner) (StatementKind.Formed ts (k + 1)) := by
  refine .after fun _ => .after fun t? => ?_
  cases t? with
  | none => exact .failExpected
  | some t => exact .ite (alterTable_formed hinner) (createOrAlter_formed hinner _ t)

omit hinner in
theorem drop_formed : Yields ts drop (StatementKind.Formed ts (k + 1)) := by
  refine .after fun _ => .after fun _ => .after fun _ => .after fun _ => .after fun _ => .pure ?_
  simp [StatementKind.Formed, StatementKind.parts, or_imp, forall_and]

/-! ## Changes to rows -/

theorem execution_formed : Yields ts (execution inner) fun x => ∀ c ∈ x.parts, c.Formed ts (k + 1) := by
  have hargument : Yields ts (argument inner) fun x => (Node.argument x).Formed ts (k + 1) := by
    refine .spanned (K := fun x => (Node.expr x.2.1).Formed ts (k + 1)) ?_ fun x span hx => ?_
    · exact .after fun _ => hinner.operand.bind fun e he => .after fun _ => .pure he
    · exact formed_of_parts trivial rfl k.succ_pos (by simp [Node.parts, or_imp, forall_and, hx])
  refine .after fun _ => .after fun _ => .ite ?_ (.after fun result => .after fun name => ?_)
  · refine hinner.operand.bind fun e he => .after fun _ => .pure ?_
    simpa [Execution.parts] using he
  · refine (Yields.listIf (.commaSeparated hargument)).bind fun arguments harguments => .after fun _ => ?_
    have hnode : ∀ c ∈ (Execution.mk result (.procedure name arguments)).parts, c.Formed ts (k + 1) := by
      simp only [Execution.parts, List.forall_mem_append, List.forall_mem_cons, List.forall_mem_map]
      exact ⟨fun _ _ => Node.formed_ident _, Node.formed_objectName _, harguments⟩
    exact .ite (.after fun _ => .pure hnode) (.pure hnode)

theorem insertSource_formed : Yields ts (insertSource inner) fun x => ∀ c ∈ x.parts, c.Formed ts (k + 1) := by
  refine .after fun _ => .ite (.map ?_) (.after fun _ => .ite (.pure ?_) (.after fun _ => .ite (.map ?_) ?_))
  · have hrow : Yields ts (valuesRow inner) fun row => ∀ e ∈ row, (Node.expr e).Formed ts (k + 1) :=
      .after fun _ => (expressionList_formed hinner).bind fun _ h => .after fun _ => .pure h
    refine (Yields.commaSeparated hrow).imp fun rows hrows => ?_
    simp only [InsertSource.parts, List.forall_mem_map, List.mem_flatten]
    rintro e ⟨row, hmem, he⟩
    exact hrows row hmem e he
  · simp [InsertSource.parts]
  · exact execution_formed hinner
  · refine .after fun _ => .ite (.map (hinner.query.imp fun q hq => ?_)) .failExpected
    simpa [InsertSource.parts] using hq.succ

theorem insertion_formed : Yields ts (insertion inner) fun x => (StatementKind.insertion x).Formed ts (k + 1) := by
  refine .after fun _ => (optionalTop_formed hinner).bind fun top htop => .after fun _ => .after fun _ => ?_
  refine .after fun _ => (insertSource_formed hinner).bind fun source hsource => .pure ?_
  simp only [StatementKind.Formed, StatementKind.parts, List.forall_mem_append, List.forall_mem_cons,
    List.forall_mem_map, Option.mem_toList]
  exact ⟨⟨htop, Node.formed_objectName _, fun _ _ => Node.formed_ident _⟩, hsource⟩

theorem assignment_formed : Yields ts (assignment inner) fun x => (Node.assignment x).Formed ts (k + 1) := by
  refine .spanned (K := fun x => (Node.expr x.1).Formed ts (k + 1) ∧ (Node.expr x.2).Formed ts (k + 1)) ?_
    fun x span hx => ?_
  · refine (primary_formed hinner).bind fun target htarget => .after fun _ => ?_
    exact hinner.operand.bind fun value hvalue => .pure ⟨htarget.node, hvalue⟩
  · exact formed_of_parts trivial rfl k.succ_pos (by simpa [Node.parts] using hx)

theorem update_formed : Yields ts (update inner) fun x => (StatementKind.update x).Formed ts (k + 1) := by
  refine .after fun _ => (optionalTop_formed hinner).bind fun top htop => ?_
  refine (tableFactor_formed hinner).formed.bind fun target htarget => .after fun _ => ?_
  refine (Yields.commaSeparated (assignment_formed hinner)).bind fun assignments hassignments => ?_
  refine (Yields.listIf (tableSources_formed hinner)).bind fun sources hsources => ?_
  refine (whereClause_formed hinner).bind fun filter hfilter => .pure ?_
  simp only [StatementKind.Formed, StatementKind.parts, List.forall_mem_append, List.forall_mem_cons,
    List.forall_mem_map, Option.mem_toList]
  exact ⟨⟨⟨htop, htarget, hassignments⟩, hsources⟩, hfilter⟩

theorem deletion_formed : Yields ts (deletion inner) fun x => (StatementKind.deletion x).Formed ts (k + 1) := by
  refine .after fun _ => (optionalTop_formed hinner).bind fun top htop => .after fun _ => ?_
  refine (tableFactor_formed hinner).formed.bind fun target htarget => ?_
  refine (Yields.listIf (tableSources_formed hinner)).bind fun sources hsources => ?_
  refine (whereClause_formed hinner).bind fun filter hfilter => .pure ?_
  simp only [StatementKind.Formed, StatementKind.parts, List.forall_mem_append, List.forall_mem_cons,
    List.forall_mem_map, Option.mem_toList]
  exact ⟨⟨htop, htarget, hsources⟩, hfilter⟩

/-! ## Variables and options -/

theorem declaration_formed : Yields ts (declaration inner) fun x => (Node.declaration x).Formed ts (k + 1) := by
  refine .spanned (K := fun x => ∀ c ∈ x.2.parts, c.Formed ts (k + 1)) ?_ fun x span hx => ?_
  · refine .after fun _ => .after fun _ => .bind (P := fun kind => ∀ c ∈ kind.parts, c.Formed ts (k + 1)) ?_
      fun _ h => .pure h
    refine .after fun _ => .ite (.map ((tableDefinition_formed hinner).imp fun x hx => ?_)) (.after fun _ => ?_)
    · simpa [DeclarationKind.parts] using hx
    · refine .ite .failUnsupported (.after fun _ => (Yields.optionIf hinner.operand).bind
        fun value hvalue => .pure ?_)
      simpa [DeclarationKind.parts] using hvalue
  · exact formed_of_parts trivial rfl k.succ_pos (List.forall_mem_cons.mpr ⟨Node.formed_ident _, hx⟩)

theorem declarations_formed : Yields ts (declarations inner) (StatementKind.Formed ts (k + 1)) := by
  refine .after fun _ => .map ((Yields.commaSeparated (declaration_formed hinner)).imp fun l hl => ?_)
  simpa [StatementKind.Formed, StatementKind.parts] using hl

theorem setStatement_formed : Yields ts (setStatement inner) (StatementKind.Formed ts (k + 1)) := by
  refine .after fun _ => .after fun _ => .ite ?_ (.after fun _ => .ite .failExpected (.pure ?_))
  · refine .after fun _ => .after fun _ => hinner.operand.bind fun e he => .pure ?_
    simp [StatementKind.Formed, StatementKind.parts, he]
  · simp [StatementKind.Formed, StatementKind.parts, or_imp, forall_and]

/-! ## Control flow -/

theorem elsePart_formed :
    Yields ts (elsePart inner) fun x? => ∀ x ∈ x?, (Node.statement x).Formed ts (k + 1) := by
  intro pos x? pos' h
  unfold elsePart at h
  split at h
  · cases h
  · split at h
    · cases h
    · rename_i hstatement
      cases h
      rintro _ ⟨rfl⟩
      exact hinner.statement _ _ _ hstatement
  · cases h
    nofun

theorem conditional_formed : Yields ts (conditional inner) (StatementKind.Formed ts (k + 1)) := by
  refine .after fun _ => hinner.operand.bind fun condition hcondition => ?_
  refine hinner.statement.bind fun consequent hconsequent => (elsePart_formed hinner).bind
    fun other hother => .pure ?_
  simp only [StatementKind.Formed, StatementKind.parts, List.forall_mem_cons, List.forall_mem_map,
    Option.mem_toList]
  exact ⟨hcondition, hconsequent, hother⟩

theorem loop_formed : Yields ts (loop inner) (StatementKind.Formed ts (k + 1)) := by
  refine .after fun _ => hinner.operand.bind fun condition hcondition => hinner.statement.bind
    fun body hbody => .pure ?_
  simp [StatementKind.Formed, StatementKind.parts, hcondition, hbody]

omit hinner in
theorem transaction_formed (kind : TransactionKind) (name : Option Ident) :
    (StatementKind.transaction kind name).Formed ts (k + 1) := by
  simp [StatementKind.Formed, StatementKind.parts]

theorem begins_formed : Yields ts (begins inner) (StatementKind.Formed ts (k + 1)) := by
  refine .after fun _ => .ite (.after fun _ => .map fun _ _ _ _ => transaction_formed _ _) (.after
    fun _ => .ite ?_ ?_)
  · refine .after fun _ => (statementList_formed hinner true).bind fun attempt hattempt => .after
      fun _ => .after fun _ => ?_
    refine .after fun _ => .after fun _ => (statementList_formed hinner true).bind fun handler hhandler => ?_
    refine .after fun _ => .after fun _ => .pure ?_
    simp only [StatementKind.Formed, StatementKind.parts, List.forall_mem_append, List.forall_mem_map]
    exact ⟨hattempt, hhandler⟩
  · refine .after fun _ => .ite .failUnsupported (.after fun _ => ?_)
    refine (statementList_formed hinner true).bind fun statements hstatements => .after fun _ => .pure ?_
    simpa [StatementKind.Formed, StatementKind.parts] using hstatements

theorem returning_formed : Yields ts (returning inner) (StatementKind.Formed ts (k + 1)) := by
  refine .after fun _ => .map ((Yields.optionIf hinner.operand).imp fun value hvalue => ?_)
  simpa [StatementKind.Formed, StatementKind.parts] using hvalue

/-! ## Statements -/

theorem statementKind_formed (t : Token) : Yields ts (statementKind inner t) (StatementKind.Formed ts (k + 1)) := by
  have hselect : Yields ts (StatementKind.select <$> inner.query) (StatementKind.Formed ts (k + 1)) :=
    .map (hinner.query.imp fun q hq => by simpa [StatementKind.Formed, StatementKind.parts] using hq.succ)
  have hleaf : ∀ {kind : StatementKind}, kind.parts = [] → kind.Formed ts (k + 1) := by
    intro kind hparts
    simp [StatementKind.Formed, hparts]
  have hunmodelled : ∀ rest, Yields ts (unmodelled t rest) (StatementKind.Formed ts (k + 1)) :=
    fun _ => .after fun _ => .after fun _ => .pure (hleaf rfl)
  have hexecution : Yields ts (StatementKind.execution <$> execution inner) (StatementKind.Formed ts (k + 1)) :=
    .map (execution_formed hinner)
  have hend : ∀ kind, Yields ts (transactionEnd kind) (StatementKind.Formed ts (k + 1)) := fun kind =>
    .after fun _ => .after fun _ =>
      .ite (.map fun _ _ _ _ => transaction_formed _ _) (.pure (transaction_formed _ _))
  unfold statementKind
  split
  · exact hselect
  · exact hselect
  · exact hselect
  · exact .map (insertion_formed hinner)
  · exact .map (update_formed hinner)
  · exact .map (deletion_formed hinner)
  · exact create_formed hinner
  · exact alter_formed hinner
  · exact drop_formed
  · refine .after fun _ => .after fun _ => .map fun _ _ _ _ => ?_
    simp [StatementKind.Formed, StatementKind.parts]
  · exact hexecution
  · exact hexecution
  · exact declarations_formed hinner
  · exact setStatement_formed hinner
  · exact conditional_formed hinner
  · exact loop_formed hinner
  · exact begins_formed hinner
  · exact hend _
  · exact hend _
  · exact returning_formed hinner
  · refine .after fun _ => .map (hinner.operand.imp fun e he => ?_)
    simpa [StatementKind.Formed, StatementKind.parts] using he
  · exact .after fun _ => .pure (hleaf rfl)
  · exact .after fun _ => .pure (hleaf rfl)
  · exact hunmodelled _
  · exact hunmodelled _
  · exact hunmodelled _
  · exact hunmodelled _
  · exact hunmodelled _
  · exact .ite (hunmodelled _) .failUnsupported
  · exact .failUnsupported

theorem statement_formed : Yields ts (statement inner) fun s => (Node.statement s).Formed ts (k + 1 + 1) := by
  have hparts : Yields ts (statement inner) fun s => s.kind.Formed ts (k + 1) := by
    refine .spanned (K := StatementKind.Formed ts (k + 1)) (.after fun t? => ?_) fun _ _ h => h
    cases t? with
    | none => exact .failExpected
    | some t => exact statementKind_formed hinner t
  intro a s b hs
  exact formed_succ_of_parts (statement_proper hinner.reads a s b hs) k.succ_pos (hparts a s b hs)

omit hinner

/-- Each level adds one. -/
theorem level_formed : ∀ n, (level n).Formed ts n
  | 0 => ⟨⟨0, rfl⟩, level_reads 0, .failTooDeep, .failTooDeep, .failTooDeep, .failTooDeep, .failTooDeep⟩
  | n + 1 =>
    have hinner := level_formed n
    { origin := ⟨n + 1, rfl⟩
      reads := level_reads (n + 1)
      expression := (disjunction_formed hinner).imp fun _ h => h.node
      negated := negation_formed hinner
      signed := unary_formed hinner
      query := query_formed hinner
      statement := statement_formed hinner }

theorem script_formed : Yields ts script fun x => (Node.script x).Formed ts (nestingLimit + 1) := by
  have hbatch : Yields ts (batch (level nestingLimit)) fun x? => ∀ x ∈ x?,
      (Node.batch x).Formed ts (nestingLimit + 1) := by
    refine .after fun _ => (statementList_formed (level_formed nestingLimit) false).bind fun l hl => .after
      fun span => .pure ?_
    intro x hx
    split at hx
    · cases hx
    · cases hx
      exact formed_of_parts trivial rfl (Nat.succ_pos _) (by simpa [Node.parts] using hl)
  refine .after fun _ => hbatch.bind fun first hfirst => (Yields.many (.optionIf hbatch)).bind fun rest hrest => ?_
  refine .after fun _ => .ite (.after fun span => .pure ?_) .failExpected
  refine formed_of_parts trivial rfl (Nat.succ_pos _) ?_
  simp only [Node.parts, List.forall_mem_map, List.mem_filterMap, id_eq, exists_eq_right]
  intro x hx
  rcases List.mem_cons.mp hx with hx | hx
  · exact hfirst x hx.symm
  · exact hrest _ hx x rfl

theorem script_below (ts : Terminals) (pos : Nat) (x : Script) (pos' : Nat) (h : script ts pos = .ok (x, pos')) :
    (Node.script x).Below (nestingLimit + 1) :=
  (script_formed pos x pos' h).below

end Grammar

theorem Document.proper_of_mem {sql : String} {d : Document} (h : parse sql = .ok d) {n : Node}
    (hn : n ∈ d.nodes) :
    n.Proper d.terminals := by
  obtain ⟨-, pos, hscript⟩ := parse_ok h
  exact (Grammar.script_formed 0 d.script pos hscript).proper n (Node.mem_preorder.mp hn)

end TransactLint
