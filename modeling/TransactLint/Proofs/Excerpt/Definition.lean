import TransactLint.Proofs.Excerpt.Query
import TransactLint.Proofs.Excerpt.TableDefinition

/-!
# Definitions and calls of a closed excerpt
-/

namespace TransactLint.Grammar

open TransactLint.Parser

structure Level.Continues {ts ts' : Terminals} (ρ : Excerpt ts ts') (inner : Level) : Prop
    extends inner.Persists ρ inner where
  statement : ∀ base limit, Parser.Persists ρ base limit inner.statement inner.statement fun _ => true

variable {ts ts' : Terminals} {ρ : Excerpt ts ts'} (hρ : ρ.Closed) {base limit pos : Nat}

/-! ## Names -/

theorem anyIdent_ok {name : Ident} {pos' : Nat} (h : anyIdent ts pos = .ok (name, pos')) :
    ∃ t, ts.token? pos = some t ∧ name.value = t.value ∧ pos' = pos + 1 := by
  cases ht : ts.token? pos with
  | none =>
    obtain ⟨t, ht', _⟩ := spanned_ok h
    obtain ⟨t?, mid, htake, hfail⟩ := bind_ok ht'
    cases htake
    simp only [ht] at hfail
    exact absurd hfail failExpected_ne_ok
  | some t =>
    cases h.symm.trans (anyIdent_of_token ht)
    exact ⟨t, rfl, rfl, rfl⟩

theorem ident_ok {name : Ident} {pos' : Nat} (h : ident ts pos = .ok (name, pos')) :
    ∃ t, ts.token? pos = some t ∧ t.isIdentifier = true ∧ name.value = t.value ∧ pos' = pos + 1 := by
  rw [ident, bind_look] at h
  split at h
  · rename_i hident
    obtain ⟨t, ht, hvalue, rfl⟩ := anyIdent_ok h
    exact ⟨t, ht, by simpa [Terminals.isIdentifier, ht] using hident, hvalue, rfl⟩
  · exact absurd h failExpected_ne_ok

theorem variableName_ok {name : Ident} {pos' : Nat} (h : variableName ts pos = .ok (name, pos')) :
    ∃ t, ts.token? pos = some t ∧ t.kind = .localVariable ∧ name.value = t.value ∧ pos' = pos + 1 := by
  rw [variableName, atKind, bind_look] at h
  split at h
  · rename_i hkind
    obtain ⟨t, ht, hvalue, rfl⟩ := anyIdent_ok h
    exact ⟨t, ht, by simpa [Terminals.isKind, ht] using hkind, hvalue, rfl⟩
  · exact absurd h failExpected_ne_ok

def Unfinished (ts : Terminals) (pos : Nat) : Prop :=
  ∃ k t, pos = k + 1 ∧ ts.token? k = some t ∧ t.kind ≠ .semicolon

theorem ident_unfinished {name : Ident} {pos' : Nat} (h : ident ts pos = .ok (name, pos')) :
    Unfinished ts pos' := by
  obtain ⟨t, ht, hident, -, rfl⟩ := ident_ok h
  refine ⟨pos, t, rfl, ht, fun hkind => ?_⟩
  simp [Token.isIdentifier, hkind, TokenKind.isIdentifier] at hident

theorem objectName_unfinished {name : ObjectName} {pos' : Nat} (h : objectName ts pos = .ok (name, pos')) :
    Unfinished ts pos' := by
  obtain ⟨parts, hparts, -⟩ := spanned_ok h
  -- every further part ends with a name
  have hrest : ∀ {first : Ident} {mid : Nat} {parts : List Ident}, Unfinished ts mid →
      (many nextPart >>= fun rest => pure (first :: rest)) ts mid = .ok (parts, pos') → Unfinished ts pos' := by
    intro first mid parts hmid hrest
    obtain ⟨rest, last, hmany, hrest⟩ := bind_ok hrest
    cases hrest
    refine many_keeps (fun part? before after hbefore hpart => ?_) hmid hmany
    obtain ⟨c, mid, hc, hpart⟩ := bind_ok hpart
    cases hc
    split at hpart
    · obtain ⟨part, last, hpart, hdone⟩ := bind_ok hpart
      cases hdone
      obtain ⟨_, _, _, hpart⟩ := bind_ok hpart
      exact ident_unfinished hpart
    · cases hpart
      exact hbefore
  rw [atKind, bind_look] at hparts
  split at hparts
  · obtain ⟨first, mid, hfirst, hparts⟩ := bind_ok hparts
    obtain ⟨t, ht, hkind, -, rfl⟩ := variableName_ok hfirst
    exact hrest ⟨pos, t, rfl, ht, by simp [hkind]⟩ hparts
  · obtain ⟨first, mid, hfirst, hparts⟩ := bind_ok hparts
    exact hrest (ident_unfinished hfirst) hparts

/-! ## Where a statement ends -/

section
include hρ

theorem Unfinished.lt_size (h : Unfinished ts pos) : pos < ts.size := by
  obtain ⟨k, t, rfl, ht, hkind⟩ := h
  exact hρ.lt_size ht hkind

theorem skipStatement_persists : Persists ρ base limit skipStatement skipStatement fun _ => false := by
  refine skipUntil_persists_closed hρ (fun _ h => hρ.atBoundary_eq (Nat.le_of_lt h)) ?_
  rw [hρ.atBoundary_eq (Nat.le_refl _)]
  simp [atBoundary]

theorem skipToTerminator_persists : Persists ρ base limit skipToTerminator skipToTerminator fun _ => false := by
  refine skipUntil_persists_closed hρ (fun _ h => ?_) ?_
  · rw [ρ.isKind_inside h, hρ.isSeparator_eq h]
  · simp [hρ.separator]

end

section
variable {inner : Level} (hinner : inner.Continues ρ)
include hρ hinner

theorem statementList_persists (inBlock : Bool) :
    Persists ρ base limit (statementList inner inBlock) (statementList inner inBlock) fun _ => false := by
  refine .many ((Persists.repeatWhile (consume_persists (by decide))).bind fun _ => ?_)
  refine .look (fun pos _ h => ?_) fun stop => .optionPure (hinner.statement _ limit) rfl
  rw [hρ.stops_eq h, ρ.isKeyword_eq h]

/-! ## Calls -/

omit hinner in
theorem atArgument_persists (h : pos ≤ ts.size) : atArgument ts' (pos + ρ.shift) = atArgument ts pos := by
  rcases Nat.lt_or_eq_of_le h with hlt | rfl
  · rw [atArgument, atArgument, ρ.token?_eq hlt, hρ.onSameLine_eq hlt, hρ.isSeparator_eq hlt]
  · obtain ⟨t, ht, hkind, _⟩ := Terminals.isSeparator_token hρ.separator
    simp [atArgument, ht, hkind, hρ.separator, Terminals.token?_of_le (Nat.le_refl _)]

omit hρ hinner in
theorem variableBeforeEq_persists : Persists ρ base limit variableBeforeEq variableBeforeEq fun _ => false := by
  refine .ifLook (fun _ _ h => pair_eq (by decide) (by decide) h) (fun pos _ h => ?_) (.pure rfl)
  have hlt := pair_lt h
  have hname : PersistsAt ρ limit pos variableName variableName fun _ => true :=
    variableName_persists.here (by omega)
  refine .then ?_ fun _ => .pure rfl
  refine hname.bindRead fun name mid hread _ => ?_
  obtain ⟨_, -, -, -, rfl⟩ := variableName_ok hread
  exact (skip_persistsAt hlt).then fun _ => .pure rfl

omit hρ hinner in
theorem outputMark_persists : Persists ρ base limit outputMark outputMark id :=
  .whether (consumeWord_persists (by decide)) (.pure rfl) (consumeWord_persists (by decide))

omit hρ in
theorem argument_persists {owed : Argument → Bool} :
    Persists ρ base limit (argument inner) (argument inner) owed := by
  refine .spanned (variableBeforeEq_persists.bind fun name => (hinner.expression _ limit).then fun value => ?_)
  exact outputMark_persists.free.bind fun output => .pure rfl

theorem execution_persistsAt (h : pos < ts.size) {owed : Execution → Bool} :
    PersistsAt ρ limit pos (execution inner) (execution inner) owed := by
  refine (skip_persistsAt h).then fun _ => .whether (consume_persists (by decide)) ?_ ?_
  · exact (hinner.expression _ limit).free.bind fun text => (expect_persists _).bind fun _ => .pure rfl
  refine variableBeforeEq_persists.bind fun returnVariable => objectName_persists.bind fun name => ?_
  refine .bind (.listLook (fun _ _ h => atArgument_persists hρ h) (.commaSeparated fun _ =>
    argument_persists hinner))
    fun arguments => ?_
  refine .ifLook (fun _ _ h => keywordWord_eq h _ (by decide)) (fun pos _ h => ?_) (.pure rfl)
  exact (skipTwo_persistsAt (keywordWord_lt h)).then fun _ => .pure rfl

/-! ## Tables and indexes -/

theorem createTable_persists {owed : StatementKind → Bool} :
    Persists ρ base limit (createTable inner) (createTable inner) owed := by
  refine (expectKeyword_persists _).then fun _ => objectName_persists.bind fun name => ?_
  refine (tableDefinition_persists hρ hinner.toPersists).bind fun definition => ?_
  exact (storageOptions_persists hρ).bind fun _ => .pure rfl

theorem alterAction_persistsAt (h : pos < ts.size) :
    PersistsAt ρ limit pos (alterAction inner) (alterAction inner) fun _ => false := by
  have hadd : PersistsAt ρ limit pos (consumeKeyword .ADD) (consumeKeyword .ADD) id :=
    (consumeKeyword_persists .ADD).here (Nat.le_of_lt h)
  refine hadd.bindRead fun added mid hread hkept => ?_
  cases added with
  | true =>
    refine Persists.here ?_ hkept.size
    exact Persists.map (.spanned (tableElements_persists hρ hinner.toPersists))
  | false =>
    obtain rfl := consume_false hread
    refine (skip_persistsAt h).then fun _ => ?_
    exact (skipStatement_persists hρ).bind fun _ => .pure rfl

theorem alterTable_persists {owed : StatementKind → Bool} :
    Persists ρ base limit (alterTable inner) (alterTable inner) owed := by
  have hrest : ∀ pos, ∀ name : ObjectName, Unfinished ts pos → PersistsAt ρ limit pos (do
      let action ← alterAction inner
      pure (StatementKind.alterTable name action)) (do
      let action ← alterAction inner
      pure (StatementKind.alterTable name action)) fun _ => false :=
    fun pos name hpos => (alterAction_persistsAt hρ hinner (hpos.lt_size hρ)).bind
      fun _ _ _ hsize _ => .pure hsize rfl
  refine (expectKeyword_persists _).then fun _ pos _ h => ?_
  have hname : PersistsAt ρ limit pos objectName objectName fun _ => true := objectName_persists.here h
  refine hname.bindRead fun name mid hread hkept => ?_
  refine .look ?_ (.ite (fun hcheck => ?_) fun _ => hrest mid name (objectName_unfinished hread))
  · refine and_eq_and (ρ.isKeyword_eq hkept.size _) fun hwith => ?_
    have hlt := isKind_lt hwith
    rw [nextIsKeyword_eq hlt, nextIsKeyword_eq hlt]
  · obtain ⟨-, hword⟩ := Bool.and_eq_true_iff.mp hcheck
    obtain ⟨t, ht, hkind⟩ : ∃ t, ts.token? (mid + 1) = some t ∧ t.kind ≠ .semicolon := by
      rcases Bool.or_eq_true_iff.mp hword with h | h <;> obtain ⟨t, ht, hkind⟩ := Terminals.isKind_iff.mp h <;>
        exact ⟨t, ht, by simp [hkind]⟩
    have hlt := token?_isSome (by rw [ht]; rfl)
    have htwo : PersistsAt ρ limit mid skipTwo skipTwo fun _ => false := skipTwo_persistsAt hlt
    refine htwo.bindRead fun _ last hlast _ => ?_
    cases hlast.symm.trans (skipTwo_of_lt hlt)
    exact hrest (mid + 2) name ⟨mid + 1, t, rfl, ht, hkind⟩

theorem createIndex_persists {owed : StatementKind → Bool} :
    Persists ρ base limit (createIndex inner) (createIndex inner) owed := by
  refine (consumeKeyword_persists _).free.bind fun unique => clusteredOption_persists.bind fun clustered => ?_
  refine (consumeWord_persists (by decide)).free.bind fun columnstore => (expectKeyword_persists _).then fun _ => ?_
  refine ident_persists.bind fun name => (expectKeyword_persists _).bind fun _ => objectName_persists.bind
    fun table => ?_
  exact (indexBody_persists hρ hinner.toPersists).bind fun x => .pure rfl

/-! ## Views and procedures -/

omit hρ in
theorem createView_persists (mode : CreateMode) {owed : StatementKind → Bool} :
    Persists ρ base limit (createView inner mode) (createView inner mode) owed := by
  refine (expectKeyword_persists _).then fun _ => objectName_persists.bind fun name => ?_
  refine .bind (.listLook (fun _ _ h => ρ.isKind_eq h (by decide)) identList_persists) fun columns => ?_
  refine .bind (.listIf (consumeKeyword_persists _) (.commaSeparated fun _ => anyIdent_persists)) fun _ => ?_
  refine (expectKeyword_persists _).bind fun _ => (hinner.query _ limit).free.bind fun query => ?_
  refine .ifLook (fun _ _ h => pair_eq (by simp) (by simp) h) (fun pos _ h => ?_) (.pure rfl)
  exact (skipTwo_persistsAt (pair_lt h)).then fun _ => (expectKeyword_persists _).bind fun _ => .pure rfl

omit hρ hinner in
theorem parameterMarks_persists : Persists ρ base limit parameterMarks parameterMarks fun _ => false := by
  refine .iterate (fun marks => ?_) _
  refine .whether outputMark_persists (.pure rfl) ?_
  exact .whether (consumeWord_persists (by decide)) (.pure rfl) (.pure rfl)

omit hρ in
theorem parameter_persists {owed : Parameter → Bool} :
    Persists ρ base limit (parameter inner) (parameter inner) owed := by
  refine .position fun start _ => variableName_persists.then fun name => (consumeKeyword_persists _).free.bind
    fun _ => ?_
  refine dataType_persists.bind fun type => (consumeWord_persists (by decide)).free.bind fun _ => ?_
  refine .bind (.optionIf (consume_persists (by decide)) (hinner.expression _ limit).free rfl) fun initial => ?_
  exact parameterMarks_persists.bind fun marks => .spanFrom (by omega) fun span => .pure rfl

omit hρ hinner in
theorem procedureOption_persists {owed : Unit → Bool} :
    Persists ρ base limit procedureOption procedureOption owed := by
  have hname : ∀ base, Persists ρ base limit (do
      let _ ← anyIdent
      pure ()) (do
      let _ ← anyIdent
      pure ()) fun _ => true :=
    fun _ => anyIdent_persists.then fun _ => .pure rfl
  refine .look (fun pos _ h => ?_) fun _ => .ite ?_ (hname _).owes
  · rw [ρ.isKeyword_eq h, ρ.isKeyword_eq h]
  · exact .skip ((expectKeyword_persists _).then fun _ => (hname _).free)

theorem createProcedure_persistsAt (h : pos < ts.size) (mode : CreateMode) {owed : StatementKind → Bool} :
    PersistsAt ρ limit pos (createProcedure inner mode) (createProcedure inner mode) owed := by
  have hbody : ∀ base, ∀ (name : ObjectName) (parameters : List Parameter), Persists ρ base limit (do
      expectKeyword .AS
      let body ← statementList inner false
      pure (StatementKind.createProcedure mode name parameters body)) (do
      expectKeyword .AS
      let body ← statementList inner false
      pure (StatementKind.createProcedure mode name parameters body)) fun _ => false :=
    fun _ _ _ => (expectKeyword_persists _).bind fun _ => (statementList_persists hρ hinner false).bind
      fun _ => .pure rfl
  have hoptions : ∀ base, ∀ (name : ObjectName) (parameters : List Parameter), Persists ρ base limit (do
      let _ ← listIf (consumeKeyword .WITH) (commaSeparated procedureOption)
      if ← atKeywordWord .FOR "REPLICATION" then skipTwo
      expectKeyword .AS
      let body ← statementList inner false
      pure (StatementKind.createProcedure mode name parameters body)) (do
      let _ ← listIf (consumeKeyword .WITH) (commaSeparated procedureOption)
      if ← atKeywordWord .FOR "REPLICATION" then skipTwo
      expectKeyword .AS
      let body ← statementList inner false
      pure (StatementKind.createProcedure mode name parameters body)) fun _ => false := by
    intro base name parameters
    refine .bind (.listIf (consumeKeyword_persists _) (.commaSeparated fun _ => procedureOption_persists))
      fun _ => ?_
    refine .ifLook (fun _ _ h => keywordWord_eq h _ (by decide)) (fun pos _ h => ?_) (hbody _ _ _)
    exact (skipTwo_persistsAt (keywordWord_lt h)).then fun _ => hbody _ _ _
  refine (skip_persistsAt h).then fun _ => objectName_persists.bind fun name => ?_
  refine (consume_persists (by decide)).free.bind fun parenthesized => ?_
  refine .bind (.listLook (fun _ _ h => ρ.isKind_eq h (by decide)) (.commaSeparated fun _ =>
    parameter_persists hinner))
    fun parameters => ?_
  exact .ite ((expect_persists _).bind fun _ => hoptions _ _ _) (hoptions _ _ _)

/-! ## Statements that define -/

theorem createOrAlter_persistsAt (h : pos < ts.size) (mode : CreateMode) (t : Token)
    {owed : StatementKind → Bool} :
    PersistsAt ρ limit pos (createOrAlter inner mode t) (createOrAlter inner mode t) owed := by
  have hle := Nat.le_of_lt h
  unfold createOrAlter
  split
  · exact (createView_persists hinner mode).here hle
  · exact createProcedure_persistsAt hρ hinner h mode
  · exact createProcedure_persistsAt hρ hinner h mode
  · exact Persists.failUnsupported.here hle

theorem createPlain_persistsAt (h : pos < ts.size) (t : Token) {owed : StatementKind → Bool} :
    PersistsAt ρ limit pos (createPlain inner t) (createPlain inner t) owed := by
  have hle := Nat.le_of_lt h
  unfold createPlain
  split
  · exact (createTable_persists hρ hinner).here hle
  · exact (createIndex_persists hρ hinner).here hle
  · exact (createIndex_persists hρ hinner).here hle
  · exact (createIndex_persists hρ hinner).here hle
  · exact (createIndex_persists hρ hinner).here hle
  · exact (createView_persists hinner .create).here hle
  · exact createProcedure_persistsAt hρ hinner h .create
  · exact createProcedure_persistsAt hρ hinner h .create
  · exact Persists.here (.ite (createIndex_persists hρ hinner) .failUnsupported) hle
  · exact Persists.failUnsupported.here hle

theorem create_persists {owed : StatementKind → Bool} :
    Persists ρ base limit (create inner) (create inner) owed := by
  refine (expectKeyword_persists _).then fun _ => ?_
  refine (consumePair_persists (by simp) (by simp)).free.bind fun orAlter => ?_
  refine .current (fun pos t _ ht => ?_) fun _ _ => failExpected_ne_ok
  have hlt := token?_isSome (by rw [ht]; rfl)
  exact .ite (fun _ => createOrAlter_persistsAt hρ hinner hlt _ t) fun _ => createPlain_persistsAt hρ hinner hlt t

theorem alter_persists {owed : StatementKind → Bool} :
    Persists ρ base limit (alter inner) (alter inner) owed := by
  refine (expectKeyword_persists _).then fun _ => .current (fun pos t _ ht => ?_) fun _ _ => failExpected_ne_ok
  have hlt := token?_isSome (by rw [ht]; rfl)
  refine .ite (fun _ => (alterTable_persists hρ hinner).here (Nat.le_of_lt hlt)) fun _ => ?_
  exact createOrAlter_persistsAt hρ hinner hlt _ t

omit hρ hinner in
theorem drop_persists {owed : StatementKind → Bool} : Persists ρ base limit drop drop owed := by
  refine (expectKeyword_persists _).then fun _ => anyIdent_persists.bind fun objectType => ?_
  refine (consumePair_persists (by simp) (by simp)).free.bind fun ifExists => ?_
  refine .bind (.commaSeparated fun _ => objectName_persists) fun names => ?_
  exact .bind (.optionIf (consumeKeyword_persists _) objectName_persists rfl) fun table => .pure rfl

end

end TransactLint.Grammar
