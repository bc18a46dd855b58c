import TransactLint.Proofs.Form
import TransactLint.Proofs.Layout.Statement
import TransactLint.Proofs.Yields

/-!
# Skipped statements

A statement that is not modelled has been passed over from its first terminal on, and a change to a table that is
not modelled from behind the name of the table. No other statement yields what is not modelled.
-/

namespace TransactLint

def StatementKind.isModelled : StatementKind → Bool
  | .unmodelled _ | .alterTable _ .unknown => false
  | _ => true

theorem StatementKind.proper_of_isModelled {kind : StatementKind} (h : kind.isModelled = true) (ts : Terminals)
    (a b : Nat) :
    kind.Proper ts a b := by
  unfold StatementKind.Proper
  split
  · cases h
  · cases h
  · trivial

namespace Grammar

open TransactLint.Parser

variable {ts : Terminals} {inner : Level} {a b : Nat}

/-! ## What is modelled -/

theorem map_modelled {α : Type} {f : α → StatementKind} {p : Parser α} (hf : ∀ x, (f x).isModelled = true) :
    Yields ts (f <$> p) fun kind => kind.isModelled = true :=
  .map fun _ x _ _ => hf x

theorem createTable_modelled : Yields ts (createTable inner) fun kind => kind.isModelled = true :=
  .after fun _ => .after fun _ => .after fun _ => .after fun _ => .pure rfl

theorem createIndex_modelled : Yields ts (createIndex inner) fun kind => kind.isModelled = true :=
  .after fun _ => .after fun _ => .after fun _ => .after fun _ => .after fun _ => .after fun _ => .after fun _ =>
    .after fun _ => .pure rfl

theorem createView_modelled (mode : CreateMode) :
    Yields ts (createView inner mode) fun kind => kind.isModelled = true :=
  .after fun _ => .after fun _ => .after fun _ => .after fun _ => .after fun _ => .after fun _ => .after fun _ =>
    .ite (.after fun _ => .after fun _ => .pure rfl) (.pure rfl)

theorem createProcedure_modelled (mode : CreateMode) :
    Yields ts (createProcedure inner mode) fun kind => kind.isModelled = true := by
  have hbody : ∀ name parameters, Yields ts (do
      expectKeyword .AS
      let body ← statementList inner false
      pure (StatementKind.createProcedure mode name parameters body)) fun kind => kind.isModelled = true :=
    fun _ _ => .after fun _ => .after fun _ => .pure rfl
  have hrest : ∀ name parameters, Yields ts (do
      let _ ← listIf (consumeKeyword .WITH) (commaSeparated procedureOption)
      if ← atKeywordWord .FOR "REPLICATION" then skipTwo
      expectKeyword .AS
      let body ← statementList inner false
      pure (StatementKind.createProcedure mode name parameters body)) fun kind => kind.isModelled = true :=
    fun name parameters => .after fun _ => .after fun _ =>
      .ite (.after fun _ => hbody name parameters) (hbody name parameters)
  exact .after fun _ => .after fun name => .after fun _ => .after fun parameters =>
    .ite (.after fun _ => hrest name parameters) (hrest name parameters)

theorem createOrAlter_modelled (mode : CreateMode) (t : Token) :
    Yields ts (createOrAlter inner mode t) fun kind => kind.isModelled = true := by
  unfold createOrAlter
  split
  · exact createView_modelled mode
  · exact createProcedure_modelled mode
  · exact createProcedure_modelled mode
  · exact .failUnsupported

theorem create_modelled : Yields ts (create inner) fun kind => kind.isModelled = true := by
  refine .after fun _ => .after fun _ => .after fun t? => ?_
  cases t? with
  | none => exact .failExpected
  | some t =>
    refine .ite (createOrAlter_modelled _ t) ?_
    unfold createPlain
    split
    · exact createTable_modelled
    · exact createIndex_modelled
    · exact createIndex_modelled
    · exact createIndex_modelled
    · exact createIndex_modelled
    · exact createView_modelled _
    · exact createProcedure_modelled _
    · exact createProcedure_modelled _
    · exact .ite createIndex_modelled .failUnsupported
    · exact .failUnsupported

theorem setStatement_modelled : Yields ts (setStatement inner) fun kind => kind.isModelled = true := by
  refine .after fun _ => .after fun _ => .ite ?_ (.after fun _ => .ite .failExpected (.pure rfl))
  exact .after fun _ => .after fun _ => .after fun _ => .pure rfl

theorem begins_modelled : Yields ts (begins inner) fun kind => kind.isModelled = true := by
  refine .after fun _ => .ite (.after fun _ => map_modelled fun _ => rfl) (.after fun _ =>
    .ite ?_ (.after fun _ => ?_))
  · exact .after fun _ => .after fun _ => .after fun _ => .after fun _ => .after fun _ => .after
      fun _ => .after fun _ =>
      .after fun _ => .after fun _ => .pure rfl
  · exact .ite .failUnsupported (.after fun _ => .after fun _ => .after fun _ => .pure rfl)

theorem transactionEnd_modelled (kind : TransactionKind) :
    Yields ts (transactionEnd kind) fun kind => kind.isModelled = true :=
  .after fun _ => .after fun _ => .ite (map_modelled fun _ => rfl) (.pure rfl)

/-! ## What is passed over -/

def YieldsProper (ts : Terminals) (a : Nat) (p : Parser StatementKind) : Prop :=
  ∀ kind b, p ts a = .ok (kind, b) → kind.Proper ts a b

theorem YieldsProper.ofModelled {p : Parser StatementKind} (hp : Yields ts p fun kind => kind.isModelled = true) :
    YieldsProper ts a p :=
  fun _ b h => StatementKind.proper_of_isModelled (hp _ _ _ h) ts a b

theorem unmodelled_proper {t : Token} {rest : Parser Unit} (ht : ts.token? a = some t)
    (hrest : rest ∈ [skipStatement, skipToTerminator]) (hparen : t.kind ≠ .leftParen)
    (hgo : t.kind = .identifier → t.isWord "GO" = false) : YieldsProper ts a (unmodelled t rest) := by
  intro kind b h
  obtain ⟨_, mid, hskip, h⟩ := bind_ok h
  obtain ⟨_, mid', hrest', h⟩ := bind_ok h
  cases h
  refine ⟨t, ht, hparen, ?_, rest, hrest, by rw [bind_of_ok hskip, hrest']⟩
  rw [Bool.eq_false_iff]
  intro hseparator
  obtain ⟨u, hu, hkind, hword⟩ := Terminals.isSeparator_token hseparator
  cases ht.symm.trans hu
  rw [hgo hkind] at hword
  cases hword

theorem alterAction_passedOver (h : alterAction inner ts a = .ok (.unknown, b)) : PassedOver ts a b := by
  obtain ⟨added, mid, hadd, h⟩ := bind_ok h
  cases added with
  | true =>
    obtain ⟨definition, _, -, h⟩ := bind_ok h
    cases h
  | false =>
    cases consume_false hadd
    obtain ⟨_, mid, hskip, h⟩ := bind_ok h
    obtain ⟨_, mid', hrest, h⟩ := bind_ok h
    cases h
    exact ⟨skipStatement, List.mem_cons_self, by rw [bind_of_ok hskip, hrest]⟩

theorem atCheckOption_lt (h : atCheckOption ts a = true) : a + 1 < ts.size := by
  simp only [atCheckOption, Bool.and_eq_true, Bool.or_eq_true] at h
  rcases h.2 with h | h <;> exact isKind_lt h

theorem alterTable_ok {kind : StatementKind} (h : alterTable inner ts (a + 1) = .ok (kind, b)) : ∃ name m action,
    Stands ts (.objectName name) (a + 2) m ∧ alterAction inner ts (actionStart ts m) = .ok (action, b) ∧
      kind = .alterTable name action := by
  obtain ⟨_, mid, htable, h⟩ := bind_ok h
  obtain ⟨hkind, rfl⟩ := expect_ok htable
  obtain ⟨name, m, hname, h⟩ := bind_ok h
  have hstands : Stands ts (.objectName name) (a + 2) m := objectName_stands (isKind_lt hkind) hname
  rw [bind_look] at h
  split at h
  · rename_i hcheck
    rw [bind_of_ok (skipTwo_of_lt (atCheckOption_lt hcheck))] at h
    obtain ⟨action, _, haction, h⟩ := bind_ok h
    cases h
    exact ⟨name, m, action, hstands, by rw [actionStart, if_pos hcheck, haction], rfl⟩
  · rename_i hcheck
    obtain ⟨action, _, haction, h⟩ := bind_ok h
    cases h
    exact ⟨name, m, action, hstands, by rw [actionStart, if_neg hcheck, haction], rfl⟩

theorem alter_proper : YieldsProper ts a (alter inner) := by
  intro kind b h
  obtain ⟨_, mid, halter, h⟩ := bind_ok h
  obtain ⟨-, rfl⟩ := expect_ok halter
  rw [current, bind_look] at h
  cases ht : ts.token? (a + 1) with
  | none =>
    rw [ht] at h
    exact absurd h failExpected_ne_ok
  | some t =>
    rw [ht] at h
    by_cases htable : t.kind = .keyword .TABLE
    · simp only [if_pos htable] at h
      obtain ⟨name, m, action, hstands, haction, rfl⟩ := alterTable_ok h
      cases action with
      | add definition => trivial
      | unknown => exact ⟨m, hstands, alterAction_passedOver haction⟩
    · simp only [if_neg htable] at h
      exact StatementKind.proper_of_isModelled (createOrAlter_modelled _ t _ _ _ h) ts a b

theorem statementKind_proper {t : Token} (ht : ts.token? a = some t) :
    YieldsProper ts a (statementKind inner t) := by
  have hkeyword : ∀ {word : Keyword} {rest}, t.kind = .keyword word →
      rest ∈ [skipStatement, skipToTerminator] → YieldsProper ts a (unmodelled t rest) := by
    intro word rest hkind hrest
    exact unmodelled_proper ht hrest (by simp [hkind]) (by simp [hkind])
  unfold statementKind
  split
  · exact .ofModelled (map_modelled fun _ => rfl)
  · exact .ofModelled (map_modelled fun _ => rfl)
  · exact .ofModelled (map_modelled fun _ => rfl)
  · exact .ofModelled (map_modelled fun _ => rfl)
  · exact .ofModelled (map_modelled fun _ => rfl)
  · exact .ofModelled (map_modelled fun _ => rfl)
  · exact .ofModelled create_modelled
  · exact alter_proper
  · exact .ofModelled (.after fun _ => .after fun _ => .after fun _ => .after fun _ => .after fun _ => .pure rfl)
  · exact .ofModelled (.after fun _ => .after fun _ => map_modelled fun _ => rfl)
  · exact .ofModelled (map_modelled fun _ => rfl)
  · exact .ofModelled (map_modelled fun _ => rfl)
  · exact .ofModelled (.after fun _ => map_modelled fun _ => rfl)
  · exact .ofModelled setStatement_modelled
  · exact .ofModelled (.after fun _ => .after fun _ => .after fun _ => .after fun _ => .pure rfl)
  · exact .ofModelled (.after fun _ => .after fun _ => .after fun _ => .pure rfl)
  · exact .ofModelled begins_modelled
  · exact .ofModelled (transactionEnd_modelled _)
  · exact .ofModelled (transactionEnd_modelled _)
  · exact .ofModelled (.after fun _ => map_modelled fun _ => rfl)
  · exact .ofModelled (.after fun _ => map_modelled fun _ => rfl)
  · exact .ofModelled (.after fun _ => .pure rfl)
  · exact .ofModelled (.after fun _ => .pure rfl)
  · exact hkeyword ‹_› (by simp)
  · exact hkeyword ‹_› (by simp)
  · exact hkeyword ‹_› (by simp)
  · exact hkeyword ‹_› (by simp)
  · exact hkeyword ‹_› (by simp)
  · rename_i hkind
    split
    · rename_i hthrow
      exact unmodelled_proper ht (by simp) (by simp [hkind]) fun _ => Token.not_isWord_of_isWord hthrow (by decide)
    · exact .ofModelled .failUnsupported
  · exact .ofModelled .failUnsupported

theorem statement_proper (hinner : inner.Reads ts) :
    Yields ts (statement inner) fun s => (Node.statement s).Proper ts := by
  intro a s b h
  obtain ⟨kind, hkind, rfl⟩ := spanned_ok h
  rw [current, bind_look] at hkind
  cases ht : ts.token? a with
  | none =>
    rw [ht] at hkind
    exact absurd hkind failExpected_ne_ok
  | some t =>
    rw [ht] at hkind
    have hlt : a < ts.size := token?_isSome (by rw [ht]; rfl)
    exact ⟨a, b, (statement_stands hinner (Nat.le_of_lt hlt) h).1, statementKind_proper ht kind b hkind⟩

end Grammar

end TransactLint
