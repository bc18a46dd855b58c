import TransactLint.Proofs.Excerpt.Parser
import TransactLint.Proofs.Ladder

/-!
# Expressions of an excerpt
-/

namespace TransactLint.Grammar

open TransactLint.Parser

variable {ts ts' : Terminals} {ρ : Excerpt ts ts'} {base limit pos : Nat}

/-! ## Names and types -/

theorem anyIdent_persists {owed : Ident → Bool} : Persists ρ base limit anyIdent anyIdent owed := by
  refine .spanned fun pos _ h => ?_
  cases ht : ts.token? pos with
  | some t => exact .take ht (.pure (token?_isSome (by rw [ht]; rfl)) rfl)
  | none =>
    obtain rfl : pos = ts.size := Nat.le_antisymm h (by simpa [Terminals.token?] using ht)
    intro pos' t hread
    rw [bind_of_ok take_at_end] at hread
    exact absurd hread failExpected_ne_ok

theorem ident_persists {owed : Ident → Bool} : Persists ρ base limit ident ident owed :=
  .lookInside (fun _ _ h => ρ.isIdentifier_eq h) fun _ => .ite anyIdent_persists .failExpected

theorem variableName_persists {owed : Ident → Bool} : Persists ρ base limit variableName variableName owed :=
  .look (fun _ _ h => ρ.isKind_eq h (by decide)) fun _ => .ite anyIdent_persists .failExpected

theorem nextPart_persists : Persists ρ base limit nextPart nextPart Option.isSome := by
  refine .optionLook (fun pos _ h => ?_) ?_ rfl
  · refine and_eq_and (ρ.isKind_eq h (by decide)) fun hperiod => ?_
    rw [nextIs_eq (isKind_lt hperiod) (by decide)]
  · exact (Persists.repeatWhile (consume_persists (by decide))).bind fun _ => ident_persists

theorem objectName_persists {owed : ObjectName → Bool} : Persists ρ base limit objectName objectName owed := by
  refine .spanned (.look (fun _ _ h => ρ.isKind_eq h (by decide)) fun _ => ?_)
  have hrest : ∀ first : Ident, Persists ρ (base + 1) limit (do
      let rest ← many nextPart
      pure (first :: rest)) (do
      let rest ← many nextPart
      pure (first :: rest)) fun _ => false :=
    fun first => (Persists.many nextPart_persists).bind fun _ => .pure rfl
  exact .ite (variableName_persists.then hrest) (ident_persists.then hrest)

theorem identList_persists {owed : List Ident → Bool} : Persists ρ base limit identList identList owed := by
  refine (expect_persists _).then fun _ => (Persists.commaSeparated fun _ => ident_persists).bind fun names => ?_
  exact (expect_persists _).bind fun _ => .pure rfl

theorem typeArgument_persists {owed : String → Bool} : Persists ρ base limit typeArgument typeArgument owed := by
  refine .current (fun pos t _ ht => ?_) fun _ _ => failExpected_ne_ok
  have hlt := token?_isSome (by rw [ht]; rfl)
  dsimp only
  split
  · exact (skip_persistsAt hlt).then fun _ => .pure rfl
  · exact (skip_persistsAt hlt).then fun _ => .pure rfl
  · exact Persists.failExpected.here (Nat.le_of_lt hlt)

theorem dataType_persists {owed : DataType → Bool} : Persists ρ base limit dataType dataType owed := by
  refine .spanned (objectName_persists.then fun name => ?_)
  refine .bind (.listIf (consume_persists (by decide)) ?_) fun arguments => .pure rfl
  refine (Persists.commaSeparated fun _ => typeArgument_persists).bind fun arguments => ?_
  exact (expect_persists _).bind fun _ => .pure rfl

structure Level.Persists (ρ : Excerpt ts ts') (inner inner' : Level) : Prop where
  expression : ∀ base limit, Parser.Persists ρ base limit inner.expression inner'.expression fun _ => true
  negated : ∀ base limit, Parser.Persists ρ base limit inner.negated inner'.negated fun _ => true
  signed : ∀ base limit, Parser.Persists ρ base limit inner.signed inner'.signed fun _ => true
  query : ∀ base limit, Parser.Persists ρ base limit inner.query inner'.query fun _ => true

variable {inner inner' : Level} (hinner : inner.Persists ρ inner')
include hinner

theorem expressionList_persists {owed : List Expr → Bool} :
    Persists ρ base limit (expressionList inner) (expressionList inner') owed :=
  .commaSeparated fun _ => hinner.expression _ limit

/-! ## Ordering -/

omit hinner in
theorem sortDirection_persists : Persists ρ base limit sortDirection sortDirection fun _ => false := by
  refine .whether (consumeKeyword_persists _) (.pure rfl) ?_
  exact .whether (consumeKeyword_persists _) (.pure rfl) (.pure rfl)

theorem orderItem_persists {owed : OrderItem → Bool} :
    Persists ρ base limit (orderItem inner) (orderItem inner') owed :=
  .spanned ((hinner.expression _ limit).then fun _ => sortDirection_persists.bind fun _ => .pure rfl)

theorem orderBy_persists {owed : List OrderItem → Bool} :
    Persists ρ base limit (orderBy inner) (orderBy inner') owed :=
  (expectKeyword_persists _).then fun _ => (expectKeyword_persists _).bind fun _ =>
    .commaSeparated fun _ => orderItem_persists hinner

/-! ## Calls -/

theorem callArguments_persists {owed : Bool × List Expr → Bool} :
    Persists ρ base limit (callArguments inner) (callArguments inner') owed := by
  have hend : ∀ base, ∀ x : Bool × List Expr, Persists ρ base limit (do
      expect .rightParen
      pure x) (do
      expect .rightParen
      pure x) fun _ => true :=
    fun _ x => (expect_persists _).then fun _ => .pure rfl
  have harguments : ∀ distinct : Bool, Persists ρ (base + 1) limit (do
      let arguments ← expressionList inner
      let x ← pure (distinct, arguments)
      expect .rightParen
      pure x) (do
      let arguments ← expressionList inner'
      let x ← pure (distinct, arguments)
      expect .rightParen
      pure x) fun _ => true :=
    fun distinct => (expressionList_persists hinner).then fun arguments =>
      .bind (.pure rfl) fun x => (hend _ x).free
  refine (expect_persists _).then fun _ => .lookInside (fun _ _ h => ρ.isKind_inside h _) fun _ => .ite ?_ ?_
  · exact .bind (.pure rfl) (hend _)
  · refine (consumeKeyword_persists _).free.bind fun distinct => .ite ?_ ?_
    · exact .bind (.pure rfl) fun _ => harguments distinct
    · exact (consumeKeyword_persists _).free.bind fun _ => harguments distinct

theorem withinGroup_persists :
    Persists ρ base limit (withinGroup inner) (withinGroup inner') fun _ => false := by
  refine .listLook (fun _ _ h => wordKeyword_eq h _ (by decide)) ?_
  refine .skipTwo ((expect_persists _).then fun _ => (orderBy_persists hinner).bind fun items => ?_)
  exact (expect_persists _).bind fun _ => .pure rfl

/-- What is skipped ends before a parenthesis, so it does not go to the end of the excerpt. -/
theorem windowBody_persists {owed : Window → Bool} :
    Persists ρ base limit (windowBody inner) (windowBody inner') owed := by
  refine .spanned ((expect_persists _).then fun _ => ?_)
  refine .bind (.listLook (fun _ _ h => wordKeyword_eq h _ (by decide)) ?_) fun partition => ?_
  · exact .skipTwo (expressionList_persists hinner)
  refine .bind (.listLook (fun _ _ h => ρ.isKeyword_eq h _) (orderBy_persists hinner)) fun order => ?_
  refine .before (Nat.succ_pos _) (fun hsize => skipUntil_persists hsize fun _ _ h => ρ.isKind_inside h _)
    fun _ => ?_
  exact (expect_persists _).then fun _ => .pure rfl

theorem call_persists (name : ObjectName) {owed : ExprKind → Bool} :
    Persists ρ base limit (call inner name) (call inner' name) owed := by
  refine (callArguments_persists hinner).then fun x => (withinGroup_persists hinner).bind fun group => ?_
  exact .bind (.optionIf (consumeKeyword_persists _) (windowBody_persists hinner) rfl) fun window => .pure rfl

theorem castCall_persists (function : ConversionFunction) {owed : ExprKind → Bool} :
    Persists ρ base limit (castCall inner function) (castCall inner' function) owed := by
  refine .skip ((expect_persists _).then fun _ => (hinner.expression _ limit).free.bind fun operand => ?_)
  refine (expectKeyword_persists _).bind fun _ => dataType_persists.bind fun target => ?_
  exact (expect_persists _).bind fun _ => .pure rfl

theorem convertCall_persists (function : ConversionFunction) {owed : ExprKind → Bool} :
    Persists ρ base limit (convertCall inner function) (convertCall inner' function) owed := by
  refine .skip ((expect_persists _).then fun _ => dataType_persists.bind fun target => ?_)
  refine (expect_persists _).bind fun _ => (hinner.expression _ limit).free.bind fun operand => ?_
  refine .bind (.optionIf (consume_persists (by decide)) (hinner.expression _ limit).free rfl) fun style => ?_
  exact (expect_persists _).bind fun _ => .pure rfl

/-! ## Primary expressions -/

omit hinner in
theorem literal_persistsAt (h : pos < ts.size) (kind : LiteralKind) (t : Token) {owed : ExprKind → Bool} :
    PersistsAt ρ limit pos (literal kind t) (literal kind t) owed :=
  (skip_persistsAt h).then fun _ => .pure rfl

theorem whenClause_persists {owed : WhenClause → Bool} :
    Persists ρ base limit (whenClause inner) (whenClause inner') owed := by
  refine .spanned ((expectKeyword_persists _).then fun _ => (hinner.expression _ limit).free.bind
    fun condition => ?_)
  exact (expectKeyword_persists _).bind fun _ => (hinner.expression _ limit).free.bind fun result => .pure rfl

theorem choice_persists {owed : ExprKind → Bool} :
    Persists ρ base limit (choice inner) (choice inner') owed := by
  refine (expectKeyword_persists _).then fun _ => .look (fun _ _ h => ρ.isKeyword_eq h _) fun searched => ?_
  refine .bind (.optionPure (hinner.expression _ limit) rfl) fun operand => ?_
  refine .bind (.many (.optionLook (fun _ _ h => ρ.isKeyword_eq h _) (whenClause_persists hinner) rfl))
    fun branches => ?_
  refine .ite .failExpected ?_
  refine .bind (.optionIf (consumeKeyword_persists _) (hinner.expression _ limit).free rfl) fun otherwise => ?_
  exact (expectKeyword_persists _).bind fun _ => .pure rfl

theorem parenthesized_persists {owed : ExprKind → Bool} :
    Persists ρ base limit (parenthesized inner) (parenthesized inner') owed := by
  refine (expect_persists _).then fun _ => .look (fun _ _ h => ρ.startsQuery_eq h) fun _ => .ite ?_ ?_
  · exact (hinner.query _ limit).free.bind fun query => (expect_persists _).bind fun _ => .pure rfl
  · exact (hinner.expression _ limit).free.bind fun expr => (expect_persists _).bind fun _ => .pure rfl

theorem existence_persists {owed : ExprKind → Bool} :
    Persists ρ base limit (existence inner) (existence inner') owed := by
  refine .skip ((expect_persists _).then fun _ => (hinner.query _ limit).free.bind fun query => ?_)
  exact (expect_persists _).bind fun _ => .pure rfl

theorem columnOrCall_persists {owed : ExprKind → Bool} :
    Persists ρ base limit (columnOrCall inner) (columnOrCall inner') owed := by
  refine objectName_persists.then fun name => .look (fun _ _ h => ρ.isKind_eq h (by decide)) fun _ => ?_
  exact .ite (call_persists hinner name) (.pure rfl)

theorem keywordCall_persists {owed : ExprKind → Bool} :
    Persists ρ base limit (keywordCall inner) (keywordCall inner') owed := by
  refine .lookInside (fun _ _ h => nextIs_eq h (by decide)) fun _ => .ite ?_ .failExpected
  exact anyIdent_persists.then fun name => call_persists hinner (.ofIdent name)

theorem wordExpression_persists (t : Token) {owed : ExprKind → Bool} :
    Persists ρ base limit (wordExpression inner t) (wordExpression inner' t) owed := by
  refine .lookInside (fun _ _ h => nextIs_eq h (by decide)) fun isCall => .ite (castCall_persists hinner _) ?_
  exact .ite (convertCall_persists hinner _) (columnOrCall_persists hinner)

theorem primaryKind_persistsAt (h : pos < ts.size) (t : Token) {owed : ExprKind → Bool} :
    PersistsAt ρ limit pos (primaryKind inner t) (primaryKind inner' t) owed := by
  have hle := Nat.le_of_lt h
  unfold primaryKind
  split
  · exact literal_persistsAt h _ t
  · exact literal_persistsAt h _ t
  · exact literal_persistsAt h _ t
  · exact literal_persistsAt h _ t
  · exact literal_persistsAt h _ t
  · exact literal_persistsAt h _ t
  · exact (variableName_persists.here hle).then fun _ => .pure rfl
  · exact (skip_persistsAt h).then fun _ => .pure rfl
  · exact (parenthesized_persists hinner).here hle
  · exact (choice_persists hinner).here hle
  · exact (castCall_persists hinner _).here hle
  · exact (convertCall_persists hinner _).here hle
  · exact (existence_persists hinner).here hle
  · exact (keywordCall_persists hinner).here hle
  · exact (keywordCall_persists hinner).here hle
  · exact (wordExpression_persists hinner t).here hle
  · exact (columnOrCall_persists hinner).here hle
  · exact Persists.failExpected.here hle

theorem primary_persists {owed : Expr → Bool} : Persists ρ base limit (primary inner) (primary inner') owed :=
  .spanned (.current (fun _ t _ ht => primaryKind_persistsAt hinner (token?_isSome (by rw [ht]; rfl)) t)
    fun _ _ => failExpected_ne_ok)

/-! ## Operators -/

omit hinner in
/-- Neither a closing parenthesis nor a name is an operator. -/
theorem chainOperator_persists {table : TokenKind → Option BinaryOperator} (hparen : table .rightParen = none)
    (hident : table .identifier = none) :
    Persists ρ base limit (chainOperator table) (chainOperator table) fun _ => false := by
  intro pos _ h
  rcases Nat.lt_or_eq_of_le h with hlt | rfl
  · refine .look (ρ.token?_eq hlt) ?_
    cases ts.token? pos with
    | none => exact .pure h rfl
    | some t =>
      dsimp only
      cases table t.kind with
      | none => exact .pure h rfl
      | some op =>
        refine .look (nextIs_eq hlt (by decide)) (.ite (fun _ => .pure h rfl) fun _ => ?_)
        exact (skip_persistsAt hlt).then fun _ => .pure rfl
  · -- what ends an excerpt is a parenthesis or a word, and neither is an operator
    intro pos' op? hop
    rw [chainOperator_of_none (by rw [Terminals.token?_of_le (Nat.le_refl _)]; rfl)] at hop
    cases hop
    refine ⟨h, h, nofun, fun _ => chainOperator_of_none ?_⟩
    cases ht : ts'.token? (ts.size + ρ.shift) with
    | none => rfl
    | some t => rcases ρ.ends_kind ht with hkind
    | ⟨hkind, _⟩ <;> simp only [Option.bind_some, hkind, hparen, hident]

omit hinner in
theorem keywordOperator_persists (word : Keyword) (op : BinaryOperator) :
    Persists ρ base limit (keywordOperator word op) (keywordOperator word op) fun _ => false :=
  .optionIf (consumeKeyword_persists word) (.pure rfl) rfl

theorem unary_persists {owed : Expr → Bool} : Persists ρ base limit (unary inner) (unary inner') owed := by
  refine .lookInside (fun _ _ h => ρ.token?_eq h) fun t? => ?_
  split
  · exact .spanned (.skip (hinner.signed _ limit))
  · exact primary_persists hinner

theorem multiplicative_persists {owed : Expr → Bool} :
    Persists ρ base limit (multiplicative inner) (multiplicative inner') owed :=
  .leftChain (fun _ => unary_persists hinner) fun _ => chainOperator_persists rfl rfl

theorem additive_persists {owed : Expr → Bool} : Persists ρ base limit (additive inner) (additive inner') owed :=
  .leftChain (fun _ => multiplicative_persists hinner) fun _ => chainOperator_persists rfl rfl

/-! ## Predicates -/

omit hinner in
theorem comparisonAt_persists (h : pos ≤ ts.size) : comparisonAt ts' (pos + ρ.shift) = comparisonAt ts pos := by
  unfold comparisonAt
  rcases Nat.lt_or_eq_of_le h with hlt | rfl
  · rw [ρ.token?_eq hlt, nextIs_eq hlt (by decide), nextIs_eq hlt (by decide)]
  · rw [Terminals.token?_of_le (Nat.le_refl _)]
    cases ht : ts'.token? (ts.size + ρ.shift) with
    | none => rfl
    | some t => rcases ρ.ends_kind ht with hkind | ⟨hkind, _⟩ <;> simp only [hkind]

omit hinner in
theorem atNegatedPredicate_persists (h : pos ≤ ts.size) :
    atNegatedPredicate ts' (pos + ρ.shift) = atNegatedPredicate ts pos := by
  refine and_eq_and (ρ.isKeyword_eq h _) fun hnot => ?_
  have hnext : ∀ word, ts'.isKeyword (pos + ρ.shift + 1) word = ts.isKeyword (pos + 1) word :=
    fun word => nextIs_eq (isKind_lt hnot) (by simp)
  rw [hnext, hnext, hnext]

section
variable (operand : Expr) (negated : Bool) {owed : ExprKind → Bool}

theorem inPredicate_persists :
    Persists ρ base limit (inPredicate inner operand negated) (inPredicate inner' operand negated) owed := by
  refine (expect_persists _).then fun _ => .look (fun _ _ h => ρ.startsQuery_eq h) fun _ => .ite ?_ ?_
  · exact (hinner.query _ limit).free.bind fun query => (expect_persists _).bind fun _ => .pure rfl
  · exact (expressionList_persists hinner).bind fun list => (expect_persists _).bind fun _ => .pure rfl

theorem betweenPredicate_persists :
    Persists ρ base limit (betweenPredicate inner operand negated) (betweenPredicate inner' operand negated)
      owed := by
  refine (additive_persists hinner).then fun low => (expectKeyword_persists _).bind fun _ => ?_
  exact (additive_persists hinner).bind fun high => .pure rfl

theorem likePredicate_persists :
    Persists ρ base limit (likePredicate inner operand negated) (likePredicate inner' operand negated) owed := by
  refine (additive_persists hinner).then fun pattern => ?_
  exact .bind (.optionIf (consumeKeyword_persists _) (additive_persists hinner) rfl) fun escape => .pure rfl

omit hinner in
theorem nullPredicate_persists : Persists ρ base limit (nullPredicate operand) (nullPredicate operand) owed :=
  (consumeKeyword_persists _).free.bind fun _ => (expectKeyword_persists _).then fun _ => .pure rfl

theorem predicateTail_persists :
    Persists ρ base limit (predicateTail inner operand) (predicateTail inner' operand) fun _ => false := by
  intro pos _ h
  refine .look (comparisonAt_persists h) ?_
  cases hop : comparisonAt ts pos with
  | some x =>
    obtain ⟨hlt, hlt'⟩ := comparisonAt_lt hop
    have hright : Persists ρ (pos + 1) limit (do
        let right ← additive inner
        pure (some (ExprKind.binary x.1 operand right))) (do
        let right ← additive inner'
        pure (some (ExprKind.binary x.1 operand right))) fun _ => false :=
      (additive_persists hinner).bind fun right => .pure rfl
    refine .ite (fun hsize => ?_) fun _ => ?_
    · exact (skipTwo_persistsAt (hlt' hsize)).then fun _ => hright
    · exact (skip_persistsAt hlt).then fun _ => hright
  | none =>
    have hrest : ∀ base, ∀ negated : Bool, Persists ρ base limit (do
        if ← consumeKeyword .IN then some <$> inPredicate inner operand negated
        else if ← consumeKeyword .BETWEEN then some <$> betweenPredicate inner operand negated
        else if ← consumeKeyword .LIKE then some <$> likePredicate inner operand negated
        else pure none) (do
        if ← consumeKeyword .IN then some <$> inPredicate inner' operand negated
        else if ← consumeKeyword .BETWEEN then some <$> betweenPredicate inner' operand negated
        else if ← consumeKeyword .LIKE then some <$> likePredicate inner' operand negated
        else pure none) fun _ => false := by
      intro base negated
      refine .whether (consumeKeyword_persists _) (inPredicate_persists hinner operand negated).map ?_
      refine .whether (consumeKeyword_persists _) (betweenPredicate_persists hinner operand negated).map ?_
      exact .whether (consumeKeyword_persists _) (likePredicate_persists hinner operand negated).map (.pure rfl)
    refine Persists.here (.whether (consumeKeyword_persists _) (nullPredicate_persists operand).map ?_) h
    intro pos _ h
    refine .look (atNegatedPredicate_persists h) (.ite (fun hnot => ?_) fun _ => (hrest _ _).here h)
    exact (skip_persistsAt (isKind_lt (Bool.and_eq_true_iff.mp hnot).1)).then fun _ => hrest _ _

end

theorem predicate_persists {owed : Expr → Bool} :
    Persists ρ base limit (predicate inner) (predicate inner') owed := by
  refine .position fun start _ => (additive_persists hinner).then fun operand => ?_
  refine (predicateTail_persists hinner operand).bind fun kind? => ?_
  cases kind? with
  | none => exact .pure rfl
  | some kind => exact .spanFrom (Nat.lt_succ_self _) fun span => .pure rfl

theorem negation_persists {owed : Expr → Bool} :
    Persists ρ base limit (negation inner) (negation inner') owed := by
  refine .look (fun _ _ h => ρ.isKeyword_eq h _) fun _ => .ite ?_ (predicate_persists hinner)
  exact .spanned (.skip (hinner.negated _ limit))

theorem conjunction_persists {owed : Expr → Bool} :
    Persists ρ base limit (conjunction inner) (conjunction inner') owed :=
  .leftChain (fun _ => negation_persists hinner) fun _ => keywordOperator_persists _ _

theorem disjunction_persists {owed : Expr → Bool} :
    Persists ρ base limit (disjunction inner) (disjunction inner') owed :=
  .leftChain (fun _ => conjunction_persists hinner) fun _ => keywordOperator_persists _ _

end TransactLint.Grammar
