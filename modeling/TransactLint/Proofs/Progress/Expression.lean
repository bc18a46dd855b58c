import TransactLint.Grammar.Expression
import TransactLint.Proofs.Progress.Parser

/-!
# Progress in expressions

Nothing in an expression is nested in it before a terminal of the expression has been read, so expressions agree
where what is nested in them agrees from the next position on.
-/

namespace TransactLint.Grammar

open TransactLint.Parser

variable {ts : Terminals} {R : FaithfulRepetition ts} {base pos : Nat}

/-! ## Names and types -/

theorem anyIdent_agrees {owed : Ident → Bool} : Agrees ts base anyIdent anyIdent owed :=
  .spanned (.take (fun _ => .pure rfl) .failExpected)

theorem ident_agrees {owed : Ident → Bool} : Agrees ts base ident ident owed :=
  .look fun _ => .ite anyIdent_agrees .failExpected

theorem variableName_agrees {owed : Ident → Bool} : Agrees ts base variableName variableName owed :=
  .look fun _ => .ite anyIdent_agrees .failExpected

theorem nextPart_agrees : Agrees ts base nextPart (@nextPart R) Option.isSome := by
  apply Agrees.optionLook _ rfl
  exact (Agrees.repeatWhile (consume_agrees _)).bind fun _ => ident_agrees

theorem objectName_agrees {owed : ObjectName → Bool} : Agrees ts base objectName (@objectName R) owed := by
  have hrest : ∀ first : Ident, Agrees ts (base + 1) (do
      let rest ← many nextPart
      pure (first :: rest)) (do
      let rest ← @many _ R (@nextPart R)
      pure (first :: rest)) fun _ => false :=
    fun first => (Agrees.many nextPart_agrees).bind fun _ => .pure rfl
  apply Agrees.spanned
  exact .look fun _ => .ite (variableName_agrees.then hrest) (ident_agrees.then hrest)

theorem identList_agrees {owed : List Ident → Bool} : Agrees ts base identList (@identList R) owed := by
  refine (expect_agrees _).then fun _ => (Agrees.commaSeparated ident_agrees).bind fun names => ?_
  exact (expect_agrees _).bind fun _ => .pure rfl

theorem typeArgument_agrees {owed : String → Bool} : Agrees ts base typeArgument typeArgument owed := by
  apply Agrees.current _ .failExpected
  intro pos t _ hlt
  dsimp only
  split
  · exact (skip_agreesAt hlt).then fun _ => .pure rfl
  · exact (skip_agreesAt hlt).then fun _ => .pure rfl
  · exact Agrees.failExpected.here (Nat.le_of_lt hlt)

theorem dataType_agrees {owed : DataType → Bool} : Agrees ts base dataType (@dataType R) owed := by
  apply Agrees.spanned
  refine objectName_agrees.then fun name => .bind (.listIf (consume_agrees _) ?_) fun arguments => .pure rfl
  refine (Agrees.commaSeparated typeArgument_agrees).bind fun arguments => ?_
  exact (expect_agrees _).bind fun _ => .pure rfl

/-! ## What is nested -/

structure Level.Agrees (ts : Terminals) (base : Nat) (inner inner' : Level) : Prop where
  expression : Parser.Agrees ts base inner.expression inner'.expression fun _ => true
  negated : Parser.Agrees ts base inner.negated inner'.negated fun _ => true
  signed : Parser.Agrees ts base inner.signed inner'.signed fun _ => true
  query : Parser.Agrees ts base inner.query inner'.query fun _ => true

variable {inner inner' : Level}

theorem Level.Agrees.mono {base' : Nat} (h : inner.Agrees ts base inner') (hbase : base ≤ base') :
    inner.Agrees ts base' inner' :=
  ⟨h.expression.mono hbase, h.negated.mono hbase, h.signed.mono hbase, h.query.mono hbase⟩

theorem Level.Agrees.later (h : inner.Agrees ts base inner') : inner.Agrees ts (base + 1) inner' :=
  h.mono (Nat.le_succ _)

theorem Level.Agrees.past (h : ts.size < base) : inner.Agrees ts base inner' :=
  ⟨.past h, .past h, .past h, .past h⟩

theorem expressionList_agrees (hinner : inner.Agrees ts base inner') {owed : List Expr → Bool} :
    Agrees ts base (expressionList inner) (@expressionList R inner') owed :=
  .commaSeparated hinner.expression

/-! ## Ordering -/

theorem sortDirection_agrees : Agrees ts base sortDirection sortDirection fun _ => false := by
  apply Agrees.whether (consumeKeyword_agrees _) (.pure rfl)
  exact .whether (consumeKeyword_agrees _) (.pure rfl) (.pure rfl)

theorem orderItem_agrees (hinner : inner.Agrees ts base inner') {owed : OrderItem → Bool} :
    Agrees ts base (orderItem inner) (orderItem inner') owed :=
  .spanned (hinner.expression.then fun _ => sortDirection_agrees.bind fun _ => .pure rfl)

section
variable (hinner : inner.Agrees ts (base + 1) inner')
include hinner

theorem orderBy_agrees {owed : List OrderItem → Bool} : Agrees ts base (orderBy inner) (@orderBy R inner') owed :=
  (expectKeyword_agrees _).then fun _ => (expectKeyword_agrees _).bind fun _ =>
    .commaSeparated (orderItem_agrees hinner)

/-! ## Calls -/

theorem callArguments_agrees {owed : Bool × List Expr → Bool} :
    Agrees ts base (callArguments inner) (@callArguments R inner') owed := by
  have hend : ∀ x : Bool × List Expr, Agrees ts (base + 1) (do
      expect .rightParen
      pure x) (do
      expect .rightParen
      pure x) fun _ => false :=
    fun x => (expect_agrees _).bind fun _ => .pure rfl
  have harguments : ∀ distinct : Bool, Agrees ts (base + 1) (do
      let arguments ← expressionList inner
      let x ← pure (distinct, arguments)
      expect .rightParen
      pure x) (do
      let arguments ← @expressionList R inner'
      let x ← pure (distinct, arguments)
      expect .rightParen
      pure x) fun _ => false :=
    fun distinct => (expressionList_agrees hinner).bind fun arguments => .bind (.pure rfl) hend
  refine (expect_agrees _).then fun _ => .look fun _ => .ite (.bind (.pure rfl) hend) ?_
  refine (consumeKeyword_agrees _).free.bind fun distinct => .ite ?_ ?_
  · exact .bind (.pure rfl) fun _ => harguments distinct
  · exact (consumeKeyword_agrees _).free.bind fun _ => harguments distinct

theorem withinGroup_agrees : Agrees ts base (withinGroup inner) (@withinGroup R inner') fun _ => false := by
  apply Agrees.listLook
  refine skipTwo_agrees.bind fun _ => (expect_agrees _).then fun _ => ?_
  exact (orderBy_agrees hinner).later.bind fun items => (expect_agrees _).bind fun _ => .pure rfl

theorem windowBody_agrees {owed : Window → Bool} :
    Agrees ts base (windowBody inner) (@windowBody R inner') owed := by
  apply Agrees.spanned
  refine (expect_agrees _).then fun _ => .bind (.listLook ?_) fun partition => ?_
  · exact skipTwo_agrees.bind fun _ => expressionList_agrees hinner
  refine .bind (.listLook (orderBy_agrees hinner).later) fun order => (skipUntil_agrees _).bind fun _ => ?_
  exact (expect_agrees _).bind fun _ => .pure rfl

theorem call_agrees (name : ObjectName) {owed : ExprKind → Bool} :
    Agrees ts base (call inner name) (@call R inner' name) owed := by
  refine (callArguments_agrees hinner).then fun x => (withinGroup_agrees hinner).later.bind fun group => ?_
  have hwindow : Agrees ts (base + 1) (optionIf (consumeKeyword .OVER) (windowBody inner))
      (optionIf (consumeKeyword .OVER) (@windowBody R inner')) fun _ => false :=
    .optionIf (consumeKeyword_agrees _) (windowBody_agrees hinner).later.later rfl
  exact hwindow.bind fun window => .pure rfl

theorem castCall_agrees (function : ConversionFunction) {owed : ExprKind → Bool} :
    Agrees ts base (castCall inner function) (@castCall R inner' function) owed := by
  refine skip_agrees.bind fun _ => (expect_agrees _).then fun _ => hinner.expression.free.bind fun operand => ?_
  refine (expectKeyword_agrees _).bind fun _ => dataType_agrees.bind fun target => ?_
  exact (expect_agrees _).bind fun _ => .pure rfl

theorem convertCall_agrees (function : ConversionFunction) {owed : ExprKind → Bool} :
    Agrees ts base (convertCall inner function) (@convertCall R inner' function) owed := by
  refine skip_agrees.bind fun _ => (expect_agrees _).then fun _ => dataType_agrees.bind fun target => ?_
  refine (expect_agrees _).bind fun _ => hinner.expression.free.bind fun operand => ?_
  refine .bind (.optionIf (consume_agrees _) hinner.expression.later.free rfl) fun style => ?_
  exact (expect_agrees _).bind fun _ => .pure rfl

/-! ## Primary expressions -/

omit hinner in
theorem literal_agreesAt (h : pos < ts.size) (kind : LiteralKind) (t : Token) {owed : ExprKind → Bool} :
    AgreesAt ts pos (literal kind t) (literal kind t) owed :=
  (skip_agreesAt h).then fun _ => .pure rfl

theorem whenClause_agrees {owed : WhenClause → Bool} :
    Agrees ts base (whenClause inner) (whenClause inner') owed := by
  apply Agrees.spanned
  refine (expectKeyword_agrees _).then fun _ => hinner.expression.free.bind fun condition => ?_
  exact (expectKeyword_agrees _).bind fun _ => hinner.expression.free.bind fun result => .pure rfl

theorem choice_agrees {owed : ExprKind → Bool} : Agrees ts base (choice inner) (@choice R inner') owed := by
  refine (expectKeyword_agrees _).then fun _ => .look fun searched => ?_
  refine .bind (.optionPure hinner.expression rfl) fun operand => ?_
  refine .bind (.many (.optionLook (whenClause_agrees hinner).later rfl)) fun branches => .ite .failExpected ?_
  refine .bind (.optionIf (consumeKeyword_agrees _) hinner.expression.later.free rfl) fun otherwise => ?_
  exact (expectKeyword_agrees _).bind fun _ => .pure rfl

theorem parenthesized_agrees {owed : ExprKind → Bool} :
    Agrees ts base (parenthesized inner) (parenthesized inner') owed := by
  refine (expect_agrees _).then fun _ => .look fun _ => .ite ?_ ?_
  · exact hinner.query.free.bind fun query => (expect_agrees _).bind fun _ => .pure rfl
  · exact hinner.expression.free.bind fun expr => (expect_agrees _).bind fun _ => .pure rfl

theorem existence_agrees {owed : ExprKind → Bool} : Agrees ts base (existence inner) (existence inner') owed := by
  refine skip_agrees.bind fun _ => (expect_agrees _).then fun _ => hinner.query.free.bind fun query => ?_
  exact (expect_agrees _).bind fun _ => .pure rfl

theorem columnOrCall_agrees {owed : ExprKind → Bool} :
    Agrees ts base (columnOrCall inner) (@columnOrCall R inner') owed :=
  objectName_agrees.then fun name => .look fun _ => .ite (call_agrees hinner name).later (.pure rfl)

theorem keywordCall_agrees {owed : ExprKind → Bool} :
    Agrees ts base (keywordCall inner) (@keywordCall R inner') owed :=
  .look fun _ => .ite (anyIdent_agrees.then fun name => (call_agrees hinner (.ofIdent name)).later) .failExpected

theorem wordExpression_agrees (t : Token) {owed : ExprKind → Bool} :
    Agrees ts base (wordExpression inner t) (@wordExpression R inner' t) owed :=
  .look fun _ => .ite (castCall_agrees hinner _) (.ite (convertCall_agrees hinner _) (columnOrCall_agrees hinner))

theorem primaryKind_agreesAt (hbase : base ≤ pos) (h : pos < ts.size) (t : Token) {owed : ExprKind → Bool} :
    AgreesAt ts pos (primaryKind inner t) (@primaryKind R inner' t) owed := by
  have hle := Nat.le_of_lt h
  unfold primaryKind
  split
  · exact literal_agreesAt h _ t
  · exact literal_agreesAt h _ t
  · exact literal_agreesAt h _ t
  · exact literal_agreesAt h _ t
  · exact literal_agreesAt h _ t
  · exact literal_agreesAt h _ t
  · exact (variableName_agrees.here hle).then fun _ => .pure rfl
  · exact (skip_agreesAt h).then fun _ => .pure rfl
  · exact parenthesized_agrees hinner pos hbase hle
  · exact choice_agrees hinner pos hbase hle
  · exact castCall_agrees hinner _ pos hbase hle
  · exact convertCall_agrees hinner _ pos hbase hle
  · exact existence_agrees hinner pos hbase hle
  · exact keywordCall_agrees hinner pos hbase hle
  · exact keywordCall_agrees hinner pos hbase hle
  · exact wordExpression_agrees hinner t pos hbase hle
  · exact columnOrCall_agrees hinner pos hbase hle
  · exact Agrees.failExpected.here hle

theorem primary_agrees {owed : Expr → Bool} : Agrees ts base (primary inner) (@primary R inner') owed :=
  .spanned (.current (fun _ t hbase hlt => primaryKind_agreesAt hinner hbase hlt t) .failExpected)

/-! ## Operators -/

omit hinner in
theorem chainOperator_agrees (table : TokenKind → Option BinaryOperator) :
    Agrees ts base (chainOperator table) (chainOperator table) fun _ => false := by
  refine .look fun t? => ?_
  cases t? with
  | none => exact .pure rfl
  | some t =>
    dsimp only
    cases table t.kind with
    | none => exact .pure rfl
    | some op => exact .look fun _ => .ite (.pure rfl) (skip_agrees.bind fun _ => .pure rfl)

omit hinner in
theorem keywordOperator_agrees (word : Keyword) (op : BinaryOperator) :
    Agrees ts base (keywordOperator word op) (keywordOperator word op) fun _ => false :=
  .optionIf (consumeKeyword_agrees word) (.pure rfl) rfl

/-- The operand of a sign is read after the sign. -/
theorem unary_agrees {owed : Expr → Bool} : Agrees ts base (unary inner) (@unary R inner') owed := by
  intro pos hbase h
  apply AgreesAt.look
  cases hsign : (ts.token? pos).bind fun t => signOperator t.kind with
  | none => exact primary_agrees hinner pos hbase h
  | some op =>
    have hlt : pos < ts.size := by
      obtain ⟨t, ht, -⟩ := Option.bind_eq_some_iff.mp hsign
      exact token?_isSome (by simp [ht])
    exact .spanned (.skip hlt hbase hinner.signed)

theorem multiplicative_agrees {owed : Expr → Bool} :
    Agrees ts base (multiplicative inner) (@multiplicative R inner') owed :=
  .leftChain (unary_agrees hinner) (chainOperator_agrees _)

theorem additive_agrees {owed : Expr → Bool} : Agrees ts base (additive inner) (@additive R inner') owed :=
  .leftChain (multiplicative_agrees hinner) (chainOperator_agrees _)

/-! ## Predicates -/

section
variable (operand : Expr) (negated : Bool) {owed : ExprKind → Bool}

theorem inPredicate_agrees :
    Agrees ts base (inPredicate inner operand negated) (@inPredicate R inner' operand negated) owed := by
  refine (expect_agrees _).then fun _ => .look fun _ => .ite ?_ ?_
  · exact hinner.query.free.bind fun query => (expect_agrees _).bind fun _ => .pure rfl
  · exact (expressionList_agrees hinner).bind fun list => (expect_agrees _).bind fun _ => .pure rfl

theorem betweenPredicate_agrees :
    Agrees ts base (betweenPredicate inner operand negated) (@betweenPredicate R inner' operand negated) owed := by
  refine (additive_agrees hinner).then fun low => (expectKeyword_agrees _).bind fun _ => ?_
  exact (additive_agrees hinner).later.bind fun high => .pure rfl

theorem likePredicate_agrees :
    Agrees ts base (likePredicate inner operand negated) (@likePredicate R inner' operand negated) owed := by
  refine (additive_agrees hinner).then fun pattern => ?_
  have hescape : Agrees ts (base + 1) (optionIf (consumeKeyword .ESCAPE) (additive inner))
      (optionIf (consumeKeyword .ESCAPE) (@additive R inner')) fun _ => false :=
    .optionIf (consumeKeyword_agrees _) (additive_agrees hinner).later.later rfl
  exact hescape.bind fun escape => .pure rfl

omit hinner in
theorem nullPredicate_agrees : Agrees ts base (nullPredicate operand) (nullPredicate operand) owed :=
  (consumeKeyword_agrees _).free.bind fun _ => (expectKeyword_agrees _).then fun _ => .pure rfl

theorem predicateTail_agrees :
    Agrees ts base (predicateTail inner operand) (@predicateTail R inner' operand) fun _ => false := by
  refine .look fun op? => ?_
  cases op? with
  | some x =>
    have hright : Agrees ts base (do
        let right ← additive inner
        pure (some (ExprKind.binary x.1 operand right))) (do
        let right ← @additive R inner'
        pure (some (ExprKind.binary x.1 operand right))) fun _ => false :=
      (additive_agrees hinner).bind fun right => .pure rfl
    exact .ite (skipTwo_agrees.bind fun _ => hright) (skip_agrees.bind fun _ => hright)
  | none =>
    have hrest : ∀ negated : Bool, Agrees ts base (do
        if ← consumeKeyword .IN then some <$> inPredicate inner operand negated
        else if ← consumeKeyword .BETWEEN then some <$> betweenPredicate inner operand negated
        else if ← consumeKeyword .LIKE then some <$> likePredicate inner operand negated
        else pure none) (do
        if ← consumeKeyword .IN then some <$> @inPredicate R inner' operand negated
        else if ← consumeKeyword .BETWEEN then some <$> @betweenPredicate R inner' operand negated
        else if ← consumeKeyword .LIKE then some <$> @likePredicate R inner' operand negated
        else pure none) fun _ => false := by
      intro negated
      refine .whether (consumeKeyword_agrees _) (inPredicate_agrees hinner operand negated).later.map ?_
      refine .whether (consumeKeyword_agrees _) (betweenPredicate_agrees hinner operand negated).later.map ?_
      exact .whether (consumeKeyword_agrees _) (likePredicate_agrees hinner operand negated).later.map (.pure rfl)
    refine .whether (consumeKeyword_agrees _) (nullPredicate_agrees operand).map ?_
    exact .look fun negated => .ite (skip_agrees.bind fun _ => hrest _) (hrest _)

end

theorem predicate_agrees {owed : Expr → Bool} : Agrees ts base (predicate inner) (@predicate R inner') owed := by
  refine .look fun start => (additive_agrees hinner).then fun operand => ?_
  refine (predicateTail_agrees hinner operand).later.bind fun kind? => ?_
  cases kind? with
  | none => exact .pure rfl
  | some kind => exact .look fun span => .pure rfl

theorem negation_agrees {owed : Expr → Bool} : Agrees ts base (negation inner) (@negation R inner') owed := by
  apply Agrees.ifLook _ (predicate_agrees hinner)
  intro pos hbase hnot
  exact .spanned (.skip (isKind_lt hnot) hbase hinner.negated)

theorem conjunction_agrees {owed : Expr → Bool} :
    Agrees ts base (conjunction inner) (@conjunction R inner') owed :=
  .leftChain (negation_agrees hinner) (keywordOperator_agrees _ _)

theorem disjunction_agrees {owed : Expr → Bool} :
    Agrees ts base (disjunction inner) (@disjunction R inner') owed :=
  .leftChain (conjunction_agrees hinner) (keywordOperator_agrees _ _)

end

end TransactLint.Grammar
