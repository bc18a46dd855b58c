import TransactLint.Grammar.Expression
import TransactLint.Proofs.Layout.Name

/-!
# Layout of expressions
-/

namespace TransactLint.Grammar

open TransactLint.Parser

structure Level.Reads (ts : Terminals) (inner : Level) : Prop where
  expression : Parser.Reads ts inner.expression fun e => .node (.expr e)
  negated : Parser.Reads ts inner.negated fun e => .node (.expr e)
  signed : Parser.Reads ts inner.signed fun e => .node (.expr e)
  query : Parser.Reads ts inner.query fun q => .node (.query q)
  statement : Parser.Reads ts inner.statement fun s => .node (.statement s)

variable {ts : Terminals} {inner : Level} (h : inner.Reads ts)
include h

theorem expressionList_reads : Reads ts (expressionList inner) fun es => ⟨true, es.map .expr⟩ :=
  Reads.commaNodes h.expression

/-! ## Ordering -/

omit h in
theorem sortDirection_reads : Reads ts sortDirection fun _ => .none := by
  intro start
  refine (consumeKeyword_reads _).then fun b => .ite (fun _ => .pure (.of_eq rfl (by simp))) fun _ => ?_
  refine (consumeKeyword_reads _).then fun b => .ite (fun _ => ?_) fun _ => ?_ <;>
    exact .pure (.of_eq rfl (by simp))

theorem orderItem_reads : Reads ts (orderItem inner) fun x => .node (.orderItem x) := by
  refine Reads.spanned (f := fun x => .node (.expr x.1)) (fun start => ?_) (fun _ _ => rfl) fun _ _ => .refl _
  refine h.expression.then fun expr => sortDirection_reads.then fun direction => ?_
  exact .pure (.of_eq rfl (by simp))

theorem orderBy_reads : Reads ts (orderBy inner) fun xs => ⟨true, xs.map .orderItem⟩ := by
  intro start
  refine (expectKeyword_reads _).then fun _ => (expectKeyword_reads _).then fun _ => ?_
  exact (Reads.commaNodes (orderItem_reads h)).lays.entails (.refl _) fun xs => .of_eq rfl (by simp)

/-! ## Calls -/

theorem callArguments_reads : Reads ts (callArguments inner) fun x => ⟨true, x.2.map .expr⟩ := by
  intro start
  have hend : ∀ x : Bool × List Expr, Lays ts start ⟨true, x.2.map .expr⟩ (do
      expect .rightParen
      pure x) fun x => ⟨true, x.2.map .expr⟩ :=
    fun x => (expect_reads _).then fun _ => .pure (.of_eq (by simp) (by simp))
  have harguments : ∀ (distinct : Bool) (L : Layout), L.nodes = [] → Lays ts start L (do
      let arguments ← expressionList inner
      let x ← pure (distinct, arguments)
      expect .rightParen
      pure x) fun x => ⟨true, x.2.map .expr⟩ := by
    intro distinct L hL
    refine (expressionList_reads h).then fun arguments => ?_
    exact Lays.bind (f := fun x => ⟨true, x.2.map .expr⟩) (.pure (.of_eq (by simp [hL]) (by simp))) hend
  refine (expect_reads _).then fun _ => .look fun b => .ite (fun _ => ?_) fun _ => ?_
  · exact Lays.bind (f := fun x => ⟨true, x.2.map .expr⟩) (.pure (.of_eq rfl (by simp))) hend
  · refine (consumeKeyword_reads _).then fun distinct => .ite (fun _ => ?_) fun _ => ?_
    · exact Lays.bind (f := fun _ => ⟨true, []⟩) (.pure (.of_eq rfl (by simp))) fun _ =>
        harguments distinct _ rfl
    · exact (consumeKeyword_reads _).then fun _ => harguments distinct _ rfl

theorem withinGroup_reads : Reads ts (withinGroup inner) fun xs => .ofNodes (xs.map .orderItem) := by
  refine Reads.listNodes .look fun start => ?_
  refine skipTwo_reads.then fun _ => (expect_reads _).then fun _ => ?_
  refine (orderBy_reads h).then fun items => (expect_reads _).then fun _ => ?_
  exact .pure (.of_eq (by simp) (by simp))

theorem windowBody_reads : Reads ts (windowBody inner) fun x => .node (.window x) := by
  refine Reads.spanned (f := fun x => ⟨true, x.1.map .expr ++ x.2.map .orderItem⟩) (fun start => ?_)
    (fun _ _ => rfl) fun _ _ => .refl _
  refine (expect_reads _).then fun _ => ?_
  have hpartition : Reads ts (do
      skipTwo
      expressionList inner) fun es => ⟨true, es.map .expr⟩ := fun start =>
    skipTwo_reads.then fun _ => (expressionList_reads h).lays.entails (.refl _) fun _ => .of_eq rfl (by simp)
  refine (Reads.listNodes .look hpartition).then fun partition => ?_
  refine (Reads.listNodes .look (orderBy_reads h)).then fun order => ?_
  refine (skipUntil_reads _).then fun _ => (expect_reads _).then fun _ => ?_
  exact .pure (.of_eq (by simp) (by simp))

theorem call_reads (name : ObjectName) : Reads ts (call inner name) fun k => ⟨true, k.enclosed⟩ := by
  intro start
  refine (callArguments_reads h).then fun x => ?_
  obtain ⟨distinct, arguments⟩ := x
  refine (withinGroup_reads h).then fun group => ?_
  refine (Reads.optionNode (consumeKeyword_reads _) (windowBody_reads h)).then fun window => ?_
  exact .pure (.of_eq (by simp [ExprKind.enclosed]) (by simp))

omit h in
theorem call_ok {name : ObjectName} {k : ExprKind} {pos pos' : Nat} (hk : call inner name ts pos = .ok (k, pos')) :
    ∃ distinct arguments group window, k = .call name distinct arguments group window := by
  obtain ⟨x, _, _, hk⟩ := bind_ok hk
  obtain ⟨group, _, _, hk⟩ := bind_ok hk
  obtain ⟨window, _, _, hk⟩ := bind_ok hk
  cases hk
  exact ⟨_, _, _, _, rfl⟩

/-- The name of the function has been read. -/
theorem call_lays (name : ObjectName) (start : Nat) :
    Lays ts start (.node (.objectName name)) (call inner name) fun k => ⟨true, k.constituents⟩ := by
  intro pos pos' k hL hk
  have hfits := (call_reads h name).lays pos pos' k hL hk
  obtain ⟨distinct, arguments, group, window, rfl⟩ := call_ok hk
  exact hfits.entails (.of_eq (by simp [ExprKind.constituents, ExprKind.parts, ExprKind.enclosed]) (by simp))

theorem castCall_opens (function : ConversionFunction) :
    Opens ts (castCall inner function) fun k => ⟨true, k.constituents⟩ := by
  refine .skip fun start => (expect_reads _).then fun _ => ?_
  refine h.expression.then fun operand => (expectKeyword_reads _).then fun _ => ?_
  refine dataType_reads.then fun target => (expect_reads _).then fun _ => ?_
  -- the operand stands before the type
  exact .pure (.of_perm (by simpa [ExprKind.constituents, ExprKind.parts] using .swap ..) (by simp))

theorem convertCall_opens (function : ConversionFunction) :
    Opens ts (convertCall inner function) fun k => ⟨true, k.constituents⟩ := by
  refine .skip fun start => (expect_reads _).then fun _ => ?_
  refine dataType_reads.then fun target => (expect_reads _).then fun _ => ?_
  refine h.expression.then fun operand => ?_
  refine (Reads.optionNode (consume_reads _) h.expression).then fun style => (expect_reads _).then fun _ => ?_
  exact .pure (.of_eq (by simp [ExprKind.constituents, ExprKind.parts]) (by simp))

/-! ## Primary expressions -/

omit h in
theorem literal_reads (kind : LiteralKind) (t : Token) :
    ReadsHere ts (literal kind t) fun k => ⟨true, k.constituents⟩ :=
  .skip fun _ => .pure (.of_eq rfl id)

theorem whenClause_reads : Reads ts (whenClause inner) fun x => .node (.whenClause x) := by
  refine Reads.spanned (f := fun x => ⟨true, [.expr x.1, .expr x.2]⟩) (fun start => ?_) (fun _ _ => rfl)
    fun _ _ => .refl _
  refine (expectKeyword_reads _).then fun _ => h.expression.then fun condition => ?_
  refine (expectKeyword_reads _).then fun _ => h.expression.then fun result => ?_
  exact .pure (.of_eq (by simp) (by simp))

theorem choice_opens : Opens ts (choice inner) fun k => ⟨true, k.constituents⟩ := by
  refine .expect fun start => .look fun searched => ?_
  have hoperand : Reads ts (pure !searched) fun _ => .none := fun start => .pure (.refl _)
  refine (hoperand.optionNode h.expression).then fun operand => ?_
  refine (Reads.manyNodes (Reads.optionNode .look (whenClause_reads h))).then fun branches => ?_
  refine .ite (fun _ => .failExpected) fun _ => ?_
  refine (Reads.optionNode (consumeKeyword_reads _) h.expression).then fun otherwise => ?_
  refine (expectKeyword_reads _).then fun _ => ?_
  exact .pure (.of_eq (by simp [ExprKind.constituents, ExprKind.parts]) (by simp))

theorem parenthesized_opens : Opens ts (parenthesized inner) fun k => ⟨true, k.constituents⟩ := by
  refine .expect fun start => .look fun b => .ite (fun _ => ?_) fun _ => ?_
  · refine h.query.then fun query => (expect_reads _).then fun _ => ?_
    exact .pure (.of_eq (by simp [ExprKind.constituents, ExprKind.parts]) (by simp))
  · refine h.expression.then fun expr => (expect_reads _).then fun _ => ?_
    exact .pure (.of_eq (by simp [ExprKind.constituents, ExprKind.parts]) (by simp))

theorem existence_opens : Opens ts (existence inner) fun k => ⟨true, k.constituents⟩ := by
  refine .skip fun start => (expect_reads _).then fun _ => ?_
  refine h.query.then fun query => (expect_reads _).then fun _ => ?_
  exact .pure (.of_eq (by simp [ExprKind.constituents, ExprKind.parts]) (by simp))

theorem columnOrCall_reads : Reads ts (columnOrCall inner) fun k => ⟨true, k.constituents⟩ := by
  intro start
  refine objectName_reads.then fun name => .look fun b => .ite (fun _ => ?_) fun _ => ?_
  · exact call_lays h name start
  · exact Lays.parts (n := .objectName name) (.pure (.refl _))

theorem keywordCall_reads : Reads ts (keywordCall inner) fun k => ⟨true, k.constituents⟩ := by
  intro start
  refine .look fun b => .ite (fun _ => ?_) fun _ => .failExpected
  refine anyIdent_reads.then fun name => ?_
  exact Lays.wrap (m := .ident name) (n := .objectName (.ofIdent name)) rfl rfl (call_lays h (.ofIdent name) start)

theorem wordExpression_reads (t : Token) :
    ReadsHere ts (wordExpression inner t) fun k => ⟨true, k.constituents⟩ := by
  refine .look fun isCall => .ite (castCall_opens h _).here ?_
  exact .ite (convertCall_opens h _).here (columnOrCall_reads h).here

theorem primaryKind_reads (t : Token) : ReadsHere ts (primaryKind inner t) fun k => ⟨true, k.constituents⟩ := by
  unfold primaryKind
  split
  · exact literal_reads _ t
  · exact literal_reads _ t
  · exact literal_reads _ t
  · exact literal_reads _ t
  · exact literal_reads _ t
  · exact literal_reads _ t
  · refine Reads.here fun start => variableName_reads.then fun name => ?_
    exact .pure ⟨by simp [ExprKind.constituents], by simp⟩
  · exact .skip fun _ => .pure (.of_eq rfl id)
  · exact (parenthesized_opens h).here
  · exact (choice_opens h).here
  · exact (castCall_opens h _).here
  · exact (convertCall_opens h _).here
  · exact (existence_opens h).here
  · exact (keywordCall_reads h).here
  · exact (keywordCall_reads h).here
  · exact wordExpression_reads h t
  · exact (columnOrCall_reads h).here
  · exact Reads.failExpected.here

/-! Of a primary expression all but names stands behind its first terminal. -/

omit h in
theorem encloses_of_opens {p : Parser ExprKind} (hp : Opens ts p fun k => ⟨true, k.constituents⟩) :
    Opens ts p fun k => .ofNodes k.enclosed :=
  hp.entails fun k => ⟨(k.enclosed_sublist.trans k.parts_sublist).subperm, nofun⟩

theorem call_encloses (name : ObjectName) : Reads ts (call inner name) fun k => .ofNodes k.enclosed :=
  (call_reads h name).entails fun _ => .of_eq rfl nofun

theorem columnOrCall_opens : Opens ts (columnOrCall inner) fun k => .ofNodes k.enclosed :=
  objectName_reads.opens (fun _ => rfl) fun name start => .look fun _ =>
    .ite (fun _ => call_encloses h name start) fun _ => .pure (.refl _)

theorem keywordCall_opens : Opens ts (keywordCall inner) fun k => .ofNodes k.enclosed :=
  .look fun _ => .ite (anyIdent_reads.opens (fun _ => rfl) fun _ => call_encloses h _) .failExpected

theorem primaryKind_opens (t : Token) : Opens ts (primaryKind inner t) fun k => .ofNodes k.enclosed := by
  have hliteral : ∀ kind, Opens ts (literal kind t) fun k => .ofNodes k.enclosed :=
    fun kind => .skip fun _ => .pure (.refl _)
  unfold primaryKind
  split
  · exact hliteral _
  · exact hliteral _
  · exact hliteral _
  · exact hliteral _
  · exact hliteral _
  · exact hliteral _
  · exact variableName_reads.opens (fun _ => rfl) fun name start => .pure (.refl _)
  · exact .skip fun _ => .pure (.refl _)
  · exact encloses_of_opens (parenthesized_opens h)
  · exact encloses_of_opens (choice_opens h)
  · exact encloses_of_opens (castCall_opens h _)
  · exact encloses_of_opens (convertCall_opens h _)
  · exact encloses_of_opens (existence_opens h)
  · exact keywordCall_opens h
  · exact keywordCall_opens h
  · exact .look fun _ => .ite (encloses_of_opens (castCall_opens h _))
      (.ite (encloses_of_opens (convertCall_opens h _)) (columnOrCall_opens h))
  · exact columnOrCall_opens h
  · exact .failExpected

theorem primary_reads : Reads ts (primary inner) fun e => .node (.expr e) := by
  refine Reads.spanned (f := fun k => ⟨true, k.constituents⟩) ?_ (fun _ _ => rfl) fun _ _ => .refl _
  exact .current (primaryKind_reads h) .failExpected

/-! ## Operators -/

omit h in
theorem chainOperator_reads (table : TokenKind → Option BinaryOperator) :
    Reads ts (chainOperator table) fun _ => .none := by
  intro start
  refine .look fun t? => ?_
  cases t? with
  | none => exact .pure (.refl _)
  | some t =>
    dsimp only
    split
    · exact .pure (.refl _)
    · refine .look fun b => .ite (fun _ => .pure (.refl _)) fun _ => ?_
      exact skip_reads.then fun _ => .pure (.refl _)

omit h in
theorem keywordOperator_reads (word : Keyword) (op : BinaryOperator) :
    Reads ts (keywordOperator word op) fun _ => .none := by
  have hop : Reads ts (pure op) fun _ => .ofNodes [] := fun start => .pure (.refl _)
  exact ((consumeKeyword_reads word).optionIf hop).entails fun _ => .of_eq (by simp) (by simp)

theorem unary_reads : Reads ts (unary inner) fun e => .node (.expr e) := by
  intro start
  refine .look fun t? => ?_
  split
  · rename_i op _
    refine Reads.spanned (f := fun e => .node (.expr e)) (fun start => ?_) (fun _ _ => rfl)
      (fun _ _ => .refl _) start
    exact skip_reads.then fun _ => h.signed.lays.entails (.refl _) fun _ => .of_eq rfl (by simp)
  · exact primary_reads h start

theorem multiplicative_reads : Reads ts (multiplicative inner) fun e => .node (.expr e) :=
  (unary_reads h).leftChain (chainOperator_reads _) (fun _ _ _ _ => rfl) fun _ _ _ _ => rfl

theorem additive_reads : Reads ts (additive inner) fun e => .node (.expr e) :=
  (multiplicative_reads h).leftChain (chainOperator_reads _) (fun _ _ _ _ => rfl) fun _ _ _ _ => rfl

/-! ## Predicates

The first operand of a predicate has been read. -/

section
variable (operand : Expr) (negated : Bool) (start : Nat)

theorem inPredicate_reads : Reads ts (inPredicate inner operand negated) fun k => ⟨true, k.enclosed⟩ := by
  intro start
  refine (expect_reads _).then fun _ => .look fun b => .ite (fun _ => ?_) fun _ => ?_
  · refine h.query.then fun query => (expect_reads _).then fun _ => ?_
    exact .pure (.of_eq (by simp [ExprKind.enclosed]) (by simp))
  · refine (expressionList_reads h).then fun list => (expect_reads _).then fun _ => ?_
    exact .pure (.of_eq (by simp [ExprKind.enclosed]) (by simp))

omit h in
theorem inPredicate_ok {k : ExprKind} {pos pos' : Nat}
    (hk : inPredicate inner operand negated ts pos = .ok (k, pos')) :
    (∃ query, k = .inSubquery operand query negated) ∨ ∃ list, k = .inList operand list negated := by
  obtain ⟨_, _, _, hk⟩ := bind_ok hk
  obtain ⟨_, _, _, hk⟩ := bind_ok hk
  split at hk
  · obtain ⟨query, _, _, hk⟩ := bind_ok hk
    obtain ⟨_, _, _, hk⟩ := bind_ok hk
    cases hk
    exact .inl ⟨query, rfl⟩
  · obtain ⟨list, _, _, hk⟩ := bind_ok hk
    obtain ⟨_, _, _, hk⟩ := bind_ok hk
    cases hk
    exact .inr ⟨list, rfl⟩

theorem inPredicate_lays :
    Lays ts start (.node (.expr operand)) (inPredicate inner operand negated) fun k =>
      ⟨true, k.constituents⟩ := by
  intro pos pos' k hL hk
  have hfits := (inPredicate_reads h operand negated).lays pos pos' k hL hk
  rcases inPredicate_ok operand negated hk with ⟨query, rfl⟩ | ⟨list, rfl⟩
  · exact hfits
  · exact hfits

theorem betweenPredicate_lays :
    Lays ts start (.node (.expr operand)) (betweenPredicate inner operand negated)
      fun k => ⟨true, k.constituents⟩ := by
  refine (additive_reads h).then fun low => (expectKeyword_reads _).then fun _ => ?_
  refine (additive_reads h).then fun high => ?_
  exact .pure (.of_eq (by simp [ExprKind.constituents, ExprKind.parts]) (by simp))

theorem likePredicate_lays :
    Lays ts start (.node (.expr operand)) (likePredicate inner operand negated)
      fun k => ⟨true, k.constituents⟩ := by
  refine (additive_reads h).then fun pattern => ?_
  refine (Reads.optionNode (consumeKeyword_reads _) (additive_reads h)).then fun escape => ?_
  exact .pure (.of_eq (by simp [ExprKind.constituents, ExprKind.parts]) (by simp))

omit h in
theorem nullPredicate_lays :
    Lays ts start (.node (.expr operand)) (nullPredicate operand) fun k => ⟨true, k.constituents⟩ := by
  refine (consumeKeyword_reads _).then fun negated => (expectKeyword_reads _).then fun _ => ?_
  exact .pure (.of_eq (by simp [ExprKind.constituents, ExprKind.parts]) (by simp))

def tailLayout : Option ExprKind → Layout
  | some k => ⟨true, k.constituents⟩
  | none => .node (.expr operand)

theorem predicateTail_lays :
    Lays ts start (.node (.expr operand)) (predicateTail inner operand) (tailLayout operand) := by
  refine .look fun op? => ?_
  cases op? with
  | some x =>
    have hright : Lays ts start (.node (.expr operand) ++ .none) (do
        let right ← additive inner
        pure (some (.binary x.1 operand right))) (tailLayout operand) :=
      (additive_reads h).then fun right =>
        .pure (.of_eq (by simp [tailLayout, ExprKind.constituents, ExprKind.parts]) (by simp))
    refine .ite (fun _ => ?_) fun _ => ?_
    · exact skipTwo_reads.then fun _ => hright
    · exact skip_reads.then fun _ => hright
  | none =>
    have hkeep : ∀ b : Bool, (Layout.node (.expr operand) ++ ⟨b, []⟩).Entails (.node (.expr operand)) :=
      fun b => .of_eq rfl (by simp)
    have hrest : ∀ negated : Bool, Lays ts start (.node (.expr operand)) (do
        if ← consumeKeyword .IN then some <$> inPredicate inner operand negated
        else if ← consumeKeyword .BETWEEN then some <$> betweenPredicate inner operand negated
        else if ← consumeKeyword .LIKE then some <$> likePredicate inner operand negated
        else pure none) (tailLayout operand) := by
      intro negated
      refine (consumeKeyword_reads _).then fun b => .ite (fun _ => ?_) fun _ => ?_
      · exact Lays.map (.weaken (hkeep b) (inPredicate_lays h operand negated start))
      refine (consumeKeyword_reads _).then fun b => .ite (fun _ => ?_) fun _ => ?_
      · exact Lays.map (.weaken (.of_eq rfl (by simp)) (betweenPredicate_lays h operand negated start))
      refine (consumeKeyword_reads _).then fun b => .ite (fun _ => ?_) fun _ => ?_
      · exact Lays.map (.weaken (.of_eq rfl (by simp)) (likePredicate_lays h operand negated start))
      · exact .pure (.of_eq rfl (by simp))
    refine (consumeKeyword_reads _).then fun b => .ite (fun _ => ?_) fun _ => ?_
    · exact Lays.map (.weaken (hkeep b) (nullPredicate_lays operand start))
    refine .look fun negated => .ite (fun _ => ?_) fun _ => ?_
    · exact skip_reads.then fun _ => .weaken (.of_eq rfl (by simp)) (hrest negated)
    · exact .weaken (hkeep b) (hrest negated)

end

theorem predicate_reads : Reads ts (predicate inner) fun e => .node (.expr e) := by
  refine .position fun start => (additive_reads h).then fun operand => ?_
  refine (predicateTail_lays h operand start).bind fun kind? => ?_
  cases kind? with
  | none => exact .pure (.refl _)
  | some kind => exact Lays.close (fun _ => rfl) fun _ => .refl _

theorem negation_reads : Reads ts (negation inner) fun e => .node (.expr e) := by
  intro start
  refine .look fun b => .ite (fun _ => ?_) fun _ => predicate_reads h start
  refine Reads.spanned (f := fun e => .node (.expr e)) (fun start => ?_) (fun _ _ => rfl)
    (fun _ _ => .refl _) start
  exact skip_reads.then fun _ => h.negated.lays.entails (.refl _) fun _ => .of_eq rfl (by simp)

theorem conjunction_reads : Reads ts (conjunction inner) fun e => .node (.expr e) :=
  (negation_reads h).leftChain (keywordOperator_reads _ _) (fun _ _ _ _ => rfl) fun _ _ _ _ => rfl

theorem disjunction_reads : Reads ts (disjunction inner) fun e => .node (.expr e) :=
  (conjunction_reads h).leftChain (keywordOperator_reads _ _) (fun _ _ _ _ => rfl) fun _ _ _ _ => rfl

end TransactLint.Grammar
