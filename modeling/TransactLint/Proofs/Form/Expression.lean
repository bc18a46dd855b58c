import TransactLint.Proofs.Form

/-!
# The form of expressions

Each production is given what the level inside it forms below `k`, and forms what it yields below `k + 1`.
-/

namespace TransactLint.Grammar

open TransactLint.Parser

structure Level.Formed (ts : Terminals) (inner : Level) (k : Nat) : Prop where
  origin : ∃ n, inner = level n
  reads : inner.Reads ts
  expression : Yields ts inner.expression fun e => (Node.expr e).Formed ts k
  negated : Yields ts inner.negated (Expr.Formed ts k .negation)
  signed : Yields ts inner.signed (Expr.Formed ts k .signed)
  query : Yields ts inner.query fun q => (Node.query q).Formed ts k
  statement : Yields ts inner.statement fun s => (Node.statement s).Formed ts (k + 1)

variable {ts : Terminals} {inner : Level} {k : Nat} (hinner : inner.Formed ts k)
include hinner

theorem Level.Formed.operand : Yields ts inner.expression fun e => (Node.expr e).Formed ts (k + 1) :=
  hinner.expression.imp fun _ h => h.succ

theorem expressionList_formed :
    Yields ts (expressionList inner) fun l => ∀ e ∈ l, (Node.expr e).Formed ts (k + 1) :=
  .commaSeparated hinner.operand

theorem orderItem_formed : Yields ts (orderItem inner) fun x => (Node.orderItem x).Formed ts (k + 1) := by
  refine .spanned (K := fun x => (Node.expr x.1).Formed ts (k + 1))
    (hinner.operand.bind fun e he => .after fun _ => .pure he) fun x span hx => ?_
  exact Node.formed_of_parts trivial rfl k.succ_pos (by simpa [Node.parts] using hx)

theorem orderBy_formed : Yields ts (orderBy inner) fun l => ∀ x ∈ l, (Node.orderItem x).Formed ts (k + 1) :=
  .after fun _ => .after fun _ => .commaSeparated (orderItem_formed hinner)

/-! ## Calls -/

theorem callArguments_formed :
    Yields ts (callArguments inner) fun x => ∀ e ∈ x.2, (Node.expr e).Formed ts (k + 1) := by
  have hend : ∀ distinct, ∀ l : List Expr, (∀ e ∈ l, (Node.expr e).Formed ts (k + 1)) → Yields ts (do
      let x ← pure (distinct, l)
      expect .rightParen
      pure x) fun x : Bool × List Expr => ∀ e ∈ x.2, (Node.expr e).Formed ts (k + 1) :=
    fun distinct l hl => .after (p := expect .rightParen) (q := fun _ => pure (distinct, l)) fun _ => .pure hl
  refine .after fun _ => .after fun _ =>
    .ite (hend false [] nofun) (.after fun distinct => .ite ?_ (.after fun _ => ?_))
  · exact .after fun _ => (expressionList_formed hinner).bind (hend distinct)
  · exact (expressionList_formed hinner).bind (hend distinct)

theorem withinGroup_formed :
    Yields ts (withinGroup inner) fun l => ∀ x ∈ l, (Node.orderItem x).Formed ts (k + 1) :=
  .listIf (.after fun _ => .after fun _ => (orderBy_formed hinner).bind fun _ h => .after fun _ => .pure h)

theorem windowBody_formed : Yields ts (windowBody inner) fun x => (Node.window x).Formed ts (k + 1) := by
  refine .spanned (K := fun x => (∀ e ∈ x.1, (Node.expr e).Formed ts (k + 1)) ∧
    ∀ e ∈ x.2, (Node.orderItem e).Formed ts (k + 1)) ?_ fun x span hx => ?_
  · refine .after fun _ => (Yields.listIf (.after fun _ => expressionList_formed hinner)).bind
      fun partition hpartition => ?_
    refine (Yields.listIf (orderBy_formed hinner)).bind fun order horder => ?_
    exact .after fun _ => .after fun _ => .pure ⟨hpartition, horder⟩
  · refine Node.formed_of_parts trivial rfl k.succ_pos ?_
    simp only [Node.parts, List.forall_mem_append, List.forall_mem_map]
    exact hx

theorem call_formed (name : ObjectName) : Yields ts (call inner name) (ExprKind.Formed ts (k + 1) .primary) := by
  refine (callArguments_formed hinner).bind fun x hx => (withinGroup_formed hinner).bind fun group hgroup => ?_
  refine (Yields.optionIf (windowBody_formed hinner)).bind fun window hwindow => .pure ?_
  refine ExprKind.formed_of_parts (fun _ => rfl) (Rank.le_refl _) (by simp [ExprKind.operands]) rfl ?_
  simp only [ExprKind.parts, List.forall_mem_append, List.forall_mem_cons, List.forall_mem_map, Option.mem_toList]
  exact ⟨⟨⟨Node.formed_objectName name, hx⟩, hgroup⟩, hwindow⟩

theorem castCall_formed (function : ConversionFunction) :
    Yields ts (castCall inner function) (ExprKind.Formed ts (k + 1) .primary) := by
  refine .after fun _ => .after fun _ => hinner.operand.bind fun operand hoperand => ?_
  refine .after fun _ => .after fun target => .after fun _ => .pure ?_
  refine ExprKind.formed_of_parts (fun _ => rfl) (Rank.le_refl _) (by simp [ExprKind.operands]) rfl ?_
  simp [ExprKind.parts, hoperand]

theorem convertCall_formed (function : ConversionFunction) :
    Yields ts (convertCall inner function) (ExprKind.Formed ts (k + 1) .primary) := by
  refine .after fun _ => .after fun _ => .after fun target => .after fun _ => ?_
  refine hinner.operand.bind fun operand hoperand => (Yields.optionIf hinner.operand).bind fun style hstyle => ?_
  refine .after fun _ => .pure ?_
  refine ExprKind.formed_of_parts (fun _ => rfl) (Rank.le_refl _) (by simp [ExprKind.operands]) rfl ?_
  simpa [ExprKind.parts, hoperand] using hstyle

/-! ## Primary expressions -/

theorem whenClause_formed : Yields ts (whenClause inner) fun x => (Node.whenClause x).Formed ts (k + 1) := by
  refine .spanned (K := fun x => (Node.expr x.1).Formed ts (k + 1) ∧ (Node.expr x.2).Formed ts (k + 1)) ?_
    fun x span hx => ?_
  · refine .after fun _ => hinner.operand.bind fun condition hcondition => .after fun _ => ?_
    exact hinner.operand.bind fun result hresult => .pure ⟨hcondition, hresult⟩
  · exact Node.formed_of_parts trivial rfl k.succ_pos (by simpa [Node.parts] using hx)

theorem choice_formed : Yields ts (choice inner) (ExprKind.Formed ts (k + 1) .primary) := by
  refine .after fun _ => .after fun _ => (Yields.optionIf hinner.operand).bind fun operand hoperand => ?_
  refine (Yields.many (.optionIf (whenClause_formed hinner))).bind fun branches hbranches => .ite .failExpected ?_
  refine (Yields.optionIf hinner.operand).bind fun otherwise hotherwise => .after fun _ => .pure ?_
  refine ExprKind.formed_of_parts (fun _ => rfl) (Rank.le_refl _) (by simp [ExprKind.operands]) rfl ?_
  simp only [ExprKind.parts, List.forall_mem_append, List.forall_mem_map, Option.mem_toList]
  exact ⟨⟨hoperand, hbranches⟩, hotherwise⟩

theorem parenthesized_formed : Yields ts (parenthesized inner) (ExprKind.Formed ts (k + 1) .primary) := by
  refine .after fun _ => .after fun _ => .ite ?_ ?_
  · refine hinner.query.bind fun q hq => .after fun _ => .pure ?_
    refine ExprKind.formed_succ_of_parts hq.pos (Rank.le_refl _) (by simp [ExprKind.operands]) rfl ?_
    simpa [ExprKind.parts] using hq
  · refine hinner.expression.bind fun e he => .after fun _ => .pure ?_
    refine ExprKind.formed_succ_of_parts he.pos (Rank.le_refl _) (by simp [ExprKind.operands]) rfl ?_
    simpa [ExprKind.parts] using he

theorem existence_formed : Yields ts (existence inner) (ExprKind.Formed ts (k + 1) .primary) := by
  refine .after fun _ => .after fun _ => hinner.query.bind fun q hq => .after fun _ => .pure ?_
  refine ExprKind.formed_succ_of_parts hq.pos (Rank.le_refl _) (by simp [ExprKind.operands]) rfl ?_
  simpa [ExprKind.parts] using hq

theorem columnOrCall_formed : Yields ts (columnOrCall inner) (ExprKind.Formed ts (k + 1) .primary) := by
  refine .after fun name => .after fun _ => .ite (call_formed hinner name) (.pure ?_)
  refine ExprKind.formed_of_parts (fun _ => rfl) (Rank.le_refl _) (by simp [ExprKind.operands]) rfl ?_
  simp [ExprKind.parts]

theorem keywordCall_formed : Yields ts (keywordCall inner) (ExprKind.Formed ts (k + 1) .primary) :=
  .after fun _ => .ite (.after fun _ => call_formed hinner _) .failExpected

theorem wordExpression_formed (t : Token) :
    Yields ts (wordExpression inner t) (ExprKind.Formed ts (k + 1) .primary) :=
  .after fun _ => .ite (castCall_formed hinner _) (.ite (convertCall_formed hinner _) (columnOrCall_formed hinner))

theorem primaryKind_formed (t : Token) : Yields ts (primaryKind inner t) (ExprKind.Formed ts (k + 1) .primary) := by
  have hleaf : ∀ {kind : ExprKind}, (∀ span, (Node.expr ⟨kind, span⟩).nests = false) →
      kind.rank = .primary →
      kind.operands = [] → kind.parts = [] → kind.variableName? = none → kind.Formed ts (k + 1) .primary := by
    intro kind hnests hrank hoperands hparts hname
    refine ExprKind.formed_of_parts hnests (hrank ▸ Rank.le_refl _) ?_ hname ?_
    · simp [hoperands]
    · simp [hparts]
  have hliteral : ∀ kind, Yields ts (literal kind t) (ExprKind.Formed ts (k + 1) .primary) :=
    fun kind => .after fun _ => .pure (hleaf (fun _ => rfl) rfl rfl rfl rfl)
  have hname : Yields ts variableName fun name => ∃ pos pos', variableName ts pos = .ok (name, pos') :=
    fun pos _ pos' h => ⟨pos, pos', h⟩
  unfold primaryKind
  split
  · exact hliteral _
  · exact hliteral _
  · exact hliteral _
  · exact hliteral _
  · exact hliteral _
  · exact hliteral _
  · refine hname.bind fun name hread => .pure ⟨fun span henclosed => ?_, Rank.le_refl _⟩
    refine Node.formed_of_parts ⟨by simp [ExprKind.operands], henclosed, ?_⟩ rfl k.succ_pos
      (by simp [Node.parts, ExprKind.parts])
    rintro _ ⟨rfl⟩
    exact hread
  · exact .after fun _ => .pure (hleaf (fun _ => rfl) rfl rfl rfl rfl)
  · exact parenthesized_formed hinner
  · exact choice_formed hinner
  · exact castCall_formed hinner _
  · exact convertCall_formed hinner _
  · exact existence_formed hinner
  · exact keywordCall_formed hinner
  · exact keywordCall_formed hinner
  · exact wordExpression_formed hinner t
  · exact columnOrCall_formed hinner
  · exact .failExpected

/-! ## Operators -/

omit hinner in
/-- An expression is formed by a span that begins before all that it encloses. -/
theorem formed_of_kind {kind : ExprKind} {r : Rank} {i j a b : Nat} (hkind : kind.Formed ts k r)
    (henclosed : (Layout.ofNodes kind.enclosed).Fits ts i j) (ha : a < i) :
    Expr.Formed ts k r ⟨kind, ts.span a b⟩ := by
  refine ⟨hkind.node _ fun c hc => ?_, hkind.rank⟩
  obtain ⟨i', j', hi, _, hstands⟩ := henclosed.stands_of_mem hc
  exact ⟨a, b, i', j', Nat.lt_of_lt_of_le ha hi, rfl, hstands⟩

theorem primary_formed : Yields ts (primary inner) (Expr.Formed ts (k + 1) .primary) := by
  intro pos e pos' h
  obtain ⟨t, ht, _⟩ := primary_begins h
  have hpos : pos < ts.size := token?_isSome (by rw [ht]; rfl)
  obtain ⟨kind, hkind, rfl⟩ := spanned_ok h
  rw [current, bind_look, ht] at hkind
  have hencloses := primaryKind_opens hinner.reads t (pos + 1) pos pos' kind (Nat.le_refl _) hpos hkind
  exact formed_of_kind (primaryKind_formed hinner t pos kind pos' hkind) hencloses (Nat.lt_succ_self pos)

omit hinner in
theorem unaryExpr_formed (op : UnaryOperator) {p : Parser Expr} (hreads : Reads ts p fun e => .node (.expr e))
    (hp : Yields ts p (Expr.Formed ts k op.rank)) {pos pos' : Nat} {e : Expr} (hpos : pos < ts.size)
    (h : spanned (fun operand span => ⟨.unary op operand, span⟩) (do skip; p) ts pos = .ok (e, pos')) :
    e.Formed ts (k + 1) op.rank := by
  obtain ⟨operand, hoperand, rfl⟩ := spanned_ok h
  have hencloses := Opens.skip hreads (pos + 1) pos pos' operand (Nat.le_refl _) hpos hoperand
  obtain ⟨_, mid, _, hoperand⟩ := bind_ok hoperand
  have hformed := hp mid operand pos' hoperand
  have hkind : (ExprKind.unary op operand).Formed ts (k + 1) op.rank := by
    refine ExprKind.formed_succ_of_parts hformed.node.pos (Rank.le_refl _) ?_ rfl ?_
    · simpa [ExprKind.operands] using hformed.rank
    · simpa [ExprKind.parts] using hformed.node
  have hentails : (Layout.node (.expr operand)).Entails (.ofNodes (ExprKind.unary op operand).enclosed) :=
    .of_eq rfl fun hmoved => absurd hmoved Bool.false_ne_true
  exact formed_of_kind hkind (hencloses.entails hentails) (Nat.lt_succ_self pos)

theorem unary_formed : Yields ts (unary inner) (Expr.Formed ts (k + 1) .signed) := by
  intro pos e pos' h
  rw [unary, current, bind_look] at h
  cases hsign : (ts.token? pos).bind fun t => signOperator t.kind with
  | none =>
    rw [hsign] at h
    exact (primary_formed hinner pos e pos' h).mono (by decide)
  | some op =>
    rw [hsign] at h
    obtain ⟨t, ht, hop⟩ := Option.bind_eq_some_iff.mp hsign
    have hrank : op.rank = .signed := by
      unfold signOperator at hop
      split at hop <;> cases hop <;> rfl
    rw [← hrank]
    exact unaryExpr_formed op hinner.reads.signed (hrank ▸ hinner.signed) (token?_isSome (by rw [ht]; rfl)) h

omit hinner in
/-- Operators of one rank group to the left. -/
theorem binaryExpr_formed {r : Rank} {op : BinaryOperator} {left right : Expr} (span : Span)
    (hop : op.rank = r ∧ op.isComparison = false) (hleft : left.Formed ts (k + 1) r)
    (hright : right.Formed ts (k + 1) r.next) : (binaryExpr op left right span).Formed ts (k + 1) r := by
  obtain ⟨rfl, hcomparison⟩ := hop
  have hkind : (ExprKind.binary op left right).Formed ts (k + 1) op.rank := by
    refine ExprKind.formed_of_parts (fun _ => rfl) (Rank.le_refl _) ?_ rfl ?_
    · simp [ExprKind.operands, BinaryOperator.leftRank, hcomparison, hleft.rank, hright.rank]
    · simp [ExprKind.parts, hleft.node, hright.node]
  exact ⟨hkind.node span (by simp [ExprKind.enclosed]), hkind.rank⟩

omit hinner in
theorem leftChain_formed {r : Rank} {p : Parser Expr} {operator : Parser (Option BinaryOperator)}
    (hp : Yields ts p (Expr.Formed ts (k + 1) r.next))
    (hoperator : Yields ts operator fun op? => ∀ op ∈ op?, op.rank = r ∧ op.isComparison = false) :
    Yields ts (leftChain p operator binaryExpr) (Expr.Formed ts (k + 1) r) :=
  .leftChain hp hoperator (fun _ h => h.mono r.le_next)
    fun _ _ _ span hop hleft hright => binaryExpr_formed span hop hleft hright

omit hinner in
theorem chainOperator_yields {table : TokenKind → Option BinaryOperator} {P : BinaryOperator → Prop}
    (htable : ∀ kind op, table kind = some op → P op) :
    Yields ts (chainOperator table) fun op? => ∀ op ∈ op?, P op := by
  refine .after fun t? => ?_
  cases t? with
  | none => exact .pure nofun
  | some t =>
    dsimp only
    split
    · exact .pure nofun
    · rename_i op hop
      refine .after fun _ => .ite (.pure nofun) (.after fun _ => .pure ?_)
      rintro _ ⟨rfl⟩
      exact htable t.kind op hop

theorem multiplicative_formed : Yields ts (multiplicative inner) (Expr.Formed ts (k + 1) .multiplicative) := by
  refine leftChain_formed (unary_formed hinner) (chainOperator_yields fun kind op hop => ?_)
  unfold multiplicativeOperator at hop
  split at hop <;> cases hop <;> exact ⟨rfl, rfl⟩

theorem additive_formed : Yields ts (additive inner) (Expr.Formed ts (k + 1) .additive) := by
  refine leftChain_formed (multiplicative_formed hinner) (chainOperator_yields fun kind op hop => ?_)
  unfold additiveOperator at hop
  split at hop <;> cases hop <;> exact ⟨rfl, rfl⟩

/-! ## Predicates -/

/-- The query of a membership test is nested, its operand is not. -/
theorem inPredicate_formed {operand : Expr} (hoperand : operand.Formed ts (k + 1) .additive) (negated : Bool) :
    Yields ts (inPredicate inner operand negated) (ExprKind.Formed ts (k + 1) .predicate) := by
  refine .after fun _ => .after fun _ => .ite ?_ ?_
  · refine hinner.query.bind fun q hq => .after fun _ => .pure ⟨fun span henclosed => ?_, Rank.le_refl _⟩
    refine ⟨Node.below_membership hoperand.node.below hq.below,
      Node.proper_of_parts ⟨?_, henclosed, by simp [ExprKind.variableName?]⟩ ?_⟩
    · simpa [ExprKind.operands] using hoperand.rank
    · simp only [Node.parts, ExprKind.parts, List.forall_mem_cons, List.not_mem_nil, IsEmpty.forall_iff,
        implies_true, and_true]
      exact ⟨hoperand.node.proper, hq.proper⟩
  · refine (expressionList_formed hinner).bind fun l hl => .after fun _ => .pure ?_
    refine ExprKind.formed_of_parts (fun _ => rfl) (Rank.le_refl _) ?_ rfl ?_
    · simpa [ExprKind.operands] using hoperand.rank
    · simpa [ExprKind.parts, hoperand.node] using hl

theorem ReadsTail.formed {operand : Expr} {kind : ExprKind} {pos pos' : Nat}
    (hoperand : operand.Formed ts (k + 1) .additive) (h : ReadsTail inner ts operand pos pos' kind) :
    kind.Formed ts (k + 1) .predicate := by
  have hadditive := additive_formed hinner
  cases h with
  | comparison hop h =>
    rename_i op right
    have hright := hadditive _ _ _ h
    have hrank := BinaryOperator.rank_of_isComparison hop
    refine ExprKind.formed_of_parts (fun _ => rfl) (hrank ▸ Rank.le_refl _) ?_ rfl ?_
    · simp [ExprKind.operands, BinaryOperator.leftRank, hop, hrank, Rank.next, hoperand.rank, hright.rank]
    · simp [ExprKind.parts, hoperand.node, hright.node]
  | null negated =>
    refine ExprKind.formed_of_parts (fun _ => rfl) (Rank.le_refl _) ?_ rfl ?_
    · simpa [ExprKind.operands] using hoperand.rank
    · simpa [ExprKind.parts] using hoperand.node
  | membership negated h => exact inPredicate_formed hinner hoperand negated _ _ _ h
  | between negated hlow hhigh =>
    have hlow := hadditive _ _ _ hlow
    have hhigh := hadditive _ _ _ hhigh
    refine ExprKind.formed_of_parts (fun _ => rfl) (Rank.le_refl _) ?_ rfl ?_
    · simp [ExprKind.operands, hoperand.rank, hlow.rank, hhigh.rank]
    · simp [ExprKind.parts, hoperand.node, hlow.node, hhigh.node]
  | like negated hpattern hescape =>
    rename_i pattern escape _
    have hpattern := hadditive _ _ _ hpattern
    replace hescape : ∀ e ∈ escape, Expr.Formed ts (k + 1) .additive e := by
      intro e he
      obtain ⟨start, stop, hrun⟩ := hescape e he
      exact hadditive start e stop hrun
    refine ExprKind.formed_of_parts (fun _ => rfl) (Rank.le_refl _) ?_ rfl ?_
    · simpa [ExprKind.operands, hoperand.rank, hpattern.rank] using fun e he => (hescape e he).rank
    · simpa [ExprKind.parts, hoperand.node, hpattern.node] using fun e he => (hescape e he).node

/-- What a predicate encloses stands behind the word that makes it one. -/
theorem ReadsTail.encloses {operand : Expr} {kind : ExprKind} {pos pos' : Nat} (hpos : pos ≤ ts.size)
    (h : ReadsTail inner ts operand pos pos' kind) : ∃ stop, (Layout.ofNodes kind.enclosed).Fits ts pos stop := by
  cases h with
  | membership negated h =>
    have hfits := inPredicate_reads hinner.reads operand negated pos pos pos' kind (.none (Nat.le_refl _) hpos) h
    exact ⟨pos', hfits.entails (.of_eq rfl nofun)⟩
  | _ => exact ⟨pos, .none (Nat.le_refl _) hpos⟩

theorem predicate_formed : Yields ts (predicate inner) (Expr.Formed ts (k + 1) .predicate) := by
  intro pos e pos' h
  rw [predicate, position, bind_look] at h
  obtain ⟨operand, mid, hoperand, h⟩ := bind_ok h
  obtain ⟨kind?, last, htail, hend⟩ := bind_ok h
  have hformed := additive_formed hinner pos operand mid hoperand
  rcases predicateTail_cases htail with ⟨rfl, rfl⟩ | ⟨kind, start, rfl, hmid, hstart, hkind⟩
  · cases hend
    exact hformed.mono (by decide)
  · cases hend
    have hnone := Layout.Fits.none (Nat.le_refl pos) (Nat.le_of_lt (additive_lt hoperand))
    have hfits := additive_reads hinner.reads pos pos mid operand hnone hoperand
    have hlt : pos < mid := hfits.lt rfl
    obtain ⟨stop, hencloses⟩ := ReadsTail.encloses hinner hstart hkind
    exact formed_of_kind (ReadsTail.formed hinner hformed hkind) hencloses (by omega)

theorem negation_formed : Yields ts (negation inner) (Expr.Formed ts (k + 1) .negation) := by
  intro pos e pos' h
  rw [negation, atKeyword, bind_look] at h
  split at h
  · rename_i hword
    exact unaryExpr_formed .not hinner.reads.negated hinner.negated (isKind_lt hword) h
  · exact (predicate_formed hinner pos e pos' h).mono (by decide)

theorem conjunction_formed : Yields ts (conjunction inner) (Expr.Formed ts (k + 1) .conjunction) := by
  refine leftChain_formed (negation_formed hinner) (.optionIf (.pure ?_))
  exact ⟨rfl, rfl⟩

theorem disjunction_formed : Yields ts (disjunction inner) (Expr.Formed ts (k + 1) .disjunction) := by
  refine leftChain_formed (conjunction_formed hinner) (.optionIf (.pure ?_))
  exact ⟨rfl, rfl⟩

end TransactLint.Grammar
