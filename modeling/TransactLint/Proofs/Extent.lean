import TransactLint.Proofs.Excerpt.Definition
import TransactLint.Proofs.Form.Statement

/-!
# How far an expression reaches

An expression reaches over all that has been read of it, and it ends with a name, a literal, a star, a closing
parenthesis, or the word `END`. So no keyword that comes next belongs to it, and none before that either.
-/

namespace TransactLint

/-! ## Where a parser ends -/

namespace Parser

variable {α β κ : Type}

/-- From a position with `P` the parser comes to a value and a position with `Q`. -/
def Ends (ts : Terminals) (P : Nat → Prop) (p : Parser α) (Q : α → Nat → Prop) : Prop :=
  ∀ pos a pos', P pos → p ts pos = .ok (a, pos') → Q a pos'

namespace Ends

variable {ts : Terminals} {P I : Nat → Prop} {p r : Parser α} {q : α → Parser β} {Q : α → Nat → Prop}
  {R : β → Nat → Prop}

theorem pure {a : α} (h : ∀ pos, P pos → Q a pos) : Ends ts P (Pure.pure a) Q := by
  intro pos b pos' hpos hb
  cases hb
  exact h pos hpos

theorem bind (hp : Ends ts P p Q) (hq : ∀ a, Ends ts (Q a) (q a) R) : Ends ts P (p >>= q) R := by
  intro pos b pos' hpos hb
  obtain ⟨a, mid, ha, hb⟩ := bind_ok hb
  exact hq a mid b pos' (hp pos a mid hpos ha) hb

/-- Where something comes before does not matter. -/
theorem after (hq : ∀ a, Ends ts (fun _ => True) (q a) R) : Ends ts P (p >>= q) R := by
  intro pos b pos' _ hb
  obtain ⟨a, mid, -, hb⟩ := bind_ok hb
  exact hq a mid b pos' trivial hb

theorem look {v : Terminals → Nat → α} (hq : ∀ a, Ends ts P (q a) R) : Ends ts P (Parser.look v >>= q) R :=
  fun pos b pos' hpos hb => hq (v ts pos) pos b pos' hpos hb

theorem last (hp : Ends ts P p fun _ => I) {f : α → β} :
    Ends ts P (p >>= fun a => Pure.pure (f a)) fun _ => I :=
  hp.bind fun _ => .pure fun _ h => h

theorem ite {c : Prop} [Decidable c] (hp : Ends ts P p Q) (hr : Ends ts P r Q) :
    Ends ts P (if c then p else r) Q := by
  split
  · exact hp
  · exact hr

theorem weaken (hp : Ends ts (fun _ => True) p Q) : Ends ts P p Q :=
  fun pos a pos' _ => hp pos a pos' trivial

theorem failExpected {what : String} : Ends ts P (Parser.failExpected what) Q :=
  fun _ _ _ _ h => absurd h failExpected_ne_ok

theorem spanned {make : κ → Span → α} {p : Parser κ} (hp : Ends ts P p fun _ => I) :
    Ends ts P (Parser.spanned make p) fun _ => I := by
  intro pos a pos' hpos ha
  obtain ⟨k, hk, -⟩ := spanned_ok ha
  exact hp pos k pos' hpos hk

/-- What is read only on a condition ends as what came before, or as it does. -/
theorem optionIf {c : Parser Bool} (hc : ∀ pos pos', c ts pos = .ok (false, pos') → pos' = pos)
    (hp : Ends ts (fun _ => True) p fun _ => I) : Ends ts I (Parser.optionIf c p) fun _ => I := by
  intro pos a? pos' hpos h
  obtain ⟨b, mid, hb, h⟩ := bind_ok h
  cases b with
  | true => exact hp.last mid a? pos' trivial h
  | false =>
    cases h
    rwa [hc pos pos' hb]

theorem listIf {c : Parser Bool} {p : Parser (List α)}
    (hc : ∀ pos pos', c ts pos = .ok (false, pos') → pos' = pos)
    (hp : Ends ts (fun _ => True) p fun _ => I) : Ends ts I (Parser.listIf c p) fun _ => I := by
  intro pos l pos' hpos h
  obtain ⟨b, mid, hb, h⟩ := bind_ok h
  cases b with
  | true => exact hp mid l pos' trivial h
  | false =>
    cases h
    rwa [hc pos pos' hb]

end Ends

theorem look_stays {ts : Terminals} {v : Terminals → Nat → Bool} (pos pos' : Nat)
    (h : look v ts pos = .ok (false, pos')) : pos' = pos :=
  (Prod.mk.inj (Except.ok.inj h)).2.symm

/-- A node is read from at least one terminal. -/
theorem Reads.lt {ts : Terminals} {p : Parser α} {node : α → Node}
    (hp : Reads ts p fun a => .node (node a)) {a : α} {pos pos' : Nat} (hpos : pos < ts.size)
    (h : p ts pos = .ok (a, pos')) : pos < pos' ∧ pos' ≤ ts.size := by
  have hfits := hp pos pos pos' a (.none (Nat.le_refl pos) (Nat.le_of_lt hpos)) h
  exact ⟨hfits.lt rfl, hfits.le.2⟩

end Parser

/-! ## Terminals that end an expression -/

def TokenKind.endsExpression : TokenKind → Bool
  | .identifier | .quotedIdentifier | .localVariable | .stringLiteral | .nationalStringLiteral | .numberLiteral
  | .binaryLiteral | .star | .rightParen | .keyword .NULL | .keyword .DEFAULT | .keyword .END => true
  | _ => false

def Terminals.MayEnd (ts : Terminals) (pos : Nat) : Prop :=
  ∃ x ∈ ts.last? pos, x.token.kind.endsExpression = true

namespace Grammar

open TransactLint.Parser

variable {ts : Terminals} {inner : Level} {pos pos' : Nat}

theorem mayEnd_succ {t : Token} (ht : ts.token? pos = some t) (hkind : t.kind.endsExpression = true) :
    ts.MayEnd (pos + 1) := by
  obtain ⟨x, hx, rfl⟩ := Option.map_eq_some_iff.mp ht
  exact ⟨x, hx, hkind⟩

theorem expect_ends {P : Nat → Prop} {kind : TokenKind} (hkind : kind.endsExpression = true) :
    Ends ts P (expect kind) fun _ => ts.MayEnd := by
  intro pos u pos' _ h
  obtain ⟨hat, rfl⟩ := expect_ok h
  obtain ⟨t, ht, rfl⟩ := Terminals.isKind_iff.mp hat
  exact mayEnd_succ ht hkind

theorem ident_ends : Ends ts (fun _ => True) ident fun _ => ts.MayEnd := by
  intro pos name pos' _ h
  obtain ⟨t, ht, hident, -, rfl⟩ := ident_ok h
  refine mayEnd_succ ht ?_
  revert hident
  unfold Token.isIdentifier
  cases t.kind <;> simp [TokenKind.isIdentifier, TokenKind.endsExpression]

theorem variableName_ends : Ends ts (fun _ => True) variableName fun _ => ts.MayEnd := by
  intro pos name pos' _ h
  obtain ⟨t, ht, hkind, -, rfl⟩ := variableName_ok h
  exact mayEnd_succ ht (by rw [hkind]; rfl)

theorem objectName_ends : Ends ts (fun _ => True) objectName fun _ => ts.MayEnd := by
  have hpart : Ends ts ts.MayEnd nextPart fun _ => ts.MayEnd := .optionIf look_stays (.after fun _ => ident_ends)
  have hrest : ∀ first : Ident, Ends ts ts.MayEnd (many nextPart >>= fun rest => pure (first :: rest))
      fun _ => ts.MayEnd := by
    intro first
    refine .last fun pos rest pos' hpos h => ?_
    exact many_keeps (fun _ before after => hpart before _ after) hpos h
  exact .spanned (.look fun _ => .ite (variableName_ends.bind hrest) (ident_ends.bind hrest))

/-! ## Primary expressions -/

theorem windowBody_ends : Ends ts (fun _ => True) (windowBody inner) fun _ => ts.MayEnd :=
  .spanned (.after fun _ => .after fun _ => .after fun _ => .after fun _ => (expect_ends rfl).last)

theorem call_ends (name : ObjectName) : Ends ts (fun _ => True) (call inner name) fun _ => ts.MayEnd := by
  have harguments : Ends ts (fun _ => True) (callArguments inner) fun _ => ts.MayEnd := by
    have hend : ∀ x : Bool × List Expr, Ends ts (fun _ => True) (expect .rightParen >>= fun _ => pure x)
        fun _ => ts.MayEnd :=
      fun _ => (expect_ends rfl).last
    refine .after fun _ => .after fun _ => .ite (.after hend) (.after fun _ => .ite ?_ (.after fun _ => ?_))
    · exact .after fun _ => .after fun _ => .after hend
    · exact .after fun _ => .after hend
  have hgroup : Ends ts ts.MayEnd (withinGroup inner) fun _ => ts.MayEnd :=
    .listIf look_stays (.after fun _ => .after fun _ => .after fun _ => (expect_ends rfl).last)
  exact harguments.bind fun _ => hgroup.bind fun _ => .last (.optionIf (fun _ _ => consume_false) windowBody_ends)

theorem castCall_ends (function : ConversionFunction) :
    Ends ts (fun _ => True) (castCall inner function) fun _ => ts.MayEnd :=
  .after fun _ => .after fun _ => .after fun _ => .after fun _ => .after fun _ => (expect_ends rfl).last

theorem convertCall_ends (function : ConversionFunction) :
    Ends ts (fun _ => True) (convertCall inner function) fun _ => ts.MayEnd :=
  .after fun _ => .after fun _ => .after fun _ => .after fun _ => .after fun _ => .after
    fun _ => (expect_ends rfl).last

theorem columnOrCall_ends : Ends ts (fun _ => True) (columnOrCall inner) fun _ => ts.MayEnd :=
  objectName_ends.bind fun name => .look fun _ => .ite (call_ends name).weaken (.pure fun _ h => h)

/-- The terminal at which a primary expression begins ends it as well, if it is a literal or a star. -/
theorem primaryKind_ends (t : Token) :
    Ends ts (fun pos => ts.token? pos = some t) (primaryKind inner t) fun _ => ts.MayEnd := by
  have hskip : ∀ kind : ExprKind, t.kind.endsExpression = true →
      Ends ts (fun pos => ts.token? pos = some t) (skip >>= fun _ => pure kind) fun _ => ts.MayEnd := by
    intro kind hkind
    refine .last fun pos u pos' ht h => ?_
    rw [skip_of_lt (token?_isSome (by rw [ht]; rfl))] at h
    cases h
    exact mayEnd_succ ht hkind
  unfold primaryKind
  split
  all_goals rename_i hkind
  · exact hskip _ (by rw [hkind]; rfl)
  · exact hskip _ (by rw [hkind]; rfl)
  · exact hskip _ (by rw [hkind]; rfl)
  · exact hskip _ (by rw [hkind]; rfl)
  · exact hskip _ (by rw [hkind]; rfl)
  · exact hskip _ (by rw [hkind]; rfl)
  · exact variableName_ends.last.weaken
  · exact hskip _ (by rw [hkind]; rfl)
  · exact .after fun _ => .look fun _ => .ite (.after fun _ => (expect_ends rfl).last) (.after fun _ =>
      (expect_ends rfl).last)
  · refine .after fun _ => .after fun _ => .after fun _ => .after fun _ => .ite .failExpected ?_
    exact .after fun _ => (expect_ends rfl).last
  · exact (castCall_ends _).weaken
  · exact (convertCall_ends _).weaken
  · exact .after fun _ => .after fun _ => .after fun _ => (expect_ends rfl).last
  · exact .look fun _ => .ite (.after fun _ => call_ends _) .failExpected
  · exact .look fun _ => .ite (.after fun _ => call_ends _) .failExpected
  · exact .look fun _ => .ite (castCall_ends _).weaken (.ite (convertCall_ends _).weaken columnOrCall_ends.weaken)
  · exact columnOrCall_ends.weaken
  · exact .failExpected

/-! ## Expressions -/

structure Occupies (ts : Terminals) (pos : Nat) (e : Expr) (pos' : Nat) : Prop where
  here : pos < ts.size
  span : e.span = ts.span pos pos'
  mayEnd : ts.MayEnd pos'

structure Level.Ends (ts : Terminals) (inner : Level) : Prop where
  negated : Parser.Ends ts (fun _ => True) inner.negated fun _ => ts.MayEnd
  signed : Parser.Ends ts (fun _ => True) inner.signed fun _ => ts.MayEnd

theorem primary_occupies {e : Expr} (h : primary inner ts pos = .ok (e, pos')) : Occupies ts pos e pos' := by
  obtain ⟨t, ht, -⟩ := primary_begins h
  obtain ⟨kind, hkind, rfl⟩ := spanned_ok h
  rw [current, bind_look, ht] at hkind
  exact ⟨token?_isSome (by rw [ht]; rfl), rfl, primaryKind_ends t pos kind pos' ht hkind⟩

theorem unaryExpr_occupies {p : Parser Expr} (op : UnaryOperator)
    (hp : Ends ts (fun _ => True) p fun _ => ts.MayEnd) (hpos : pos < ts.size) {e : Expr}
    (h : spanned (fun operand span => ⟨.unary op operand, span⟩) (do skip; p) ts pos = .ok (e, pos')) :
    Occupies ts pos e pos' := by
  obtain ⟨operand, hoperand, rfl⟩ := spanned_ok h
  obtain ⟨_, mid, -, hoperand⟩ := bind_ok hoperand
  exact ⟨hpos, rfl, hp mid operand pos' trivial hoperand⟩

/-- A chain reaches from its first operand to its last. -/
theorem leftChain_occupies {operand : Parser Expr} {operator : Parser (Option BinaryOperator)}
    (hoperand : ∀ {pos e pos'}, operand ts pos = .ok (e, pos') → Occupies ts pos e pos')
    (hstays : ∀ {mid pos'}, operator ts mid = .ok (none, pos') → pos' = mid) {e : Expr}
    (h : leftChain operand operator binaryExpr ts pos = .ok (e, pos')) : Occupies ts pos e pos' := by
  rw [leftChain, position, bind_look] at h
  obtain ⟨first, mid, hfirst, h⟩ := bind_ok h
  have hone := hoperand hfirst
  -- what has been chained so far occupies the terminals from the first operand on
  obtain ⟨last, hlast, hend⟩ :=
    iterate_ends (I := fun e mid => Occupies ts pos e mid) (fun left e mid last _ hround => by
    obtain ⟨op?, start, _, hround⟩ := bind_ok hround
    cases op? with
    | none => cases hround
    | some op =>
      obtain ⟨right, _, hright, hround⟩ := bind_ok hround
      cases hround
      exact ⟨hone.here, rfl, (hoperand hright).mayEnd⟩) hone h
  rcases hend with rfl | hend
  · exact hlast
  · obtain ⟨op?, start, hop, hend⟩ := bind_ok hend
    cases op? with
    | none =>
      cases hend
      rwa [hstays hop]
    | some op =>
      obtain ⟨right, _, _, hend⟩ := bind_ok hend
      cases hend

section
variable (hinner : inner.Ends ts)
include hinner

theorem unary_occupies {e : Expr} (h : unary inner ts pos = .ok (e, pos')) : Occupies ts pos e pos' := by
  have hpos := unary_lt h
  rw [unary, current, bind_look] at h
  cases hsign : (ts.token? pos).bind fun t => signOperator t.kind with
  | none =>
    rw [hsign] at h
    exact primary_occupies h
  | some op =>
    rw [hsign] at h
    exact unaryExpr_occupies op hinner.signed hpos h

theorem additive_occupies {e : Expr} (h : additive inner ts pos = .ok (e, pos')) : Occupies ts pos e pos' :=
  leftChain_occupies (fun h => leftChain_occupies (unary_occupies hinner) chainOperator_stays h)
    chainOperator_stays h

theorem additive_ends : Ends ts (fun _ => True) (additive inner) fun _ => ts.MayEnd :=
  fun _ _ _ _ h => (additive_occupies hinner h).mayEnd

theorem predicateTail_ends (operand : Expr) :
    Ends ts (fun _ => True) (predicateTail inner operand) fun kind? pos' => kind? ≠ none → ts.MayEnd pos' := by
  have hadditive := additive_ends hinner
  have hsome : ∀ {p : Parser ExprKind}, Ends ts (fun _ => True) p (fun _ => ts.MayEnd) →
      Ends ts (fun _ => True) (some <$> p) fun kind? pos' => kind? ≠ none → ts.MayEnd pos' :=
    fun hp => hp.bind fun _ => .pure fun _ h _ => h
  have hrest : ∀ negated, Ends ts (fun _ => True) (do
      if ← consumeKeyword .IN then some <$> inPredicate inner operand negated
      else if ← consumeKeyword .BETWEEN then some <$> betweenPredicate inner operand negated
      else if ← consumeKeyword .LIKE then some <$> likePredicate inner operand negated
      else pure none) fun kind? pos' => kind? ≠ none → ts.MayEnd pos' := by
    intro negated
    refine .after fun _ => .ite (hsome ?_) (.after fun _ => .ite (hsome ?_) (.after fun _ => .ite (hsome ?_) ?_))
    · exact .after fun _ => .look fun _ => .ite (.after fun _ => (expect_ends rfl).last) (.after fun _ =>
        (expect_ends rfl).last)
    · exact .after fun _ => .after fun _ => hadditive.last
    · exact hadditive.bind fun _ => .last (.optionIf (fun _ _ => consume_false) hadditive)
    · exact .pure fun _ _ hne => absurd rfl hne
  refine .look fun op? => ?_
  cases op? with
  | some x =>
    have hright : Ends ts (fun _ => True) (additive inner >>= fun right =>
        pure (some (ExprKind.binary x.1 operand right)))
        fun kind? pos' => kind? ≠ none → ts.MayEnd pos' := hadditive.bind fun _ => .pure fun _ h _ => h
    exact .ite (.after fun _ => hright) (.after fun _ => hright)
  | none =>
    refine .after fun _ => .ite (hsome ?_) (.look fun negated =>
      .ite (.after fun _ => hrest negated) (hrest negated))
    exact .after fun _ => (expect_ends rfl).last

theorem predicate_occupies {e : Expr} (h : predicate inner ts pos = .ok (e, pos')) : Occupies ts pos e pos' := by
  rw [predicate, position, bind_look] at h
  obtain ⟨operand, mid, hoperand, h⟩ := bind_ok h
  obtain ⟨kind?, last, htail, hend⟩ := bind_ok h
  have hadditive := additive_occupies hinner hoperand
  have hends := predicateTail_ends hinner operand mid kind? last trivial htail
  rcases predicateTail_cases htail with ⟨rfl, rfl⟩ | ⟨kind, _, rfl, -⟩
  · cases hend
    exact hadditive
  · cases hend
    exact ⟨hadditive.here, rfl, hends (Option.some_ne_none kind)⟩

theorem negation_occupies {e : Expr} (h : negation inner ts pos = .ok (e, pos')) : Occupies ts pos e pos' := by
  rw [negation, atKeyword, bind_look] at h
  split at h
  · rename_i hword
    exact unaryExpr_occupies .not hinner.negated (isKind_lt hword) h
  · exact predicate_occupies hinner h

theorem disjunction_occupies {e : Expr} (h : disjunction inner ts pos = .ok (e, pos')) : Occupies ts pos e pos' :=
  leftChain_occupies (fun h => leftChain_occupies (negation_occupies hinner) keywordOperator_stays h)
    keywordOperator_stays h

end

theorem level_ends : ∀ n, (level n).Ends ts
  | 0 => ⟨fun _ _ _ _ h => absurd h failTooDeep_ne_ok, fun _ _ _ _ h => absurd h failTooDeep_ne_ok⟩
  | n + 1 =>
    { negated := fun _ _ _ _ h => (negation_occupies (level_ends n) h).mayEnd
      signed := fun _ _ _ _ h => (unary_occupies (level_ends n) h).mayEnd }

/-- An expression reaches over all that has been read of it. -/
theorem expression_occupies {n : Nat} {e : Expr} (h : (level n).expression ts pos = .ok (e, pos')) :
    Occupies ts pos e pos' := by
  cases n with
  | zero => exact absurd h failTooDeep_ne_ok
  | succ n => exact disjunction_occupies (level_ends n) h

/-! ## Queries -/

theorem queryTerm_lt {r : QueryExpr × Nat} (h : queryTerm inner ts pos = .ok r) : pos < ts.size := by
  obtain ⟨kind, hkind, -⟩ := spanned_ok h
  rcases ifConsume_ok hkind with ⟨hparen, -⟩ | ⟨-, hkind⟩
  · exact isKind_lt hparen
  · rw [atKeyword, bind_look] at hkind
    split at hkind
    · rename_i hselect
      exact isKind_lt hselect
    · exact absurd hkind failExpected_ne_ok

theorem query_lt {r : Query × Nat} (h : query inner ts pos = .ok r) : pos < ts.size := by
  rw [query, position, bind_look] at h
  obtain ⟨tables, mid, htables, h⟩ := bind_ok h
  obtain ⟨body, _, hbody, -⟩ := bind_ok h
  obtain ⟨term, hterm⟩ := leftChain_operand hbody
  obtain ⟨c, start, hword, htables⟩ := bind_ok htables
  cases c with
  | true => exact isKind_lt (by_contra fun hnot => by cases hword.symm.trans (consume_of_not (by simpa using hnot)))
  | false =>
    cases htables
    exact consume_false hword ▸ queryTerm_lt hterm

theorem query_span {q : Query} (h : query inner ts pos = .ok (q, pos')) : q.span = ts.span pos pos' := by
  rw [query, position, bind_look] at h
  obtain ⟨_, _, -, h⟩ := bind_ok h
  obtain ⟨_, _, -, h⟩ := bind_ok h
  obtain ⟨_, _, -, h⟩ := bind_ok h
  obtain ⟨_, _, -, h⟩ := bind_ok h
  obtain ⟨_, _, -, h⟩ := bind_ok h
  dsimp only at h
  split at h
  · obtain ⟨_, _, -, h⟩ := bind_ok h
    cases h
    rfl
  · cases h
    rfl

theorem nestedQuery_extent {n : Nat} {q : Query} (h : (level n).query ts pos = .ok (q, pos')) :
    q.span = ts.span pos pos' ∧ pos < pos' ∧ pos' ≤ ts.size := by
  cases n with
  | zero => exact absurd h failTooDeep_ne_ok
  | succ n => exact ⟨query_span h, (level_reads (n + 1)).query.lt (query_lt h) h⟩

end Grammar

end TransactLint
