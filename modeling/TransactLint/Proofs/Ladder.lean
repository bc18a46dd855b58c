import TransactLint.Proofs.Layout.Expression
import TransactLint.Proofs.Yields

/-!
# The ladder of operators

The grammar of expressions is a ladder: each rank reads what the next one reads and goes on while an
operator of its own follows. What one rank has read is all that a looser one reads, unless the terminal
after it continues an expression of that rank.
-/

namespace TransactLint.Grammar

open TransactLint.Parser

inductive Rank where
  | disjunction
  | conjunction
  | negation
  | predicate
  | additive
  | multiplicative
  | signed
  | primary
deriving DecidableEq

namespace Rank

def depth : Rank → Nat
  | disjunction => 0
  | conjunction => 1
  | negation => 2
  | predicate => 3
  | additive => 4
  | multiplicative => 5
  | signed => 6
  | primary => 7

instance : LE Rank where
  le r r' := r.depth ≤ r'.depth

instance : LT Rank where
  lt r r' := r.depth < r'.depth

instance (r r' : Rank) : Decidable (r ≤ r') := inferInstanceAs (Decidable (r.depth ≤ r'.depth))

theorem le_def {r r' : Rank} : r ≤ r' ↔ r.depth ≤ r'.depth := Iff.rfl

theorem depth_inj {r r' : Rank} (h : r.depth = r'.depth) : r = r' := by
  cases r <;> cases r' <;> first | rfl | simp [depth] at h

def next : Rank → Rank
  | disjunction => conjunction
  | conjunction => negation
  | negation => predicate
  | predicate => additive
  | additive => multiplicative
  | multiplicative => signed
  | signed => primary
  | primary => primary

def parser (inner : Level) : Rank → Parser Expr
  | disjunction => Grammar.disjunction inner
  | conjunction => Grammar.conjunction inner
  | negation => Grammar.negation inner
  | predicate => Grammar.predicate inner
  | additive => Grammar.additive inner
  | multiplicative => Grammar.multiplicative inner
  | signed => unary inner
  | primary => Grammar.primary inner

/-- The rank at which a terminal goes on after an expression, if it does. -/
def ofKind? : TokenKind → Option Rank
  | .keyword .OR => some disjunction
  | .keyword .AND => some conjunction
  | .eq | .notEq | .lt | .gt | .ltEq | .gtEq | .bang | .keyword .IS | .keyword .NOT | .keyword .IN
  | .keyword .BETWEEN | .keyword .LIKE | .keyword .ESCAPE => some predicate
  | .plus | .minus | .ampersand | .pipe | .caret => some additive
  | .star | .slash | .percent => some multiplicative
  | .period | .leftParen => some primary
  | _ => none

/-- Whether a terminal after an expression of rank `r` may belong to it. -/
def continues (r : Rank) (kind : TokenKind) : Bool :=
  match ofKind? kind with
  | some own => r ≤ own
  | none => false

/-- The terminal at `pos` does not belong to an expression of rank `r` before it. -/
def EndsAt (r : Rank) (ts : Terminals) (pos : Nat) : Prop :=
  ∀ t, ts.token? pos = some t → r.continues t.kind = false

section
variable {ts : Terminals} {pos : Nat}

theorem continues_mono {r r' : Rank} {kind : TokenKind} (h : r ≤ r') (hkind : r.continues kind = false) :
    r'.continues kind = false := by
  unfold continues at *
  cases hown : ofKind? kind with
  | none => rfl
  | some own =>
    simp only [hown, decide_eq_false_iff_not, le_def] at *
    omega

theorem EndsAt.mono {r r' : Rank} (hend : r.EndsAt ts pos) (h : r ≤ r') : r'.EndsAt ts pos :=
  fun t ht => continues_mono h (hend t ht)

theorem EndsAt.isKind {r : Rank} (hend : r.EndsAt ts pos) {kind : TokenKind} (hkind : r.continues kind = true) :
    ts.isKind pos kind = false := by
  rw [Bool.eq_false_iff]
  intro h
  obtain ⟨t, ht, rfl⟩ := Terminals.isKind_iff.mp h
  rw [hend t ht] at hkind
  cases hkind

theorem EndsAt.of_none {r : Rank} (h : ts.token? pos = none) : r.EndsAt ts pos := by
  intro t ht
  rw [h] at ht
  cases ht

end

end Rank

/-! ## Where no operator follows -/

section
variable {ts : Terminals} {pos mid : Nat} {x : Expr} {inner : Level}

theorem chainOperator_of_none {table : TokenKind → Option BinaryOperator}
    (h : ((ts.token? pos).bind fun t => table t.kind) = none) : chainOperator table ts pos = .ok (none, pos) := by
  rw [chainOperator, current, bind_look]
  cases ht : ts.token? pos with
  | none => rfl
  | some t =>
    rw [ht, Option.bind_some] at h
    dsimp only
    rw [h]
    rfl

theorem chainOperator_of_endsAt {table : TokenKind → Option BinaryOperator} {r : Rank} (hend : r.EndsAt ts pos)
    (htable : ∀ kind, r.continues kind = false → table kind = none) :
    chainOperator table ts pos = .ok (none, pos) := by
  refine chainOperator_of_none ?_
  cases ht : ts.token? pos with
  | none => rfl
  | some t => exact htable t.kind (hend t ht)

theorem multiplicativeOperator_of_not (kind : TokenKind) (h : Rank.multiplicative.continues kind = false) :
    multiplicativeOperator kind = none := by
  unfold multiplicativeOperator
  split <;> first | rfl | exact absurd h (by decide)

theorem additiveOperator_of_not (kind : TokenKind) (h : Rank.additive.continues kind = false) :
    additiveOperator kind = none := by
  unfold additiveOperator
  split <;> first | rfl | exact absurd h (by decide)

theorem comparisonAt_of_endsAt (hend : Rank.predicate.EndsAt ts pos) : comparisonAt ts pos = none := by
  unfold comparisonAt
  cases ht : ts.token? pos with
  | none => rfl
  | some t =>
    have h := hend t ht
    dsimp only
    split <;> first | rfl | rename_i hkind; rw [hkind] at h; exact absurd h (by decide)

theorem predicateTail_of_endsAt (hend : Rank.predicate.EndsAt ts pos) (operand : Expr) :
    predicateTail inner operand ts pos = .ok (none, pos) := by
  have hnot : ∀ word, Rank.predicate.continues (.keyword word) = true →
      consumeKeyword word ts pos = .ok (false, pos) :=
    fun word h => consume_of_not (hend.isKind h)
  have hnegated : atNegatedPredicate ts pos = false := by
    unfold atNegatedPredicate Terminals.isKeyword
    rw [hend.isKind (by decide), Bool.false_and]
  rw [predicateTail, bind_look, comparisonAt_of_endsAt hend]
  dsimp only
  rw [bind_of_ok (hnot _ (by decide)), if_neg (by simp), bind_look, hnegated, if_neg (by simp)]
  rw [bind_of_ok (hnot _ (by decide)), if_neg (by simp), bind_of_ok (hnot _ (by decide)), if_neg (by simp)]
  rw [bind_of_ok (hnot _ (by decide))]
  rfl

/-! ## Where an expression begins -/

def beginsPrimary : TokenKind → Bool
  | .stringLiteral | .nationalStringLiteral | .binaryLiteral | .numberLiteral | .localVariable | .star | .leftParen
  | .identifier | .quotedIdentifier | .keyword .NULL | .keyword .DEFAULT | .keyword .CASE | .keyword .CAST
  | .keyword .CONVERT | .keyword .EXISTS | .keyword .LEFT | .keyword .RIGHT => true
  | _ => false

theorem signOperator_of_beginsPrimary {kind : TokenKind} (h : beginsPrimary kind = true) :
    signOperator kind = none := by
  unfold signOperator
  split <;> first | rfl | cases h

theorem primaryKind_of_not {t : Token} (h : beginsPrimary t.kind = false) :
    primaryKind inner t = failExpected "expression" := by
  unfold primaryKind
  split <;> first | rfl | (rename_i hkind; rw [hkind] at h; cases h)

theorem primary_begins {r : Expr × Nat} (h : primary inner ts pos = .ok r) :
    ∃ t, ts.token? pos = some t ∧ beginsPrimary t.kind = true := by
  obtain ⟨k, hk, -⟩ := spanned_ok h
  rw [current, bind_look] at hk
  cases ht : ts.token? pos with
  | none =>
    rw [ht] at hk
    exact absurd hk failExpected_ne_ok
  | some t =>
    rw [ht] at hk
    refine ⟨t, rfl, ?_⟩
    by_contra hbegins
    dsimp only at hk
    rw [primaryKind_of_not (Bool.eq_false_iff.mpr hbegins)] at hk
    exact absurd hk failExpected_ne_ok

theorem unary_begins {r : Expr × Nat} (h : unary inner ts pos = .ok r) : ts.isKeyword pos .NOT = false := by
  rw [Bool.eq_false_iff]
  intro hnot
  obtain ⟨t, ht, hkind⟩ := Terminals.isKind_iff.mp hnot
  rw [unary, current, bind_look, ht, Option.bind_some, hkind] at h
  obtain ⟨t', ht', hbegins⟩ := primary_begins h
  rw [ht] at ht'
  cases ht'
  rw [hkind] at hbegins
  cases hbegins

theorem leftChain_operand {α β : Type} {operand : Parser α} {operator : Parser (Option β)}
    {make : β → α → α → Span → α} {r : α × Nat} (h : leftChain operand operator make ts pos = .ok r) :
    ∃ r', operand ts pos = .ok r' := by
  rw [leftChain, position, bind_look] at h
  obtain ⟨a, mid, ha, -⟩ := bind_ok h
  exact ⟨_, ha⟩

theorem unary_lt {r : Expr × Nat} (h : unary inner ts pos = .ok r) : pos < ts.size := by
  by_contra hpos
  have hnone : ts.token? pos = none := Terminals.token?_of_le (by omega)
  rw [unary, current, bind_look, hnone] at h
  obtain ⟨t, ht, _⟩ := primary_begins h
  rw [hnone] at ht
  cases ht

theorem additive_lt {r : Expr × Nat} (h : additive inner ts pos = .ok r) : pos < ts.size := by
  obtain ⟨_, hmultiplicative⟩ := leftChain_operand h
  obtain ⟨_, hunary⟩ := leftChain_operand hmultiplicative
  exact unary_lt hunary

theorem predicate_begins {r : Expr × Nat} (h : predicate inner ts pos = .ok r) :
    ts.isKeyword pos .NOT = false := by
  rw [predicate, position, bind_look] at h
  obtain ⟨_, _, hadditive, -⟩ := bind_ok h
  obtain ⟨_, hmultiplicative⟩ := leftChain_operand hadditive
  obtain ⟨_, hunary⟩ := leftChain_operand hmultiplicative
  exact unary_begins hunary

/-! ## Climbing -/

/-- What the next rank has read is all that a rank reads, where nothing of that rank follows. -/
theorem Rank.parser_of_next {r : Rank} (h : r.next.parser inner ts pos = .ok (x, mid)) (hend : r.EndsAt ts mid) :
    r.parser inner ts pos = .ok (x, mid) := by
  cases r with
  | disjunction => exact leftChain_of_none h (optionIf_of_not (consume_of_not (hend.isKind (by decide))))
  | conjunction => exact leftChain_of_none h (optionIf_of_not (consume_of_not (hend.isKind (by decide))))
  | negation =>
    rw [parser, Grammar.negation, atKeyword, bind_look, predicate_begins h]
    exact h
  | predicate =>
    have h : Grammar.additive inner ts pos = .ok (x, mid) := h
    rw [parser, Grammar.predicate, position, bind_look, bind_of_ok h, bind_of_ok (predicateTail_of_endsAt hend x)]
    rfl
  | additive => exact leftChain_of_none h (chainOperator_of_endsAt hend additiveOperator_of_not)
  | multiplicative => exact leftChain_of_none h (chainOperator_of_endsAt hend multiplicativeOperator_of_not)
  | signed =>
    obtain ⟨t, ht, hbegins⟩ := primary_begins h
    rw [parser, unary, current, bind_look, ht, Option.bind_some, signOperator_of_beginsPrimary hbegins]
    exact h
  | primary => exact h

theorem Rank.parser_of_le {r r' : Rank} (hle : r ≤ r') (h : r'.parser inner ts pos = .ok (x, mid))
    (hend : r.EndsAt ts mid) : r.parser inner ts pos = .ok (x, mid) := by
  rw [le_def] at hle
  induction hk : r'.depth - r.depth generalizing r with
  | zero =>
    obtain rfl : r = r' := depth_inj (by omega)
    exact h
  | succ k ih =>
    have hnext : r.next.depth = r.depth + 1 := by
      cases r <;> first | rfl | (cases r' <;> simp [depth] at hk)
    refine parser_of_next (ih (by omega) (hend.mono ?_) (by omega)) hend
    rw [le_def]
    omega

theorem disjunction_of_primary (h : Grammar.primary inner ts pos = .ok (x, mid))
    (hend : Rank.disjunction.EndsAt ts mid) : disjunction inner ts pos = .ok (x, mid) :=
  @Rank.parser_of_le _ _ _ _ _ .disjunction .primary (by decide) h hend

/-! ## Descending -/

theorem chainOperator_stays {table : TokenKind → Option BinaryOperator} {pos' : Nat}
    (h : chainOperator table ts pos = .ok (none, pos')) : pos' = pos := by
  rw [chainOperator, current, bind_look] at h
  cases ht : ts.token? pos with
  | none =>
    rw [ht] at h
    cases h
    rfl
  | some t =>
    rw [ht] at h
    dsimp only at h
    cases htable : table t.kind with
    | none =>
      rw [htable] at h
      cases h
      rfl
    | some op =>
      rw [htable] at h
      dsimp only at h
      rw [nextIs, bind_look] at h
      split at h <;> cases h
      rfl

theorem keywordOperator_stays {word : Keyword} {op : BinaryOperator} {pos' : Nat}
    (h : keywordOperator word op ts pos = .ok (none, pos')) : pos' = pos := by
  cases hword : ts.isKeyword pos word with
  | true =>
    rw [keywordOperator, optionIf, consumeKeyword, bind_of_ok (consume_of_isKind hword)] at h
    cases h
  | false =>
    rw [keywordOperator, optionIf, consumeKeyword, bind_of_ok (consume_of_not hword)] at h
    cases h
    rfl

theorem map_some_ok {α : Type} {p : Parser α} {a? : Option α} {pos' : Nat}
    (h : (some <$> p) ts pos = .ok (a?, pos')) :
    ∃ a, a? = some a ∧ p ts pos = .ok (a, pos') := by
  obtain ⟨a, _, ha, h⟩ := bind_ok h
  cases h
  exact ⟨a, rfl, ha⟩

theorem map_some_ne_none {α : Type} {p : Parser α} {pos' : Nat} : (some <$> p) ts pos ≠ .ok (none, pos') := by
  intro h
  obtain ⟨a, ha, -⟩ := map_some_ok h
  cases ha

def isOperation : ExprKind → Bool
  | .binary _ _ _ | .unary _ _ | .inList _ _ _ | .inSubquery _ _ _ | .between _ _ _ _ | .like _ _ _ _
  | .isNull _ _ => true
  | _ => false

inductive ReadsTail (inner : Level) (ts : Terminals) (operand : Expr) (pos pos' : Nat) : ExprKind → Prop where
  | comparison {op : BinaryOperator} {right : Expr} (hop : op.isComparison = true)
      (h : additive inner ts pos = .ok (right, pos')) :
      ReadsTail inner ts operand pos pos' (.binary op operand right)
  | null (negated : Bool) : ReadsTail inner ts operand pos pos' (.isNull operand negated)
  | membership {kind : ExprKind} (negated : Bool)
      (h : inPredicate inner operand negated ts pos = .ok (kind, pos')) :
      ReadsTail inner ts operand pos pos' kind
  | between {low high : Expr} {mid start : Nat} (negated : Bool) (hlow : additive inner ts pos = .ok (low, mid))
      (hhigh : additive inner ts start = .ok (high, pos')) :
      ReadsTail inner ts operand pos pos' (.between operand low high negated)
  | like {pattern : Expr} {escape : Option Expr} {mid : Nat} (negated : Bool)
      (hpattern : additive inner ts pos = .ok (pattern, mid))
      (hescape : ∀ e ∈ escape, ∃ start stop, additive inner ts start = .ok (e, stop)) :
      ReadsTail inner ts operand pos pos' (.like operand pattern escape negated)

section
variable {operand : Expr} {negated : Bool} {kind : ExprKind} {pos' : Nat}

theorem nullPredicate_tail (h : nullPredicate operand ts pos = .ok (kind, pos')) :
    ReadsTail inner ts operand pos pos' kind := by
  obtain ⟨negated, _, _, h⟩ := bind_ok h
  obtain ⟨_, _, _, h⟩ := bind_ok h
  cases h
  exact .null negated

theorem betweenPredicate_tail (h : betweenPredicate inner operand negated ts pos = .ok (kind, pos')) :
    ReadsTail inner ts operand pos pos' kind := by
  obtain ⟨low, _, hlow, h⟩ := bind_ok h
  obtain ⟨_, _, _, h⟩ := bind_ok h
  obtain ⟨high, _, hhigh, h⟩ := bind_ok h
  cases h
  exact .between negated hlow hhigh

theorem likePredicate_tail (h : likePredicate inner operand negated ts pos = .ok (kind, pos')) :
    ReadsTail inner ts operand pos pos' kind := by
  obtain ⟨pattern, _, hpattern, h⟩ := bind_ok h
  obtain ⟨escape, _, hescape, h⟩ := bind_ok h
  cases h
  have hadditive : Yields ts (additive inner) fun e => ∃ start stop, additive inner ts start = .ok (e, stop) :=
    fun start _ stop h => ⟨start, stop, h⟩
  exact .like negated hpattern (hadditive.optionIf _ _ _ hescape)

end

theorem comparisonAt_isComparison {op : BinaryOperator} {size : Nat} (h : comparisonAt ts pos = some (op, size)) :
    op.isComparison = true := by
  unfold comparisonAt at h
  split at h
  · cases h
  · split at h
    case h_7 => split_ifs at h <;> cases h <;> rfl
    all_goals cases h <;> rfl

theorem comparisonAt_lt {op : BinaryOperator} {size : Nat} (h : comparisonAt ts pos = some (op, size)) :
    pos < ts.size ∧ (size = 2 → pos + 1 < ts.size) := by
  unfold comparisonAt at h
  cases ht : ts.token? pos with
  | none => simp [ht] at h
  | some t =>
    refine ⟨token?_isSome (by rw [ht]; rfl), ?_⟩
    rintro rfl
    rw [ht] at h
    dsimp only at h
    split at h
    case h_7 =>
      split at h
      · exact isKind_lt ‹_›
      split at h
      · exact isKind_lt ‹_›
      · cases h
    all_goals simp at h

section
variable {operand : Expr} {kind? : Option ExprKind} {pos' : Nat}

theorem comparison_tail {op : BinaryOperator} {size : Nat} (hop : comparisonAt ts pos = some (op, size)) (h : (do
      if size = 2 then skipTwo else skip
      let right ← additive inner
      pure (some (.binary op operand right)) : Parser (Option ExprKind)) ts pos = .ok (kind?, pos')) :
    ∃ kind mid, kind? = some kind ∧ pos ≤ mid ∧ mid ≤ ts.size ∧
      ReadsTail inner ts operand mid pos' kind := by
  obtain ⟨hlt, hlt'⟩ := comparisonAt_lt hop
  have hcomparison := comparisonAt_isComparison hop
  split at h
  · rename_i hsize
    rw [bind_of_ok (skipTwo_of_lt (hlt' hsize))] at h
    obtain ⟨right, _, hright, h⟩ := bind_ok h
    cases h
    exact ⟨_, pos + 2, rfl, by omega, hlt' hsize, .comparison hcomparison hright⟩
  · rw [bind_of_ok (skip_of_lt hlt)] at h
    obtain ⟨right, _, hright, h⟩ := bind_ok h
    cases h
    exact ⟨_, pos + 1, rfl, Nat.le_succ pos, hlt, .comparison hcomparison hright⟩

/-- The predicates that may be negated begin with a word of their own. -/
theorem negatable_tail {negated : Bool} (h : (do
      if ← consumeKeyword .IN then some <$> inPredicate inner operand negated
      else if ← consumeKeyword .BETWEEN then some <$> betweenPredicate inner operand negated
      else if ← consumeKeyword .LIKE then some <$> likePredicate inner operand negated
      else pure none : Parser (Option ExprKind)) ts pos = .ok (kind?, pos')) :
    (kind? = none ∧ pos' = pos ∧ ts.isKeyword pos .IN = false ∧ ts.isKeyword pos .BETWEEN = false ∧
      ts.isKeyword pos .LIKE = false) ∨
    ∃ kind, kind? = some kind ∧ pos < ts.size ∧ ReadsTail inner ts operand (pos + 1) pos' kind := by
  rcases ifConsume_ok h with ⟨hin, h⟩ | ⟨hin, h⟩
  · obtain ⟨kind, rfl, hkind⟩ := map_some_ok h
    exact .inr ⟨kind, rfl, isKind_lt hin, .membership negated hkind⟩
  rcases ifConsume_ok h with ⟨hbetween, h⟩ | ⟨hbetween, h⟩
  · obtain ⟨kind, rfl, hkind⟩ := map_some_ok h
    exact .inr ⟨kind, rfl, isKind_lt hbetween, betweenPredicate_tail hkind⟩
  rcases ifConsume_ok h with ⟨hlike, h⟩ | ⟨hlike, h⟩
  · obtain ⟨kind, rfl, hkind⟩ := map_some_ok h
    exact .inr ⟨kind, rfl, isKind_lt hlike, likePredicate_tail hkind⟩
  · cases h
    exact .inl ⟨rfl, rfl, hin, hbetween, hlike⟩

/-- Where no predicate follows an operand nothing has been read. -/
theorem predicateTail_cases (h : predicateTail inner operand ts pos = .ok (kind?, pos')) :
    (kind? = none ∧ pos' = pos) ∨
      ∃ kind mid, kind? = some kind ∧ pos ≤ mid ∧ mid ≤ ts.size ∧
        ReadsTail inner ts operand mid pos' kind := by
  rw [predicateTail, bind_look] at h
  cases hop : comparisonAt ts pos with
  | some x =>
    rw [hop] at h
    exact .inr (comparison_tail hop h)
  | none =>
    rw [hop] at h
    dsimp only at h
    rcases ifConsume_ok h with ⟨his, h⟩ | ⟨-, h⟩
    · obtain ⟨kind, rfl, hkind⟩ := map_some_ok h
      exact .inr ⟨kind, _, rfl, Nat.le_succ pos, isKind_lt his, nullPredicate_tail hkind⟩
    rw [bind_look] at h
    split at h
    · rename_i hnegated
      have hnot := Bool.and_eq_true_iff.mp hnegated
      have hlt := isKind_lt hnot.1
      rw [bind_of_ok (skip_of_lt hlt)] at h
      rcases negatable_tail h with ⟨-, -, hin, hbetween, hlike⟩ | ⟨kind, rfl, hlt', hkind⟩
      · -- a negation has been read only if one of the three words follows it
        simp [hin, hbetween, hlike] at hnot
      · exact .inr ⟨kind, _, rfl, by omega, hlt', hkind⟩
    · rcases negatable_tail h with ⟨rfl, rfl, -⟩ | ⟨kind, rfl, hlt, hkind⟩
      · exact .inl ⟨rfl, rfl⟩
      · exact .inr ⟨kind, _, rfl, Nat.le_succ pos, hlt, hkind⟩

end

theorem ReadsTail.isOperation {operand : Expr} {kind : ExprKind} {pos' : Nat}
    (h : ReadsTail inner ts operand pos pos' kind) :
    isOperation kind = true := by
  cases h with
  | membership negated h => rcases inPredicate_ok operand negated h with ⟨query, rfl⟩ | ⟨list, rfl⟩ <;> rfl
  | _ => rfl

theorem Rank.parser_descends {r : Rank} {e : Expr} {pos' : Nat} (h : r.parser inner ts pos = .ok (e, pos')) :
    r.next.parser inner ts pos = .ok (e, pos') ∨ isOperation e.kind = true := by
  have hchain : ∀ {operand : Parser Expr} {operator : Parser (Option BinaryOperator)},
      (∀ {mid pos'}, operator ts mid = .ok (none, pos') → pos' = mid) →
      leftChain operand operator binaryExpr ts pos = .ok (e, pos') →
      operand ts pos = .ok (e, pos') ∨ isOperation e.kind = true := by
    intro operand operator hstays h
    rcases leftChain_ok h with ⟨mid, hoperand, hoperator⟩ | ⟨op, left, right, span, rfl⟩
    · rw [hstays hoperator]
      exact .inl hoperand
    · exact .inr rfl
  cases r with
  | disjunction => exact hchain keywordOperator_stays h
  | conjunction => exact hchain keywordOperator_stays h
  | negation =>
    rw [parser, Grammar.negation, atKeyword, bind_look] at h
    split at h
    · obtain ⟨operand, -, rfl⟩ := spanned_ok h
      exact .inr rfl
    · exact .inl h
  | predicate =>
    rw [parser, Grammar.predicate, position, bind_look] at h
    obtain ⟨operand, mid, hoperand, hrest⟩ := bind_ok h
    obtain ⟨kind?, last, htail, hend⟩ := bind_ok hrest
    rcases predicateTail_cases htail with ⟨rfl, rfl⟩ | ⟨kind, _, rfl, _, _, hkind⟩
    · cases hend
      exact .inl hoperand
    · cases hend
      exact .inr hkind.isOperation
  | additive => exact hchain chainOperator_stays h
  | multiplicative => exact hchain chainOperator_stays h
  | signed =>
    rw [parser, unary, current, bind_look] at h
    cases hsign : (ts.token? pos).bind fun t => signOperator t.kind with
    | none =>
      rw [hsign] at h
      exact .inl h
    | some op =>
      rw [hsign] at h
      obtain ⟨operand, -, rfl⟩ := spanned_ok h
      exact .inr rfl
  | primary => exact .inl h

/-- What a rank reads is an operation, or a primary expression and no more. -/
theorem Rank.parser_ok {r : Rank} {e : Expr} {pos' : Nat} (h : r.parser inner ts pos = .ok (e, pos')) :
    Grammar.primary inner ts pos = .ok (e, pos') ∨ isOperation e.kind = true := by
  induction hk : primary.depth - r.depth generalizing r with
  | zero =>
    obtain rfl : r = primary := by
      cases r <;> first | rfl | simp [depth] at hk
    exact .inl h
  | succ k ih =>
    rcases parser_descends h with h | h
    · refine ih h ?_
      cases r <;> simp only [next, depth] at * <;> omega
    · exact .inr h

/-- An expression that begins neither with a sign nor with `NOT` begins with a primary one. -/
theorem Rank.primary_of_rank {r : Rank} {t : Token} {a : Expr × Nat} (ht : ts.token? pos = some t)
    (hsign : signOperator t.kind = none) (hnot : t.kind ≠ .keyword .NOT) (h : r.parser inner ts pos = .ok a) :
    beginsPrimary t.kind = true ∧ ∃ a, Grammar.primary inner ts pos = .ok a := by
  -- down the ranks: neither a sign nor `NOT` is there to be read
  induction hk : primary.depth - r.depth generalizing r a with
  | zero =>
    obtain rfl : r = primary := by
      cases r <;> first | rfl | simp [depth] at hk
    obtain ⟨u, hu, hbegins⟩ := primary_begins h
    rw [ht] at hu
    cases hu
    exact ⟨hbegins, a, h⟩
  | succ k ih =>
    have hnext : ∃ a, r.next.parser inner ts pos = .ok a := by
      cases r with
      | disjunction => exact leftChain_operand h
      | conjunction => exact leftChain_operand h
      | negation =>
        rw [parser, Grammar.negation, atKeyword, bind_look] at h
        split at h
        · rename_i hword
          obtain ⟨u, hu, hkind⟩ := Terminals.isKind_iff.mp hword
          rw [ht] at hu
          cases hu
          exact absurd hkind hnot
        · exact ⟨a, h⟩
      | predicate =>
        rw [parser, Grammar.predicate, position, bind_look] at h
        obtain ⟨operand, mid, hoperand, -⟩ := bind_ok h
        exact ⟨_, hoperand⟩
      | additive => exact leftChain_operand h
      | multiplicative => exact leftChain_operand h
      | signed =>
        rw [parser, unary, current, bind_look, ht, Option.bind_some, hsign] at h
        exact ⟨a, h⟩
      | primary => exact ⟨a, h⟩
    obtain ⟨b, hb⟩ := hnext
    refine ih hb ?_
    cases r <;> simp only [next, depth] at * <;> omega

/-! ## Parentheses -/

theorem primary_of_paren (hparen : ts.isKind pos .leftParen = true) :
    Grammar.primary inner ts pos = spanned Expr.mk (parenthesized inner) ts pos := by
  obtain ⟨t, ht, hkind⟩ := Terminals.isKind_iff.mp hparen
  have hcurrent : current ts pos = .ok (some t, pos) := by rw [current, look, ht]
  unfold Grammar.primary spanned
  rw [bind_of_ok hcurrent]
  simp only [primaryKind, hkind]

theorem primary_of_nested {e : Expr} (hparen : ts.isKind pos .leftParen = true)
    (hstarts : ts.startsQuery (pos + 1) = false) (he : inner.expression ts (pos + 1) = .ok (e, mid))
    (hclose : ts.isKind mid .rightParen = true) :
    Grammar.primary inner ts pos = .ok (⟨.nested e, ts.span pos (mid + 1)⟩, mid + 1) := by
  rw [primary_of_paren hparen]
  refine spanned_of_ok ?_
  rw [parenthesized, bind_of_ok (expect_of_isKind hparen), bind_look, hstarts, if_neg (by simp), bind_of_ok he,
    bind_of_ok (expect_of_isKind hclose)]
  rfl

theorem primary_of_subquery {q : Query} (hparen : ts.isKind pos .leftParen = true)
    (hstarts : ts.startsQuery (pos + 1) = true) (hq : inner.query ts (pos + 1) = .ok (q, mid))
    (hclose : ts.isKind mid .rightParen = true) :
    Grammar.primary inner ts pos = .ok (⟨.subquery q, ts.span pos (mid + 1)⟩, mid + 1) := by
  rw [primary_of_paren hparen]
  refine spanned_of_ok ?_
  rw [parenthesized, bind_of_ok (expect_of_isKind hparen), bind_look, hstarts, if_pos rfl, bind_of_ok hq,
    bind_of_ok (expect_of_isKind hclose)]
  rfl

/-- A primary expression that is taken to begin with a query is that query in parentheses. -/
theorem subquery_of_primary {a : Expr × Nat} (hparen : ts.isKind pos .leftParen = true)
    (hstarts : ts.startsQuery (pos + 1) = true) (h : Grammar.primary inner ts pos = .ok a) :
    ∃ q mid, inner.query ts (pos + 1) = .ok (q, mid) ∧ ts.isKind mid .rightParen = true := by
  rw [primary_of_paren hparen] at h
  obtain ⟨k, hk, -⟩ := spanned_ok h
  rw [parenthesized, bind_of_ok (expect_of_isKind hparen), bind_look, hstarts, if_pos rfl] at hk
  obtain ⟨q, mid, hq, hk⟩ := bind_ok hk
  obtain ⟨_, _, hclose, -⟩ := bind_ok hk
  exact ⟨q, mid, hq, (expect_ok hclose).1⟩

theorem nested_of_primary {a : Expr × Nat} (hparen : ts.isKind pos .leftParen = true)
    (hstarts : ts.startsQuery (pos + 1) = false) (h : Grammar.primary inner ts pos = .ok a) :
    ∃ e mid, inner.expression ts (pos + 1) = .ok (e, mid) ∧ ts.isKind mid .rightParen = true := by
  rw [primary_of_paren hparen] at h
  obtain ⟨k, hk, -⟩ := spanned_ok h
  rw [parenthesized, bind_of_ok (expect_of_isKind hparen), bind_look, hstarts, if_neg (by simp)] at hk
  obtain ⟨e, mid, he, hk⟩ := bind_ok hk
  obtain ⟨_, _, hclose, -⟩ := bind_ok hk
  exact ⟨e, mid, he, (expect_ok hclose).1⟩

/-! ## Names -/

theorem anyIdent_of_token {t : Token} (ht : ts.token? pos = some t) :
    anyIdent ts pos = .ok (⟨t.value, quoteOf t, ts.span pos (pos + 1)⟩, pos + 1) := by
  refine spanned_of_ok ?_
  rw [bind_of_ok (take_of_some ht)]
  rfl

theorem ident_of_token {t : Token} (ht : ts.token? pos = some t) (hident : t.isIdentifier = true) :
    ident ts pos = .ok (⟨t.value, quoteOf t, ts.span pos (pos + 1)⟩, pos + 1) := by
  have hlook : ts.isIdentifier pos = true := by rw [Terminals.isIdentifier, ht, ← hident]
  rw [ident, bind_look, hlook, if_pos rfl, anyIdent_of_token ht]

theorem nextPart_of_not (h : ts.isKind pos .period = false) : nextPart ts pos = .ok (none, pos) := by
  refine optionIf_of_not ?_
  rw [look, h, Bool.false_and]

theorem isKind_of_token {t : Token} (ht : ts.token? pos = some t) (kind : TokenKind) :
    ts.isKind pos kind = (t.kind == kind) := by
  rw [Terminals.isKind, ht]

theorem Rank.endsAt_of_isKind {r : Rank} {kind : TokenKind} (h : ts.isKind pos kind = true)
    (hkind : r.continues kind = false) : r.EndsAt ts pos := by
  obtain ⟨t, ht, rfl⟩ := Terminals.isKind_iff.mp h
  intro u hu
  rw [ht] at hu
  cases hu
  exact hkind

theorem not_isKind_of_isKind {kind kind' : TokenKind} (h : ts.isKind pos kind = true) (hne : kind ≠ kind') :
    ts.isKind pos kind' = false := by
  obtain ⟨t, ht, rfl⟩ := Terminals.isKind_iff.mp h
  rw [isKind_of_token ht]
  exact beq_false_of_ne hne

theorem not_isKind_of_identifier {t : Token} (ht : ts.token? pos = some t) (hident : t.isIdentifier = true)
    {kind : TokenKind} (hkind : kind.isIdentifier = false) : ts.isKind pos kind = false := by
  rw [isKind_of_token ht, beq_eq_false_iff_ne]
  rintro rfl
  rw [Token.isIdentifier, hkind] at hident
  cases hident

theorem nextPart_of_period {t : Token} (hperiod : ts.isKind pos .period = true) (ht : ts.token? (pos + 1) = some t)
    (hident : t.isIdentifier = true) :
    nextPart ts pos = .ok (some ⟨t.value, quoteOf t, ts.span (pos + 1) (pos + 2)⟩, pos + 2) := by
  have hlook : (ts.isKind pos .period && !ts.isKind (pos + 1) .star) = true := by
    rw [hperiod, not_isKind_of_identifier ht hident rfl]
    rfl
  have hskip : repeatWhile (consume .period) ts pos = .ok ((), pos + 1) := by
    refine iterate_of_loops (.round ?_ (Nat.lt_succ_self pos) (isKind_lt hperiod) (.refl _ _)) ?_
    · rw [bind_of_ok (consume_of_isKind hperiod)]
      rfl
    · rw [bind_of_ok (consume_of_not (not_isKind_of_identifier ht hident rfl))]
      rfl
  rw [nextPart, optionIf, bind_look, hlook, if_pos rfl,
    bind_of_ok ((bind_of_ok hskip).trans (ident_of_token ht hident))]
  rfl

theorem objectName_of_parts {t : Token} {rest : List Ident} (ht : ts.token? pos = some t)
    (hident : t.isIdentifier = true)
    (hrest : ReadsAll nextPart ts (pos + 1) rest mid) (hend : ts.isKind mid .period = false) :
    objectName ts pos = .ok (⟨⟨t.value, quoteOf t, ts.span pos (pos + 1)⟩ :: rest, ts.span pos mid⟩,
      mid) := by
  have hvariable : ts.isKind pos .localVariable = false := not_isKind_of_identifier ht hident rfl
  refine spanned_of_ok ?_
  rw [atKind, bind_look, hvariable, if_neg (by simp), bind_of_ok (ident_of_token ht hident)]
  exact (bind_of_ok (many_of_readsAll hrest (nextPart_of_not hend))).trans rfl

theorem objectName_lt {r : ObjectName × Nat} (h : objectName ts pos = .ok r) : pos < ts.size := by
  by_contra hpos
  have hle : ts.size ≤ pos := Nat.le_of_not_lt hpos
  obtain ⟨parts, hparts, -⟩ := spanned_ok h
  rw [atKind, bind_look, Terminals.isKind_of_le hle, if_neg (by simp)] at hparts
  obtain ⟨first, _, hfirst, -⟩ := bind_ok hparts
  rw [ident, bind_look, Terminals.isIdentifier_of_le hle, if_neg (by simp)] at hfirst
  exact absurd hfirst failExpected_ne_ok

/-- A name that no parenthesis follows is a column. -/
theorem primary_of_column (inner : Level) {t : Token} {name : ObjectName} (ht : ts.token? pos = some t)
    (hident : t.isIdentifier = true) (hname : objectName ts pos = .ok (name, mid))
    (hnext : ts.isKind (pos + 1) .leftParen = false) (hend : ts.isKind mid .leftParen = false) :
    Grammar.primary inner ts pos = .ok (⟨.column name.parts, ts.span pos mid⟩, mid) := by
  have hcolumn : columnOrCall inner ts pos = .ok (.column name.parts, mid) := by
    rw [columnOrCall, bind_of_ok hname, atKind, bind_look, hend]
    rfl
  have hkind : primaryKind inner t ts pos = .ok (.column name.parts, mid) := by
    unfold Token.isIdentifier TokenKind.isIdentifier at hident
    split at hident
    · rename_i hkind
      simp only [primaryKind, hkind]
      rw [wordExpression, nextIs, bind_look, hnext]
      exact hcolumn
    · rename_i hkind
      simp only [primaryKind, hkind]
      exact hcolumn
    · cases hident
  refine spanned_of_ok ?_
  rw [current, bind_look, ht]
  exact hkind

end

end TransactLint.Grammar
