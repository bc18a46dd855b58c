import TransactLint.Grammar.Script
import TransactLint.Proofs.Enclosure
import TransactLint.Proofs.OperatorRuns
import TransactLint.Proofs.Wording

/-!
# Reading written expressions back

A plain expression that respects the ranks of its operators is read back from its words, up to spans, as
long as what follows does not continue it.
-/

namespace TransactLint

namespace Grammar

open TransactLint.Parser

variable {ts : Terminals} {inner : Level} {pos mid pos' : Nat}

/-! ## Alike expressions -/

theorem alike_iff {kind kind' : ExprKind} {span span' : Span} :
    Expr.Alike ⟨kind, span⟩ ⟨kind', span'⟩ ↔ kind.relocate (fun _ => .empty) = kind'.relocate
      fun _ => .empty := by
  simp [Expr.Alike, Expr.relocate]

/-- `e` is read back wherever its words stand, at every rank that it respects. -/
def ReadsBack (ts : Terminals) (e : Expr) : Prop :=
  ∀ {r : Rank} {n pos pos' : Nat}, e.respects r = true → e.nesting ≤ n →
    ts.spells pos e.words pos' = true →
    r.tight.EndsAt ts pos' → ∃ e', Runs (level n) ts pos r e' pos' ∧ e'.Alike e

section
variable {e : Expr} {n : Nat} (h : ReadsBack ts e) (hwords : ts.spells pos e.words pos' = true)
include h hwords

theorem ReadsBack.parser {r : Rank} (hrespects : e.respects r = true) (hnesting : e.nesting ≤ n)
    (hend : r.EndsAt ts pos') :
    ∃ e', r.parser (level n) ts pos = .ok (e', pos') ∧ e'.Alike e := by
  obtain ⟨e', hruns, halike⟩ := h hrespects hnesting hwords (hend.mono r.le_tight)
  exact ⟨e', hruns.parser hend, halike⟩

theorem ReadsBack.expression (hrespects : e.respects .disjunction = true) (hnesting : e.nesting < n)
    (hend : Rank.disjunction.EndsAt ts pos') : ∃ e', (level n).expression ts pos = .ok (e', pos') ∧
      e'.Alike e := by
  obtain ⟨n, rfl⟩ : ∃ m, n = m + 1 := ⟨n - 1, by omega⟩
  exact h.parser hwords hrespects (by omega) hend

end

/-- Nothing that begins an expression of some rank is of this kind. -/
theorem not_isKind_of_parses {r : Rank} {a : Expr × Nat} {kind : TokenKind} (h : r.parser inner ts pos = .ok a)
    (hbegins : beginsPrimary kind = false) (hsign : signOperator kind = none) (hnot : kind ≠ .keyword .NOT) :
    ts.isKind pos kind = false := by
  rw [Bool.eq_false_iff]
  intro hkind
  obtain ⟨t, ht, rfl⟩ := Terminals.isKind_iff.mp hkind
  rw [(Rank.primary_of_rank ht hsign hnot h).1] at hbegins
  cases hbegins

/-! ## Primary expressions -/

theorem primary_of_primaryKind {t : Token} {kind : ExprKind} (ht : ts.token? pos = some t)
    (h : primaryKind inner t ts pos = .ok (kind, pos')) :
    primary inner ts pos = .ok (⟨kind, ts.span pos pos'⟩, pos') := by
  refine spanned_of_ok ?_
  rw [current, bind_look, ht]
  exact h

/-- What is primary may stand at every rank. -/
theorem Runs.of_primary {r : Rank} {e : Expr} (h : primary inner ts pos = .ok (e, pos'))
    (hend : r.tight.EndsAt ts pos') :
    Runs inner ts pos r e pos' := by
  refine .of_tight (@Rank.parser_of_le _ _ _ _ _ r.tight .primary ?_ h hend)
  cases r <;> decide

theorem readsBack_literal (kind : LiteralKind) (value : String) (span : Span) :
    ReadsBack ts ⟨.literal kind value, span⟩ := by
  intro r n pos pos' hrespects _ hwords hend
  simp only [Expr.respects, ExprKind.respects] at hrespects
  simp only [Expr.words, ExprKind.words, Terminals.spells_cons, Terminals.spells_nil] at hwords
  obtain ⟨⟨t, ht, hspells⟩, rfl⟩ := hwords
  simp only [Token.spells, Bool.and_eq_true, beq_iff_eq] at hspells
  obtain ⟨hkind, rfl⟩ := hspells
  have hliteral : primaryKind (level n) t ts pos = .ok (.literal kind t.value, pos + 1) := by
    have hskip := skip_of_lt (token?_isSome (by rw [ht]; rfl))
    cases kind <;> simp only [primaryKind, hkind, LiteralKind.tokenKind, literal] <;>
      simp only [LiteralKind.suits, beq_iff_eq] at hrespects <;> rw [bind_of_ok hskip] <;>
      first | rfl | (rw [hrespects]; rfl)
  exact ⟨_, .of_primary (primary_of_primaryKind ht hliteral) hend, rfl⟩

theorem readsBack_variable (name : Ident) (span : Span) : ReadsBack ts ⟨.localVariable name, span⟩ := by
  intro r n pos pos' _ _ hwords hend
  simp only [Expr.words, ExprKind.words, Terminals.spells_cons, Terminals.spells_nil] at hwords
  obtain ⟨⟨t, ht, hspells⟩, rfl⟩ := hwords
  simp only [Token.spells, Bool.and_eq_true, beq_iff_eq] at hspells
  obtain ⟨⟨hkind, hvalue⟩, hquote⟩ := hspells
  have hname : variableName ts pos = .ok (⟨t.value, quoteOf t, ts.span pos (pos + 1)⟩, pos + 1) := by
    rw [variableName, atKind, bind_look, isKind_of_token ht, hkind, if_pos (by decide), anyIdent_of_token ht]
  have hvariable : primaryKind (level n) t ts pos =
      .ok (.localVariable ⟨t.value, quoteOf t, ts.span pos (pos + 1)⟩, pos + 1) := by
    simp only [primaryKind, hkind]
    rw [bind_of_ok hname]
    rfl
  refine ⟨_, .of_primary (primary_of_primaryKind ht hvariable) hend, ?_⟩
  simp [alike_iff, ExprKind.relocate, mapSpans, hvalue, hquote]

theorem readsAll_parts {parts : List Ident} (h : ts.spells pos (partWords parts) pos' = true) :
    ∃ parts', ReadsAll nextPart ts pos parts' pos' ∧
      mapSpans (fun _ => .empty) parts' = mapSpans (fun _ => .empty) parts := by
  induction parts generalizing pos with
  | nil => exact ⟨[], Terminals.spells_nil.mp h, rfl⟩
  | cons x parts ih =>
    obtain ⟨hperiod, hrest⟩ := Terminals.spells_mark.mp h
    obtain ⟨⟨t, ht, hspells⟩, hrest⟩ := Terminals.spells_cons.mp hrest
    simp only [Token.spells, Bool.and_eq_true, beq_iff_eq] at hspells
    obtain ⟨⟨hident, hvalue⟩, hquote⟩ := hspells
    obtain ⟨parts', hreads, halike⟩ := ih hrest
    have hlt := token?_isSome (by rw [ht]; rfl : (ts.token? (pos + 1)).isSome = true)
    refine ⟨_ :: parts', ⟨_, nextPart_of_period hperiod ht hident, by omega, hlt, hreads⟩, ?_⟩
    simp only [mapSpans_list, List.map_cons] at *
    rw [halike]
    simp [mapSpans, hvalue, hquote]

theorem readsBack_column (parts : List Ident) (span : Span) : ReadsBack ts ⟨.column parts, span⟩ := by
  intro r n pos pos' hrespects _ hwords hend
  cases parts with
  | nil => cases hrespects
  | cons x parts =>
    obtain ⟨⟨t, ht, hspells⟩, hrest⟩ := Terminals.spells_cons.mp hwords
    simp only [Token.spells, Bool.and_eq_true, beq_iff_eq] at hspells
    obtain ⟨⟨hident, hvalue⟩, hquote⟩ := hspells
    obtain ⟨parts', hreads, halike⟩ := readsAll_parts hrest
    have hends : Rank.primary.EndsAt ts pos' := hend.mono (by cases r <;> decide)
    have hname := objectName_of_parts ht hident hreads (hends.isKind (by decide))
    have hnext : ts.isKind (pos + 1) .leftParen = false := by
      cases parts with
      | nil =>
        obtain rfl := Terminals.spells_nil.mp hrest
        exact hends.isKind (by decide)
      | cons y parts => exact not_isKind_of_isKind (Terminals.spells_mark.mp hrest).1 (by decide)
    have hcolumn := primary_of_column (level n) ht hident hname hnext (hends.isKind (by decide))
    refine ⟨_, .of_primary hcolumn hend, ?_⟩
    rw [alike_iff, ExprKind.relocate, ExprKind.relocate, mapSpans_list, mapSpans_list, List.map_cons, List.map_cons]
    rw [mapSpans_list, mapSpans_list] at halike
    rw [halike]
    simp [mapSpans, hvalue, hquote]

/-! ## Parentheses -/

theorem startsQuery_of_isKind {kind : TokenKind} (h : ts.isKind pos kind = true)
    (hkind : kind ≠ .leftParen ∧ kind ≠ .keyword .SELECT ∧ kind ≠ .keyword .WITH) :
    ts.startsQuery pos = false := by
  rw [Bool.eq_false_iff]
  intro hstarts
  rcases startsQuery_begins hstarts with hother | hother | hother
  · rw [not_isKind_of_isKind h hkind.1] at hother
    cases hother
  · rw [Terminals.isKeyword, not_isKind_of_isKind h hkind.2.1] at hother
    cases hother
  · rw [Terminals.isKeyword, not_isKind_of_isKind h hkind.2.2] at hother
    cases hother

/-- No word between `pos` and `pos'` begins a query, so none is taken to begin. -/
theorem startsQuery_of_spells {ws : List Word} (hws : ws.all Word.beginsNoQuery = true)
    (hwords : ts.spells pos ws pos' = true) (hend : ts.startsQuery pos' = false) : ts.startsQuery pos = false := by
  induction ws generalizing pos with
  | nil => rwa [Terminals.spells_nil.mp hwords]
  | cons w ws ih =>
    rw [List.all_cons, Bool.and_eq_true] at hws
    obtain ⟨hw, hws⟩ := hws
    obtain ⟨⟨t, ht, hspells⟩, hrest⟩ := Terminals.spells_cons.mp hwords
    have hword : ∀ word, t.kind = .keyword word → word ≠ .SELECT ∧ word ≠ .WITH := by
      intro word hkind
      cases w with
      | mark kind =>
        simp only [Token.spells, beq_iff_eq] at hspells
        rw [hkind] at hspells
        subst hspells
        constructor <;> (rintro rfl; cases hw)
      | name x => simp [Token.spells, Token.isIdentifier, TokenKind.isIdentifier, hkind] at hspells
      | variableName x => simp [Token.spells, hkind] at hspells
      | literal kind value =>
        simp only [Token.spells, hkind, Bool.and_eq_true, beq_iff_eq] at hspells
        constructor <;> (rintro rfl; cases kind <;> simp [LiteralKind.tokenKind] at hspells)
    rw [Bool.eq_false_iff]
    intro hstarts
    rcases startsQuery_begins hstarts with hparen | hselect | hwith
    · exact absurd (startsQuery_succ hparen hstarts) (by rw [ih hws hrest]; simp)
    · rw [Terminals.isKeyword, isKind_of_token ht, beq_iff_eq] at hselect
      exact (hword _ hselect).1 rfl
    · rw [Terminals.isKeyword, isKind_of_token ht, beq_iff_eq] at hwith
      exact (hword _ hwith).2 rfl

theorem readsBack_nested {e : Expr} (he : ReadsBack ts e) (hbegins : e.words.all Word.beginsNoQuery = true)
    (span : Span) :
    ReadsBack ts ⟨.nested e, span⟩ := by
  intro r n pos pos' hrespects hnesting hwords hend
  simp only [Expr.nesting, ExprKind.nesting] at hnesting
  simp only [Expr.words, ExprKind.words, Terminals.spells_mark, Terminals.spells_append, Terminals.spells_nil]
    at hwords
  obtain ⟨hparen, mid, hinside, hclose, rfl⟩ := hwords
  obtain ⟨e', hread, halike⟩ := he.expression hinside hrespects hnesting (Rank.endsAt_of_isKind hclose rfl)
  have hstarts := startsQuery_of_spells hbegins hinside (startsQuery_of_isKind hclose (by decide))
  refine ⟨_, .of_primary (primary_of_nested hparen hstarts hread hclose) hend, ?_⟩
  rw [alike_iff, ExprKind.relocate, ExprKind.relocate, halike.eq]

/-! ## Operators -/

theorem readsBack_unary {e : Expr} (he : ReadsBack ts e) (op : UnaryOperator) (span : Span) :
    ReadsBack ts ⟨.unary op e, span⟩ := by
  intro r n pos pos' hrespects hnesting hwords hend
  simp only [Expr.nesting, ExprKind.nesting] at hnesting
  simp only [Expr.respects, ExprKind.respects, Bool.and_eq_true, decide_eq_true_eq] at hrespects
  obtain ⟨hle, hrespects⟩ := hrespects
  obtain ⟨hkind, hwords⟩ := Terminals.spells_mark.mp hwords
  obtain ⟨n, rfl⟩ : ∃ m, n = m + 1 := ⟨n - 1, by omega⟩
  have htight : op.rank.tight = op.rank := by cases op <;> rfl
  have hends : op.rank.EndsAt ts pos' := hend.mono (htight ▸ Rank.tight_mono hle)
  obtain ⟨e', hread, halike⟩ := he.parser hwords hrespects (Nat.le_of_succ_le_succ hnesting) hends
  have hskip := skip_of_lt (isKind_lt hkind)
  have hruns : Runs (level (n + 1)) ts pos op.rank ⟨.unary op e', ts.span pos pos'⟩ pos' := by
    obtain ⟨t, ht, hkind⟩ := Terminals.isKind_iff.mp hkind
    cases op with
    | not =>
      refine .read rfl ?_
      rw [UnaryOperator.rank, Rank.parser, negation, atKeyword, bind_look, Terminals.isKeyword,
        isKind_of_token ht, hkind, UnaryOperator.kind, if_pos (by decide)]
      exact spanned_of_ok ((bind_of_ok hskip).trans hread)
    | minus | plus | bitNot =>
      refine .read rfl ?_
      rw [UnaryOperator.rank, Rank.parser, unary, current, bind_look, ht, Option.bind_some, hkind]
      exact spanned_of_ok ((bind_of_ok hskip).trans hread)
  refine ⟨_, hruns.loosen hle hend, ?_⟩
  rw [alike_iff, ExprKind.relocate, ExprKind.relocate, halike.eq]

/-- The operator of a chain is read from its mark, unless it belongs to an assignment. -/
theorem operator_of_marks {op : BinaryOperator} (hop : op.isComparison = false)
    (hmarks : ts.spells pos op.marks mid = true) (hnext : ts.isKind mid .eq = false) :
    op.rank.next.EndsAt ts pos ∧ pos < mid ∧ mid ≤ ts.size ∧
      ∃ operator, op.rank.operator? = some operator ∧ operator ts pos = .ok (some op, mid) := by
  have hchain : ∀ {table : TokenKind → Option BinaryOperator} {kind : TokenKind}, table kind = some op →
      ts.isKind pos kind = true → ts.isKind (pos + 1) .eq = false →
      chainOperator table ts pos = .ok (some op, pos + 1) := by
    intro table kind htable hkind hnext
    obtain ⟨t, ht, rfl⟩ := Terminals.isKind_iff.mp hkind
    rw [chainOperator, current, bind_look, ht]
    dsimp only
    rw [htable]
    dsimp only
    rw [nextIs, bind_look, hnext, if_neg (by simp), bind_of_ok (skip_of_lt (isKind_lt hkind))]
    rfl
  have hkeyword : ∀ {word : Keyword}, ts.isKeyword pos word = true →
      keywordOperator word op ts pos = .ok (some op, pos + 1) := by
    intro word hword
    rw [keywordOperator, optionIf, bind_of_ok (consumeKeyword_of_isKeyword hword)]
    rfl
  cases op <;> cases hop
  all_goals
    simp only [BinaryOperator.marks, Terminals.spells_mark, Terminals.spells_nil] at hmarks
    obtain ⟨hkind, rfl⟩ := hmarks
    refine ⟨Rank.endsAt_of_isKind hkind (by decide), Nat.lt_succ_self _, isKind_lt hkind, _, rfl, ?_⟩
    first | exact hkeyword hkind | exact hchain rfl hkind hnext

theorem readsBack_chain {left right : Expr} (hleft : ReadsBack ts left) (hright : ReadsBack ts right)
    {op : BinaryOperator} (hop : op.isComparison = false) (span : Span) :
    ReadsBack ts ⟨.binary op left right, span⟩ := by
  intro r n pos pos' hrespects hnesting hwords hend
  simp only [Expr.nesting, ExprKind.nesting, Nat.max_le] at hnesting
  simp only [Expr.respects, ExprKind.respects, BinaryOperator.leftRank, hop, Bool.and_eq_true, decide_eq_true_eq,
    Bool.false_eq_true, if_false] at hrespects
  simp only [Expr.words, ExprKind.words, Terminals.spells_append] at hwords
  obtain ⟨⟨hle, hleftRespects⟩, hrightRespects⟩ := hrespects
  obtain ⟨mid, hleftWords, next, hmarks, hrightWords⟩ := hwords
  have htight : op.rank.tight = op.rank.next := by cases op <;> cases hop <;> rfl
  have hends : op.rank.next.EndsAt ts pos' := hend.mono (htight ▸ Rank.tight_mono hle)
  obtain ⟨right', hrightRead, hrightAlike⟩ := hright.parser hrightWords hrightRespects hnesting.2 hends
  have hnext := not_isKind_of_parses hrightRead (by decide : beginsPrimary .eq = false) rfl (by decide)
  obtain ⟨hoperandEnds, hlt, hsize, operator, hoperator, hread⟩ := operator_of_marks hop hmarks hnext
  obtain ⟨left', hleftRuns, hleftAlike⟩ := hleft hleftRespects hnesting.1 hleftWords (htight ▸ hoperandEnds)
  have hle' := Terminals.spells_le hrightWords
  have hruns := hleftRuns.snoc hoperator hread hrightRead (by omega) (Terminals.spells_size hrightWords hsize)
  refine ⟨_, hruns.loosen hle hend, ?_⟩
  rw [alike_iff, ExprKind.relocate, ExprKind.relocate, hleftAlike.eq, hrightAlike.eq]

/-! ## Predicates -/

theorem Runs.of_tail {r : Rank} {operand : Expr} {kind : ExprKind} (hle : r ≤ .predicate)
    (hoperand : additive inner ts pos = .ok (operand, mid))
    (htail : predicateTail inner operand ts mid = .ok (some kind, pos')) (hend : r.tight.EndsAt ts pos') :
    Runs inner ts pos r ⟨kind, ts.span pos pos'⟩ pos' := by
  refine Runs.loosen hle (.read rfl ?_) hend
  rw [Rank.parser, predicate, position, bind_look, bind_of_ok hoperand, bind_of_ok htail]
  rfl

/-- What is read after a predicate at rank `r` ends an operand of it. -/
theorem Rank.additive_endsAt {r : Rank} (hle : r ≤ .predicate) (hend : r.tight.EndsAt ts pos') :
    Rank.additive.EndsAt ts pos' :=
  hend.mono (by cases r <;> first | decide | exact absurd hle (by decide))

theorem comparison_of_marks {op : BinaryOperator} (hop : op.isComparison = true)
    (hmarks : ts.spells pos op.marks mid = true) :
    Rank.additive.EndsAt ts pos ∧ ∃ size, comparisonAt ts pos = some (op, size) ∧
      (if size = 2 then skipTwo else skip) ts pos = .ok ((), mid) := by
  cases op <;> cases hop
  case notLt =>
    simp only [BinaryOperator.marks, Terminals.spells_mark, Terminals.spells_nil] at hmarks
    obtain ⟨hkind, hnext, rfl⟩ := hmarks
    refine ⟨Rank.endsAt_of_isKind hkind (by decide), 2, ?_, skipTwo_of_lt (isKind_lt hnext)⟩
    obtain ⟨t, ht, hkind⟩ := Terminals.isKind_iff.mp hkind
    simp only [comparisonAt, ht, hkind, hnext, if_true]
  case notGt =>
    simp only [BinaryOperator.marks, Terminals.spells_mark, Terminals.spells_nil] at hmarks
    obtain ⟨hkind, hnext, rfl⟩ := hmarks
    refine ⟨Rank.endsAt_of_isKind hkind (by decide), 2, ?_, skipTwo_of_lt (isKind_lt hnext)⟩
    obtain ⟨t, ht, hkind⟩ := Terminals.isKind_iff.mp hkind
    simp [comparisonAt, ht, hkind, hnext, not_isKind_of_isKind hnext (by decide : TokenKind.gt ≠ .lt)]
  all_goals
    simp only [BinaryOperator.marks, Terminals.spells_mark, Terminals.spells_nil] at hmarks
    obtain ⟨hkind, rfl⟩ := hmarks
    refine ⟨Rank.endsAt_of_isKind hkind (by decide), 1, ?_, skip_of_lt (isKind_lt hkind)⟩
    obtain ⟨t, ht, hkind⟩ := Terminals.isKind_iff.mp hkind
    simp only [comparisonAt, ht, hkind]

theorem readsBack_comparison {left right : Expr} (hleft : ReadsBack ts left) (hright : ReadsBack ts right)
    {op : BinaryOperator} (hop : op.isComparison = true) (span : Span) :
    ReadsBack ts ⟨.binary op left right, span⟩ := by
  intro r n pos pos' hrespects hnesting hwords hend
  simp only [Expr.nesting, ExprKind.nesting, Nat.max_le] at hnesting
  have hrank : op.rank = .predicate := by cases op <;> cases hop <;> rfl
  simp only [Expr.respects, ExprKind.respects, BinaryOperator.leftRank, hop, hrank, Bool.and_eq_true,
    decide_eq_true_eq, if_true, Rank.next] at hrespects
  simp only [Expr.words, ExprKind.words, Terminals.spells_append] at hwords
  obtain ⟨⟨hle, hleftRespects⟩, hrightRespects⟩ := hrespects
  obtain ⟨mid, hleftWords, next, hmarks, hrightWords⟩ := hwords
  obtain ⟨hends, size, hcomparison, hskip⟩ := comparison_of_marks hop hmarks
  obtain ⟨left', hleftRead, hleftAlike⟩ := hleft.parser hleftWords hleftRespects hnesting.1 hends
  obtain ⟨right', hrightRead, hrightAlike⟩ :=
    hright.parser hrightWords hrightRespects hnesting.2 (Rank.additive_endsAt hle hend)
  have hrest : (do
      let right ← additive (level n)
      pure (some (ExprKind.binary op left' right)) : Parser (Option ExprKind)) ts next =
      .ok (some (.binary op left' right'), pos') :=
    bind_of_ok hrightRead
  have htail : predicateTail (level n) left' ts mid = .ok (some (.binary op left' right'), pos') := by
    rw [predicateTail, bind_look, hcomparison]
    dsimp only
    by_cases hsize : size = 2
    · rw [if_pos hsize] at hskip ⊢
      exact (bind_of_ok hskip).trans hrest
    · rw [if_neg hsize] at hskip ⊢
      exact (bind_of_ok hskip).trans hrest
  refine ⟨_, .of_tail hle hleftRead htail hend, ?_⟩
  rw [alike_iff, ExprKind.relocate, ExprKind.relocate, hleftAlike.eq, hrightAlike.eq]

theorem comparisonAt_of_keyword {word : Keyword} (h : ts.isKeyword pos word = true) :
    comparisonAt ts pos = none := by
  obtain ⟨t, ht, hkind⟩ := Terminals.isKind_iff.mp h
  simp only [comparisonAt, ht, hkind]

theorem readsBack_isNull {operand : Expr} (hoperand : ReadsBack ts operand) (negated : Bool) (span : Span) :
    ReadsBack ts ⟨.isNull operand negated, span⟩ := by
  intro r n pos pos' hrespects hnesting hwords hend
  simp only [Expr.respects, ExprKind.respects, Bool.and_eq_true, decide_eq_true_eq] at hrespects
  simp only [Expr.words, ExprKind.words, Terminals.spells_append, Terminals.spells_mark] at hwords
  obtain ⟨hle, hrespects⟩ := hrespects
  obtain ⟨mid, hwords, his, next, hnot, hnull, hstop⟩ := hwords
  obtain rfl := Terminals.spells_nil.mp hstop
  obtain ⟨operand', hread, halike⟩ :=
    hoperand.parser hwords hrespects hnesting (Rank.endsAt_of_isKind his (by decide))
  have hnegated : consumeKeyword .NOT ts (mid + 1) = .ok (negated, next) := by
    cases negated with
    | false =>
      obtain rfl := Terminals.spells_nil.mp hnot
      exact consume_of_not (not_isKind_of_isKind hnull (by decide))
    | true =>
      obtain ⟨hkind, hnext⟩ := Terminals.spells_mark.mp hnot
      obtain rfl := Terminals.spells_nil.mp hnext
      exact consume_of_isKind hkind
  have htail : predicateTail (level n) operand' ts mid = .ok (some (.isNull operand' negated), next + 1) := by
    rw [predicateTail, bind_look, comparisonAt_of_keyword his]
    dsimp only
    rw [bind_of_ok (consumeKeyword_of_isKeyword his), if_pos rfl]
    refine (bind_of_ok (show nullPredicate operand' ts (mid + 1) = .ok (.isNull operand' negated, next + 1)
      from ?_)).trans rfl
    rw [nullPredicate, bind_of_ok hnegated]
    exact bind_of_ok (expectKeyword_of_isKeyword hnull)
  refine ⟨_, .of_tail hle hread htail hend, ?_⟩
  rw [alike_iff, ExprKind.relocate, ExprKind.relocate, halike.eq]

def negatable (inner : Level) (word : Keyword) (operand : Expr) (negated : Bool) : Parser ExprKind :=
  if word = .IN then inPredicate inner operand negated
  else if word = .BETWEEN then betweenPredicate inner operand negated
  else likePredicate inner operand negated

theorem negatable_of_isKeyword {word : Keyword} (hword : word ∈ [Keyword.IN, .BETWEEN, .LIKE])
    (hkind : ts.isKeyword pos word = true) {inner : Level} {operand : Expr} {negated : Bool} {kind : ExprKind}
    (h : negatable inner word operand negated ts (pos + 1) = .ok (kind, pos')) :
    (do
      if ← consumeKeyword .IN then some <$> inPredicate inner operand negated
      else if ← consumeKeyword .BETWEEN then some <$> betweenPredicate inner operand negated
      else if ← consumeKeyword .LIKE then some <$> likePredicate inner operand negated
      else pure none : Parser (Option ExprKind)) ts pos = .ok (some kind, pos') := by
  have hread := consumeKeyword_of_isKeyword hkind
  have hother : ∀ word', word ≠ word' → consumeKeyword word' ts pos = .ok (false, pos) :=
    fun word' hne => consumeKeyword_of_not (not_isKind_of_isKind hkind fun heq => hne (TokenKind.keyword.inj heq))
  simp only [List.mem_cons, List.not_mem_nil, or_false] at hword
  rcases hword with rfl | rfl | rfl
  · rw [bind_of_ok hread, if_pos rfl]
    exact bind_of_ok h
  · rw [bind_of_ok (hother _ (by decide)), if_neg (by simp), bind_of_ok hread, if_pos rfl]
    exact bind_of_ok h
  · rw [bind_of_ok (hother _ (by decide)), if_neg (by simp), bind_of_ok (hother _ (by decide)), if_neg (by simp),
      bind_of_ok hread, if_pos rfl]
    exact bind_of_ok h

theorem predicateTail_of_word {word : Keyword} (hword : word ∈ [Keyword.IN, .BETWEEN, .LIKE]) {negated : Bool}
    {ws : List Word} (hwords : ts.spells pos (notWord negated ++ .mark (.keyword word) :: ws) pos' = true) :
    Rank.additive.EndsAt ts pos ∧ ∃ next, ts.spells next ws pos' = true ∧
      ∀ inner operand kind last, negatable inner word operand negated ts next = .ok (kind, last) →
        predicateTail inner operand ts pos = .ok (some kind, last) := by
  simp only [Terminals.spells_append, Terminals.spells_mark] at hwords
  obtain ⟨mid, hnot, hkind, hwords⟩ := hwords
  have hpredicate : Rank.additive.continues (.keyword word) = false ∧ word ≠ .IS ∧ word ≠ .NOT := by
    simp only [List.mem_cons, List.not_mem_nil, or_false] at hword
    rcases hword with rfl | rfl | rfl <;> decide
  cases negated with
  | false =>
    obtain rfl := Terminals.spells_nil.mp hnot
    refine ⟨Rank.endsAt_of_isKind hkind hpredicate.1, _, hwords, fun inner operand kind last h => ?_⟩
    have hnot : ts.isKeyword pos .NOT = false :=
      not_isKind_of_isKind hkind fun heq => hpredicate.2.2 (TokenKind.keyword.inj heq)
    rw [predicateTail, bind_look, comparisonAt_of_keyword hkind]
    dsimp only
    rw [bind_of_ok (consumeKeyword_of_not (not_isKind_of_isKind hkind fun heq =>
      hpredicate.2.1 (TokenKind.keyword.inj heq))), if_neg (by simp), bind_look, atNegatedPredicate, hnot,
        Bool.false_and, if_neg (by simp)]
    exact negatable_of_isKeyword hword hkind h
  | true =>
    obtain ⟨hbefore, hmid⟩ := Terminals.spells_mark.mp hnot
    obtain rfl := Terminals.spells_nil.mp hmid
    refine ⟨Rank.endsAt_of_isKind hbefore (by decide), _, hwords, fun inner operand kind last h => ?_⟩
    have hnegated : atNegatedPredicate ts pos = true := by
      rw [atNegatedPredicate, Terminals.isKeyword, hbefore, Bool.true_and]
      simp only [List.mem_cons, List.not_mem_nil, or_false] at hword
      rcases hword with rfl | rfl | rfl <;> simp [Terminals.isKeyword, hkind]
    rw [predicateTail, bind_look, comparisonAt_of_keyword hbefore]
    dsimp only
    rw [bind_of_ok (consumeKeyword_of_not (not_isKind_of_isKind hbefore (by decide))), if_neg (by simp),
      bind_look, hnegated, if_pos rfl, bind_of_ok (skip_of_lt (isKind_lt hbefore))]
    exact negatable_of_isKeyword hword hkind h

theorem readsBack_between {operand low high : Expr} (hoperand : ReadsBack ts operand) (hlow : ReadsBack ts low)
    (hhigh : ReadsBack ts high) (negated : Bool) (span : Span) :
    ReadsBack ts ⟨.between operand low high negated, span⟩ := by
  intro r n pos pos' hrespects hnesting hwords hend
  simp only [Expr.nesting, ExprKind.nesting, Nat.max_le] at hnesting
  simp only [Expr.respects, ExprKind.respects, Bool.and_eq_true, decide_eq_true_eq] at hrespects
  obtain ⟨⟨⟨hle, hrespects⟩, hlowRespects⟩, hhighRespects⟩ := hrespects
  obtain ⟨mid, hwords, htailWords⟩ := Terminals.spells_append.mp hwords
  obtain ⟨hends, next, hrest, htail⟩ := predicateTail_of_word (by simp) htailWords
  simp only [Terminals.spells_append, Terminals.spells_mark] at hrest
  obtain ⟨last, hlowWords, hand, hhighWords⟩ := hrest
  obtain ⟨operand', hread, halike⟩ := hoperand.parser hwords hrespects hnesting.1 hends
  obtain ⟨low', hlowRead, hlowAlike⟩ :=
    hlow.parser hlowWords hlowRespects hnesting.2.1 (Rank.endsAt_of_isKind hand (by decide))
  obtain ⟨high', hhighRead, hhighAlike⟩ :=
    hhigh.parser hhighWords hhighRespects hnesting.2.2 (Rank.additive_endsAt hle hend)
  have hbetween : betweenPredicate (level n) operand' negated ts next = .ok (.between operand' low' high' negated,
      pos') := by
    rw [betweenPredicate]
    exact (bind_of_ok hlowRead).trans ((bind_of_ok (expectKeyword_of_isKeyword hand)).trans (bind_of_ok hhighRead))
  refine ⟨_, .of_tail hle hread (htail _ operand' _ _ hbetween) hend, ?_⟩
  rw [alike_iff, ExprKind.relocate, ExprKind.relocate, halike.eq, hlowAlike.eq, hhighAlike.eq]

/-! ## Lists and parts that may be absent -/

/-- Expressions with a comma before each, up to where no expression goes on. -/
theorem readsAll_more {es : List Expr} {n : Nat} (hes : ∀ e ∈ es, ReadsBack ts e)
    (hrespects : Expr.allRespect es = true)
    (hnesting : Expr.listNesting es < n) (hwords : ts.spells pos (Expr.moreWords es) pos' = true)
    (hend : Rank.disjunction.EndsAt ts pos') :
    Rank.disjunction.EndsAt ts pos ∧
      ∃ es', ReadsAll (optionIf (consume .comma) (level n).expression) ts pos es' pos' ∧
      Expr.relocateList (fun _ => .empty) es' = Expr.relocateList (fun _ => .empty) es := by
  induction es generalizing pos with
  | nil =>
    obtain rfl := Terminals.spells_nil.mp hwords
    exact ⟨hend, [], rfl, rfl⟩
  | cons e es ih =>
    simp only [Expr.allRespect, Bool.and_eq_true] at hrespects
    simp only [Expr.listNesting, Nat.max_lt] at hnesting
    simp only [Expr.moreWords, Terminals.spells_mark, Terminals.spells_append] at hwords
    obtain ⟨hcomma, mid, hfirst, hrest⟩ := hwords
    obtain ⟨he, hes⟩ := List.forall_mem_cons.mp hes
    -- the rest first: an expression ends where the rest begins
    obtain ⟨hends, es', hreads, halikes⟩ := ih hes hrespects.2 hnesting.2 hrest
    obtain ⟨e', hread, halike⟩ := he.expression hfirst hrespects.1 hnesting.1 hends
    have hitem : optionIf (consume .comma) (level n).expression ts pos = .ok (some e', mid) := by
      rw [optionIf, bind_of_ok (consume_of_isKind hcomma), if_pos rfl]
      exact bind_of_ok hread
    have hle := Terminals.spells_le hfirst
    have hsize := Terminals.spells_size hfirst (isKind_lt hcomma)
    refine ⟨Rank.endsAt_of_isKind hcomma rfl, e' :: es', ⟨mid, hitem, by omega, hsize, hreads⟩, ?_⟩
    rw [Expr.relocateList, Expr.relocateList, halikes, halike.eq]

theorem readsBack_inList {operand : Expr} {list : List Expr} (hoperand : ReadsBack ts operand)
    (hlist : ∀ e ∈ list, ReadsBack ts e) (hbegins : (Expr.listWords list).all Word.beginsNoQuery = true)
    (negated : Bool) (span : Span) : ReadsBack ts ⟨.inList operand list negated, span⟩ := by
  intro r n pos pos' hrespects hnesting hwords hend
  simp only [Expr.nesting, ExprKind.nesting, Nat.max_le] at hnesting
  simp only [Expr.respects, ExprKind.respects, Bool.and_eq_true, decide_eq_true_eq] at hrespects
  obtain ⟨⟨⟨hle, hrespects⟩, hempty⟩, hall⟩ := hrespects
  obtain ⟨mid, hoperandWords, htailWords⟩ := Terminals.spells_append.mp hwords
  obtain ⟨hends, next, hrest, htail⟩ := predicateTail_of_word (by simp) htailWords
  simp only [Terminals.spells_append, Terminals.spells_mark] at hrest
  obtain ⟨hparen, last, hlistWords, hclose, hstop⟩ := hrest
  obtain rfl := Terminals.spells_nil.mp hstop
  obtain ⟨operand', hread, halike⟩ := hoperand.parser hoperandWords hrespects hnesting.1 hends
  have hstarts := startsQuery_of_spells hbegins hlistWords (startsQuery_of_isKind hclose (by decide))
  cases list with
  | nil => cases hempty
  | cons e es =>
    simp only [Expr.allRespect, Bool.and_eq_true] at hall
    simp only [Expr.listNesting] at hnesting
    obtain ⟨first, hfirst, hmore⟩ := Terminals.spells_append.mp hlistWords
    obtain ⟨he, hes⟩ := List.forall_mem_cons.mp hlist
    obtain ⟨hends, es', hreads, halikes⟩ :=
      readsAll_more hes hall.2 (by omega : Expr.listNesting es < n) hmore (Rank.endsAt_of_isKind hclose rfl)
    obtain ⟨e', hreadFirst, halikeFirst⟩ := he.expression hfirst hall.1 (by omega : e.nesting < n) hends
    have hlist : expressionList (level n) ts (next + 1) = .ok (e' :: es', last) := by
      rw [expressionList, commaSeparated, bind_of_ok hreadFirst]
      have hnone : optionIf (consume .comma) (level n).expression ts last = .ok (none, last) :=
        optionIf_of_not (consume_of_not (not_isKind_of_isKind hclose (by decide)))
      exact bind_of_ok (many_of_readsAll hreads hnone)
    have hin : inPredicate (level n) operand' negated ts next = .ok (.inList operand' (e' :: es') negated,
        last + 1) := by
      rw [inPredicate, bind_of_ok (expect_of_isKind hparen), bind_look, hstarts, if_neg (by simp), bind_of_ok hlist]
      exact bind_of_ok (expect_of_isKind hclose)
    refine ⟨_, .of_tail hle hread (htail _ operand' _ _ hin) hend, ?_⟩
    rw [alike_iff, ExprKind.relocate, ExprKind.relocate, Expr.relocateList, Expr.relocateList, halikes, halike.eq,
      halikeFirst.eq]

section
variable {word : Keyword} {e? : Option Expr}
  (hwords : ts.spells pos (Expr.words? [.mark (.keyword word)] e?) pos' = true)
include hwords

/-- What may be absent begins with its word, or nothing stands there. -/
theorem endsAt_of_words? {r : Rank} (hword : r.continues (.keyword word) = false) (hend : r.EndsAt ts pos') :
    r.EndsAt ts pos := by
  cases e? with
  | none => exact Terminals.spells_nil.mp hwords ▸ hend
  | some e => exact Rank.endsAt_of_isKind (Terminals.spells_mark.mp hwords).1 hword

theorem optionIf_of_words? {p : Parser Expr} (hend : ts.isKeyword pos' word = false)
    (hp : ∀ e ∈ e?, ∀ {mid}, ts.spells mid e.words pos' = true → ∃ e', p ts mid = .ok (e', pos') ∧
      e'.Alike e) :
    ∃ e?', optionIf (consumeKeyword word) p ts pos = .ok (e?', pos') ∧
      Expr.relocate? (fun _ => .empty) e?' = Expr.relocate? (fun _ => .empty) e? := by
  cases e? with
  | none =>
    obtain rfl := Terminals.spells_nil.mp hwords
    exact ⟨none, optionIf_of_not (consumeKeyword_of_not hend), rfl⟩
  | some e =>
    obtain ⟨hword, hwords⟩ := Terminals.spells_mark.mp hwords
    obtain ⟨e', hread, halike⟩ := hp e rfl hwords
    refine ⟨some e', ?_, congrArg some halike⟩
    rw [optionIf, bind_of_ok (consumeKeyword_of_isKeyword hword), if_pos rfl]
    exact bind_of_ok hread

end

theorem readsBack_like {operand pattern : Expr} {escape : Option Expr} (hoperand : ReadsBack ts operand)
    (hpattern : ReadsBack ts pattern) (hescape : ∀ e ∈ escape, ReadsBack ts e) (negated : Bool) (span : Span) :
    ReadsBack ts ⟨.like operand pattern escape negated, span⟩ := by
  intro r n pos pos' hrespects hnesting hwords hend
  simp only [Expr.nesting, ExprKind.nesting, Nat.max_le] at hnesting
  simp only [Expr.respects, ExprKind.respects, Bool.and_eq_true, decide_eq_true_eq] at hrespects
  obtain ⟨⟨⟨hle, hrespects⟩, hpatternRespects⟩, hescapeRespects⟩ := hrespects
  obtain ⟨mid, hwords, htailWords⟩ := Terminals.spells_append.mp hwords
  obtain ⟨hends, next, hrest, htail⟩ := predicateTail_of_word (by simp) htailWords
  obtain ⟨last, hpatternWords, hescapeWords⟩ := Terminals.spells_append.mp hrest
  obtain ⟨operand', hread, halike⟩ := hoperand.parser hwords hrespects hnesting.1 hends
  have hadditive := Rank.additive_endsAt hle hend
  obtain ⟨pattern', hpatternRead, hpatternAlike⟩ :=
    hpattern.parser hpatternWords hpatternRespects hnesting.2.1
      (endsAt_of_words? hescapeWords (by decide) hadditive)
  -- a predicate of this rank is not followed by `ESCAPE`
  have hnone : ts.isKeyword pos' .ESCAPE = false := by
    refine hend.isKind ?_
    cases r <;> first | decide | exact absurd hle (by decide)
  obtain ⟨escape', hescapeRead, hescapeAlike⟩ := optionIf_of_words? hescapeWords hnone
    fun e he mid hword => by
      cases he
      exact ReadsBack.parser (hescape e rfl) hword hescapeRespects hnesting.2.2 hadditive
  have hlike : likePredicate (level n) operand' negated ts next = .ok (.like operand' pattern' escape' negated,
      pos') := by
    rw [likePredicate]
    exact (bind_of_ok hpatternRead).trans (bind_of_ok hescapeRead)
  refine ⟨_, .of_tail hle hread (htail _ operand' _ _ hlike) hend, ?_⟩
  rw [alike_iff, ExprKind.relocate, ExprKind.relocate, halike.eq, hpatternAlike.eq, hescapeAlike]

/-! ## `CASE` -/

/-- Branches up to where no expression goes on. -/
theorem readsAll_branches {xs : List WhenClause} {n : Nat}
    (hxs : ∀ x ∈ xs, ReadsBack ts x.condition ∧ ReadsBack ts x.result)
    (hrespects : WhenClause.allRespect xs = true)
    (hnesting : WhenClause.listNesting xs < n) (hwords : ts.spells pos (WhenClause.listWords xs) pos' = true)
    (hend : Rank.disjunction.EndsAt ts pos') :
    Rank.disjunction.EndsAt ts pos ∧
      ∃ xs', ReadsAll (optionIf (atKeyword .WHEN) (whenClause (level n))) ts pos xs' pos' ∧
        WhenClause.relocateList (fun _ => .empty) xs' = WhenClause.relocateList (fun _ => .empty) xs := by
  induction xs generalizing pos with
  | nil =>
    obtain rfl := Terminals.spells_nil.mp hwords
    exact ⟨hend, [], rfl, rfl⟩
  | cons x xs ih =>
    obtain ⟨condition, result, span⟩ := x
    simp only [WhenClause.allRespect, Bool.and_eq_true] at hrespects
    simp only [WhenClause.listNesting, Nat.max_lt] at hnesting
    simp only [WhenClause.listWords, Terminals.spells_mark, Terminals.spells_append] at hwords
    obtain ⟨hwhen, mid, hconditionWords, hthen, last, hresultWords, hrest⟩ := hwords
    obtain ⟨⟨hcondition, hresult⟩, hxs⟩ := List.forall_mem_cons.mp hxs
    obtain ⟨hends, xs', hreads, halikes⟩ := ih hxs hrespects.2 hnesting.2 hrest
    obtain ⟨condition', hconditionRead, hconditionAlike⟩ :=
      ReadsBack.expression hcondition hconditionWords hrespects.1.1 hnesting.1.1 (Rank.endsAt_of_isKind hthen rfl)
    obtain ⟨result', hresultRead, hresultAlike⟩ :=
      ReadsBack.expression hresult hresultWords hrespects.1.2 hnesting.1.2 hends
    have hclause : whenClause (level n) ts pos = .ok (⟨condition', result', ts.span pos last⟩, last) := by
      refine spanned_of_ok (k := (condition', result')) ?_
      rw [bind_of_ok (expectKeyword_of_isKeyword hwhen), bind_of_ok hconditionRead,
        bind_of_ok (expectKeyword_of_isKeyword hthen)]
      exact bind_of_ok hresultRead
    have hitem : optionIf (atKeyword .WHEN) (whenClause (level n)) ts pos =
        .ok (some ⟨condition', result', ts.span pos last⟩, last) := by
      rw [optionIf, atKeyword, bind_look, Terminals.isKeyword, hwhen, if_pos rfl]
      exact bind_of_ok hclause
    have hmid := Terminals.spells_le hconditionWords
    have hlast := Terminals.spells_le hresultWords
    have hsize := Terminals.spells_size hresultWords (isKind_lt hthen)
    refine ⟨Rank.endsAt_of_isKind hwhen rfl, _ :: xs', ⟨last, hitem, by omega, hsize, hreads⟩, ?_⟩
    simp only [WhenClause.relocateList, WhenClause.relocate, halikes, hconditionAlike.eq, hresultAlike.eq]

/-- The operand of a simple `CASE` does not begin with `WHEN`, with which a searched one goes on. -/
theorem caseOperand_of_words {operand : Option Expr} {n : Nat} (hoperand : ∀ e ∈ operand, ReadsBack ts e)
    (hrespects : Expr.respects? operand .disjunction = true) (hnesting : Expr.nesting? operand < n)
    (hwords : ts.spells pos (Expr.words? [] operand) mid = true) (hwhen : ts.isKeyword mid .WHEN = true) :
    ∃ operand', optionIf (pure !ts.isKeyword pos .WHEN) (level n).expression ts pos = .ok (operand', mid) ∧
      Expr.relocate? (fun _ => .empty) operand' = Expr.relocate? (fun _ => .empty) operand := by
  cases operand with
  | none =>
    obtain rfl := Terminals.spells_nil.mp hwords
    rw [hwhen]
    exact ⟨none, rfl, rfl⟩
  | some e =>
    obtain ⟨e', hread, halike⟩ :=
      ReadsBack.expression (hoperand e rfl) hwords hrespects hnesting (Rank.endsAt_of_isKind hwhen rfl)
    have hnot : ts.isKeyword pos .WHEN = false := by
      obtain ⟨n, rfl⟩ : ∃ m, n = m + 1 := ⟨n - 1, by omega⟩
      exact @not_isKind_of_parses _ _ _ .disjunction _ _ hread rfl rfl (by decide)
    refine ⟨some e', ?_, congrArg some halike⟩
    rw [hnot]
    exact bind_of_ok hread

theorem primary_of_choice {inner : Level} {operand otherwise : Option Expr} {branches : List WhenClause}
    {first last stop : Nat} (hcase : ts.isKeyword pos .CASE = true)
    (hoperand : optionIf (pure !ts.isKeyword (pos + 1) .WHEN) inner.expression ts (pos + 1) = .ok (operand, first))
    (hbranches : many (optionIf (atKeyword .WHEN) (whenClause inner)) ts first = .ok (branches, last))
    (hsome : branches.isEmpty = false)
    (hotherwise : optionIf (consumeKeyword .ELSE) inner.expression ts last = .ok (otherwise, stop))
    (hstop : ts.isKeyword stop .END = true) :
    primary inner ts pos = .ok (⟨.choice operand branches otherwise, ts.span pos (stop + 1)⟩, stop + 1) := by
  have hsearched : atKeyword .WHEN ts (pos + 1) = .ok (ts.isKeyword (pos + 1) .WHEN, pos + 1) := rfl
  have hchoice : choice inner ts pos = .ok (.choice operand branches otherwise, stop + 1) := by
    rw [choice, bind_of_ok (expectKeyword_of_isKeyword hcase), bind_of_ok hsearched, bind_of_ok hoperand,
      bind_of_ok hbranches, hsome, if_neg (by simp), bind_of_ok hotherwise]
    exact bind_of_ok (expectKeyword_of_isKeyword hstop)
  obtain ⟨t, ht, hkind⟩ := Terminals.isKind_iff.mp hcase
  refine primary_of_primaryKind ht ?_
  simp only [primaryKind, hkind]
  exact hchoice

theorem readsBack_choice {operand otherwise : Option Expr} {branches : List WhenClause}
    (hoperand : ∀ e ∈ operand, ReadsBack ts e)
    (hbranches : ∀ x ∈ branches, ReadsBack ts x.condition ∧ ReadsBack ts x.result)
    (hotherwise : ∀ e ∈ otherwise, ReadsBack ts e) (span : Span) :
    ReadsBack ts ⟨.choice operand branches otherwise, span⟩ := by
  intro r n pos pos' hrespects hnesting hwords hend
  simp only [Expr.nesting, ExprKind.nesting, Nat.succ_le_iff, Nat.max_lt] at hnesting
  simp only [Expr.respects, ExprKind.respects, Bool.and_eq_true] at hrespects
  obtain ⟨⟨⟨hoperandRespects, hempty⟩, hbranchesRespect⟩, hotherwiseRespects⟩ := hrespects
  simp only [Expr.words, ExprKind.words, Terminals.spells_mark, Terminals.spells_append] at hwords
  obtain ⟨hcase, first, hoperandWords, last, hbranchWords, stop, helseWords, hstop, hnil⟩ := hwords
  obtain rfl := Terminals.spells_nil.mp hnil
  have hendAt : Rank.disjunction.EndsAt ts stop := Rank.endsAt_of_isKind hstop rfl
  obtain ⟨-, branches', hreads, halikes⟩ :=
    readsAll_branches hbranches hbranchesRespect hnesting.2.1 hbranchWords
    (endsAt_of_words? helseWords rfl hendAt)
  have hwhen : ts.isKeyword first .WHEN = true := by
    cases branches with
    | nil => cases hempty
    | cons x xs =>
      obtain ⟨condition, result, span⟩ := x
      simp only [WhenClause.listWords, Terminals.spells_mark] at hbranchWords
      exact hbranchWords.1
  obtain ⟨operand', hoperandRead, hoperandAlike⟩ :=
    caseOperand_of_words hoperand hoperandRespects hnesting.1 hoperandWords hwhen
  obtain ⟨otherwise', helseRead, helseAlike⟩ := optionIf_of_words? helseWords
    (not_isKind_of_isKind hstop (by decide)) fun e he mid hword => by
      cases he
      exact ReadsBack.expression (hotherwise e rfl) hword hotherwiseRespects hnesting.2.2 hendAt
  -- the branches stop at `ELSE` or at `END`
  have hnone : optionIf (atKeyword .WHEN) (whenClause (level n)) ts last = .ok (none, last) := by
    refine optionIf_of_not ?_
    have hnot : ts.isKeyword last .WHEN = false := by
      cases otherwise with
      | none => exact Terminals.spells_nil.mp helseWords ▸ not_isKind_of_isKind hstop (by decide)
      | some e => exact not_isKind_of_isKind (Terminals.spells_mark.mp helseWords).1 (by decide)
    rw [atKeyword, look, hnot]
  have hsome : branches'.isEmpty = false := by
    cases branches' with
    | nil =>
      cases branches with
      | nil => cases hempty
      | cons x xs => cases halikes
    | cons x xs => rfl
  have hprimary := primary_of_choice hcase hoperandRead (many_of_readsAll hreads hnone) hsome helseRead hstop
  refine ⟨_, .of_primary hprimary hend, ?_⟩
  rw [alike_iff, ExprKind.relocate, ExprKind.relocate, hoperandAlike, halikes, helseAlike]

/-! ## Plain expressions -/

theorem partWords_beginNoQuery (parts : List Ident) : (partWords parts).all Word.beginsNoQuery = true := by
  simp [partWords, Word.beginsNoQuery]

theorem notWord_beginNoQuery (negated : Bool) : (notWord negated).all Word.beginsNoQuery = true := by
  cases negated <;> rfl

theorem marks_beginNoQuery (op : BinaryOperator) : op.marks.all Word.beginsNoQuery = true := by
  cases op <;> rfl

mutual

theorem words_beginNoQuery : ∀ e : Expr, e.words.all Word.beginsNoQuery = true
  | ⟨kind, _⟩ => kindWords_beginNoQuery kind

theorem kindWords_beginNoQuery : ∀ kind : ExprKind, kind.words.all Word.beginsNoQuery = true
  | .column [] => rfl
  | .column (x :: parts) => partWords_beginNoQuery parts
  | .localVariable _ | .literal _ _ => rfl
  | .nested inner => by simp [-List.all_eq_true, ExprKind.words, Word.beginsNoQuery, words_beginNoQuery inner]
  | .unary op operand => by cases op <;> exact words_beginNoQuery operand
  | .binary op left right => by
    simp [-List.all_eq_true, ExprKind.words, words_beginNoQuery left, marks_beginNoQuery op,
      words_beginNoQuery right]
  | .isNull operand negated => by
    simp [-List.all_eq_true, ExprKind.words, Word.beginsNoQuery, words_beginNoQuery operand,
      notWord_beginNoQuery negated]
  | .inList operand list negated => by
    simp [-List.all_eq_true, ExprKind.words, Word.beginsNoQuery, words_beginNoQuery operand,
      notWord_beginNoQuery negated, listWords_beginNoQuery list]
  | .between operand low high negated => by
    simp [-List.all_eq_true, ExprKind.words, Word.beginsNoQuery, words_beginNoQuery operand,
      notWord_beginNoQuery negated, words_beginNoQuery low, words_beginNoQuery high]
  | .like operand pattern escape negated => by
    simp [-List.all_eq_true, ExprKind.words, Word.beginsNoQuery, words_beginNoQuery operand,
      notWord_beginNoQuery negated, words_beginNoQuery pattern,
      optionWords_beginNoQuery (show [Word.mark (.keyword .ESCAPE)].all Word.beginsNoQuery = true from rfl) escape]
  | .choice operand branches otherwise => by
    simp [-List.all_eq_true, ExprKind.words, Word.beginsNoQuery, branchWords_beginNoQuery branches,
      optionWords_beginNoQuery (show [].all Word.beginsNoQuery = true from rfl) operand,
      optionWords_beginNoQuery (show [Word.mark (.keyword .ELSE)].all Word.beginsNoQuery = true from rfl) otherwise]
  | .wildcard | .call _ _ _ _ _ | .conversion _ _ _ _ | .subquery _ | .existence _ | .inSubquery _ _ _ => rfl

theorem optionWords_beginNoQuery {before : List Word} (h : before.all Word.beginsNoQuery = true) :
    ∀ e? : Option Expr, (Expr.words? before e?).all Word.beginsNoQuery = true
  | none => rfl
  | some e => by simp [-List.all_eq_true, Expr.words?, h, words_beginNoQuery e]

theorem listWords_beginNoQuery : ∀ es : List Expr, (Expr.listWords es).all Word.beginsNoQuery = true
  | [] => rfl
  | e :: es => by simp [-List.all_eq_true, Expr.listWords, words_beginNoQuery e, moreWords_beginNoQuery es]

theorem moreWords_beginNoQuery : ∀ es : List Expr, (Expr.moreWords es).all Word.beginsNoQuery = true
  | [] => rfl
  | e :: es => by simp [-List.all_eq_true, Expr.moreWords, Word.beginsNoQuery, words_beginNoQuery e,
      moreWords_beginNoQuery es]

theorem branchWords_beginNoQuery : ∀ xs : List WhenClause, (WhenClause.listWords xs).all Word.beginsNoQuery = true
  | [] => rfl
  | ⟨condition, result, _⟩ :: xs => by
    simp [-List.all_eq_true, WhenClause.listWords, Word.beginsNoQuery, words_beginNoQuery condition,
      words_beginNoQuery result, branchWords_beginNoQuery xs]

end

mutual

/-- Induction on the expression: each construct is read back if its parts are. -/
theorem readsBack : ∀ e : Expr, ReadsBack ts e
  | ⟨.column parts, span⟩ => readsBack_column parts span
  | ⟨.localVariable name, span⟩ => readsBack_variable name span
  | ⟨.literal kind value, span⟩ => readsBack_literal kind value span
  | ⟨.nested inner, span⟩ => readsBack_nested (readsBack inner) (words_beginNoQuery inner) span
  | ⟨.unary op operand, span⟩ => readsBack_unary (readsBack operand) op span
  | ⟨.binary op left right, span⟩ =>
    match hop : op.isComparison with
    | true => readsBack_comparison (readsBack left) (readsBack right) hop span
    | false => readsBack_chain (readsBack left) (readsBack right) hop span
  | ⟨.isNull operand negated, span⟩ => readsBack_isNull (readsBack operand) negated span
  | ⟨.inList operand list negated, span⟩ =>
    readsBack_inList (readsBack operand) (readsBack_list list) (listWords_beginNoQuery list) negated span
  | ⟨.between operand low high negated, span⟩ =>
    readsBack_between (readsBack operand) (readsBack low) (readsBack high) negated span
  | ⟨.like operand pattern escape negated, span⟩ =>
    readsBack_like (readsBack operand) (readsBack pattern) (readsBack_option escape) negated span
  | ⟨.choice operand branches otherwise, span⟩ =>
    readsBack_choice (readsBack_option operand) (readsBack_branches branches) (readsBack_option otherwise) span
  | ⟨.wildcard, _⟩ | ⟨.call _ _ _ _ _, _⟩ | ⟨.conversion _ _ _ _, _⟩ | ⟨.subquery _, _⟩
  | ⟨.existence _, _⟩
  | ⟨.inSubquery _ _ _, _⟩ => fun hrespects => nomatch hrespects

theorem readsBack_list : ∀ es : List Expr, ∀ e ∈ es, ReadsBack ts e
  | [] => nofun
  | e :: es => List.forall_mem_cons.mpr ⟨readsBack e, readsBack_list es⟩

theorem readsBack_option : ∀ e? : Option Expr, ∀ e ∈ e?, ReadsBack ts e
  | none => nofun
  | some e => fun _ h => Option.some.inj h ▸ readsBack e

theorem readsBack_branches : ∀ xs : List WhenClause, ∀ x ∈ xs, ReadsBack ts x.condition ∧
    ReadsBack ts x.result
  | [] => nofun
  | ⟨condition, result, _⟩ :: xs =>
    List.forall_mem_cons.mpr ⟨⟨readsBack condition, readsBack result⟩, readsBack_branches xs⟩

end

/-- A plain expression that respects the ranks of its operators and takes fewer levels than are left is read
from its words, up to spans, and no further, if it is followed by nothing, `)`, `,` or `;`. -/
theorem expression_round_trip {e : Expr} {n : Nat} (hrespects : e.respects .disjunction = true)
    (hnesting : e.nesting < n) (hwords : ts.spells pos e.words pos' = true)
    (hrest : ∀ t, ts.token? pos' = some t → t.kind = .rightParen ∨ t.kind = .comma ∨ t.kind = .semicolon) :
    ∃ e', (level n).expression ts pos = .ok (e', pos') ∧ e'.Alike e := by
  have hend : Rank.disjunction.EndsAt ts pos' := by
    intro t ht
    rcases hrest t ht with hkind | hkind | hkind <;> rw [hkind] <;> rfl
  exact ReadsBack.expression (readsBack e) hwords hrespects hnesting hend

/-- Words of every rank, before a closing parenthesis. -/
theorem expression_round_trip_mixed :
    let name (x : String) : Ident := ⟨x, none, .empty⟩
    let plain (kind : ExprKind) : Expr := ⟨kind, .empty⟩
    let number (x : String) : Expr := plain (.literal .integer x)
    let product := plain (.binary .multiply (number "2")
      (plain (.nested (plain (.binary .add (plain (.column [name "c"])) (number "3"))))))
    let range := plain (.between (plain (.column [name "a", name "b"])) (plain (.unary .minus (number "1")))
      product true)
    let member := plain (.inList (plain (.column [name "d"])) [number "1",
      plain (.localVariable (name "@v"))] false)
    let e := plain (.binary .or (plain (.unary .not range)) member)
    ∃ ts : Terminals, e.respects .disjunction = true ∧ e.nesting < nestingLimit ∧
      ts.spells 0 e.words 24 = true ∧
      ts.isKind 24 .rightParen = true ∧ ∃ e', (level nestingLimit).expression ts 0 = .ok (e', 24) ∧
        e'.Alike e := by
  intro name plain number product range member e
  obtain ⟨tokens, -, hwords, hclose⟩ :
      ∃ tokens ∈ (tokenize "NOT a.b NOT BETWEEN -1 AND 2 * (c + 3) OR d IN (1, @v))").toOption,
        (Terminals.ofTokens tokens).spells 0 e.words 24 = true ∧
          (Terminals.ofTokens tokens).isKind 24 .rightParen = true := by
    decide +kernel
  have hrespects : e.respects .disjunction = true := by decide
  have hnesting : e.nesting < nestingLimit := by decide
  refine ⟨.ofTokens tokens, hrespects, hnesting, hwords, hclose,
    expression_round_trip hrespects hnesting hwords ?_⟩
  intro t ht
  rw [isKind_of_token ht, beq_iff_eq] at hclose
  exact .inl hclose

end Grammar

end TransactLint
