import TransactLint.Proofs.Progress.Statement

/-!
# Termination

A parser ends because terminals run out, and not because it is cut off: the result does not depend on what a
repetition does where it stands still, on having more rounds or levels than there are terminals, or on what is below
the last level. A query may begin where the statement around it begins, so statements rank above queries; everything
else that is nested begins behind a terminal of what it is nested in.
-/

namespace TransactLint

/-! ## Looking ahead -/

namespace Terminals

variable {ts : Terminals} {pos n n' : Nat}

theorem pastParens_congr (hn : ts.size - pos ≤ n) (hn' : ts.size - pos ≤ n') :
    ts.pastParens n pos = ts.pastParens n' pos := by
  induction n generalizing pos n' with
  | zero =>
    have hend : ts.isKind pos .leftParen = false := isKind_of_le (by omega) _
    cases n' <;> simp [pastParens, hend]
  | succ n ih =>
    cases n' with
    | zero => simp [pastParens, isKind_of_le (show ts.size ≤ pos by omega)]
    | succ n' =>
      have hrest : ts.pastParens n (pos + 1) = ts.pastParens n' (pos + 1) := ih (by omega) (by omega)
      rw [pastParens, pastParens, hrest]

theorem isStarName_congr (hn : ts.size - pos ≤ n) (hn' : ts.size - pos ≤ n') :
    ts.isStarName n pos = ts.isStarName n' pos := by
  induction n generalizing pos n' with
  | zero =>
    have hend : ts.isIdentifier pos = false := isIdentifier_of_le (by omega)
    cases n' <;> simp [isStarName, hend]
  | succ n ih =>
    cases n' with
    | zero => simp [isStarName, isIdentifier_of_le (show ts.size ≤ pos by omega)]
    | succ n' =>
      have hrest : ts.isStarName n (pos + 2) = ts.isStarName n' (pos + 2) := ih (by omega) (by omega)
      rw [isStarName, isStarName, hrest]

end Terminals

namespace Grammar

open TransactLint.Parser

variable {ts : Terminals} {R : FaithfulRepetition ts} {base : Nat}

/-! ## Levels -/

def Level.around [Repetition] (inner : Level) : Level where
  expression := disjunction inner
  negated := negation inner
  signed := unary inner
  query := Grammar.query inner
  statement := Grammar.statement inner

theorem level_eq [Repetition] (n : Nat) : level n = Level.around^[n] .exhausted := by
  induction n with
  | zero => rfl
  | succ n ih =>
    rw [Function.iterate_succ_apply', ← ih]
    rfl

theorem around_agrees {inner inner' : Level} (hinner : inner.Agrees ts (base + 1) inner') :
    inner.around.Agrees ts base (@Level.around R inner') :=
  ⟨disjunction_agrees hinner, negation_agrees hinner, unary_agrees hinner, query_agrees hinner⟩

/-- With as many levels as there are terminals left, and one more, the levels agree whatever is below them. -/
theorem levels_agree {bottom bottom' : Level} {n n' : Nat} (hn : ts.size - base < n) (hn' : ts.size - base < n') :
    (Level.around^[n] bottom).Agrees ts base ((@Level.around R)^[n'] bottom') := by
  induction n generalizing base n' with
  | zero => omega
  | succ n ih =>
    obtain ⟨n', rfl⟩ : ∃ m, n' = m + 1 := ⟨n' - 1, by omega⟩
    rw [Function.iterate_succ_apply', Function.iterate_succ_apply']
    apply around_agrees
    by_cases hbase : base < ts.size
    · exact ih (by omega) (by omega)
    · exact .past (by omega)

/-- The statements take a level more, for the query in a statement. -/
theorem statements_agree {bottom bottom' : Level} {n n' : Nat} (hn : ts.size - base + 1 < n)
    (hn' : ts.size - base + 1 < n') :
    Agrees ts base (Level.around^[n] bottom).statement ((@Level.around R)^[n'] bottom').statement
      fun _ => true := by
  induction n generalizing base n' with
  | zero => omega
  | succ n ih =>
    obtain ⟨n', rfl⟩ : ∃ m, n' = m + 1 := ⟨n' - 1, by omega⟩
    rw [Function.iterate_succ_apply', Function.iterate_succ_apply']
    have hinner : (Level.around^[n] bottom).Agrees ts base ((@Level.around R)^[n'] bottom') :=
      levels_agree (by omega) (by omega)
    apply statement_agrees ⟨hinner.later, _⟩ hinner.query
    by_cases hbase : base < ts.size
    · exact ih (by omega) (by omega)
    · exact .past (by omega)

/-- The same number of levels agree, even if they are too few. -/
theorem level_agrees (n : Nat) : (level n).AgreesWhole ts base (@level R n) := by
  induction n generalizing base with
  | zero => exact ⟨⟨.failTooDeep, .failTooDeep, .failTooDeep, .failTooDeep⟩, .failTooDeep⟩
  | succ n ih => exact ⟨around_agrees ih.toAgrees, statement_agrees ih ih.query⟩

/-! ## Scripts -/

theorem separator_agrees : Agrees ts base separator separator id := by
  apply Agrees.ifLook _ (.pure rfl)
  intro pos _ hseparator
  obtain ⟨t, ht, _⟩ := Terminals.isSeparator_token hseparator
  apply (skip_agreesAt (token?_isSome (by simp [ht]))).then
  exact fun _ => .look fun _ => .ite (skip_agrees.bind fun _ => .pure rfl) (.pure rfl)

theorem batch_agrees {top top' : Level} (htop : top.AgreesWhole ts base top') :
    Agrees ts base (batch top) (@batch R top') fun _ => false :=
  .look fun _ => (statementList_agrees htop false).bind fun _ => .look fun _ => .pure rfl

theorem script_agrees : Agrees ts base script (@script R) fun _ => false := by
  refine .look fun start => (batch_agrees (level_agrees _)).bind fun first => ?_
  refine .bind (.many (.optionIf separator_agrees (batch_agrees (level_agrees _)) rfl)) fun rest => ?_
  exact .look fun _ => .ite (.look fun span => .pure rfl) .failExpected

/-! ## Termination -/

/-- Wherever these parsers begin, they end there or later, and not past the last terminal. All but a list of
statements and an absent `ELSE` or constraint read something. -/
structure Level.KeepsPlace (ts : Terminals) (inner : Level) : Prop where
  statements (inBlock : Bool) : Parser.KeepsPlace ts (statementList inner inBlock) fun _ => false
  statement : Parser.KeepsPlace ts (Grammar.statement inner) fun _ => true
  elsePart : Parser.KeepsPlace ts (Grammar.elsePart inner) Option.isSome
  query : Parser.KeepsPlace ts (Grammar.query inner) fun _ => true
  tableSource : Parser.KeepsPlace ts (Grammar.tableSource inner) fun _ => true
  tableFactor : Parser.KeepsPlace ts (Grammar.tableFactor inner) fun _ => true
  expression : Parser.KeepsPlace ts (disjunction inner) fun _ => true
  tableElements : Parser.KeepsPlace ts (Grammar.tableElements inner) fun _ => true
  columnDefinition : Parser.KeepsPlace ts (Grammar.columnDefinition inner) fun _ => true
  constraint : Parser.KeepsPlace ts (Grammar.constraint inner) Option.isSome

/-- Reading `ts` ends because every round of a repetition and every step down to what is nested takes a terminal
away. -/
structure Terminates (ts : Terminals) : Prop where
  /-- No repetition goes on after a round that reads nothing, for it would not matter what it does then. -/
  repetitions (R : FaithfulRepetition ts) {pos : Nat} (h : pos ≤ ts.size) : @script R ts pos = script ts pos
  /-- No repetition runs out of rounds or stands still, for it would not matter if that were a fault. -/
  watched (fault : ParseError) {pos : Nat} (h : pos ≤ ts.size) : @script (.watched fault) ts pos = script ts pos
  /-- More rounds change nothing. -/
  rounds {allowed : Terminals → Nat → Nat} (hallowed : ∀ pos, ts.size - pos < allowed ts pos) {pos : Nat}
    (h : pos ≤ ts.size) : @script (.within allowed) ts pos = script ts pos
  levels (n : Nat) : level n = Level.around^[n] .exhausted
  /-- Below as many levels as there are terminals left nothing is nested, so it does not matter what is there. -/
  expressions (R : FaithfulRepetition ts) (bottom bottom' : Level) {n n' pos : Nat} (h : pos ≤ ts.size)
    (hn : ts.size - pos < n) (hn' : ts.size - pos < n') :
    ((@Level.around R)^[n'] bottom').expression ts pos = (Level.around^[n] bottom).expression ts pos
  queries (R : FaithfulRepetition ts) (bottom bottom' : Level) {n n' pos : Nat} (h : pos ≤ ts.size)
    (hn : ts.size - pos < n) (hn' : ts.size - pos < n') :
    ((@Level.around R)^[n'] bottom').query ts pos = (Level.around^[n] bottom).query ts pos
  statements (R : FaithfulRepetition ts) (bottom bottom' : Level) {n n' pos : Nat} (h : pos ≤ ts.size)
    (hn : ts.size - pos + 1 < n) (hn' : ts.size - pos + 1 < n') :
    ((@Level.around R)^[n'] bottom').statement ts pos = (Level.around^[n] bottom).statement ts pos
  /-- Within as many parentheses as there are terminals left there is no source. -/
  sources (k : Nat) (bottom : Parser TableSource) {n pos : Nat} (h : pos ≤ ts.size) (hn : ts.size - pos < n) :
    (factorAround (level k))^[n] bottom ts pos = tableFactor (level k) ts pos
  /-- Looking further ahead changes nothing. -/
  lookahead {n pos : Nat} (hn : ts.size - pos ≤ n) :
    ts.pastParens n pos = ts.pastParens (ts.size - pos) pos ∧
      ts.isStarName n pos = ts.isStarName (ts.size - pos) pos
  script : Parser.KeepsPlace ts script fun _ => false
  inner (k : Nat) : (level k).KeepsPlace ts

theorem level_keepsPlace (k : Nat) : (level k).KeepsPlace ts := by
  have hwhole : (level k).AgreesWhole ts 0 (level k) := level_agrees (R := .standard) k
  have hinner : (level k).Agrees ts 1 (level k) := hwhole.toAgrees.later
  constructor
  · exact fun inBlock => (statementList_agrees (R := .standard) hwhole inBlock).keepsPlace
  · exact (statement_agrees (R := .standard) hwhole.later hwhole.query).keepsPlace
  · exact (elsePart_agrees (R := .standard) hwhole).keepsPlace
  · exact (query_agrees (R := .standard) hinner).keepsPlace
  · exact (tableSource_agrees (R := .standard) hinner).keepsPlace
  · exact (tableFactor_agrees (R := .standard) hinner).keepsPlace
  · exact (disjunction_agrees (R := .standard) hinner).keepsPlace
  · exact (tableElements_agrees (R := .standard) hinner).keepsPlace
  · exact (columnDefinition_agrees (R := .standard) hinner).keepsPlace
  · exact (constraint_agrees (R := .standard) hinner).keepsPlace

theorem parsing_terminates (ts : Terminals) : Terminates ts where
  repetitions R _ h := ((script_agrees (R := R)).here h).same
  watched fault _ h := ((script_agrees (R := .watched fault)).here h).same
  rounds hallowed _ h := ((script_agrees (R := .within _ hallowed)).here h).same
  levels := level_eq
  expressions R _ _ _ _ _ h hn hn' := ((levels_agree (R := R) hn hn').expression.here h).same
  queries R _ _ _ _ _ h hn hn' := ((levels_agree (R := R) hn hn').query.here h).same
  statements R _ _ _ _ _ h hn hn' := ((statements_agree (R := R) hn hn').here h).same
  sources k bottom n pos h hn := by
    have hinner : (level k).Agrees ts (pos + 1) (level k) := (level_agrees (R := .standard) k).toAgrees
    unfold tableFactor
    rw [factorWithin_eq]
    exact ((factors_agree (R := .standard) hinner (Nat.lt_succ_self _) hn).here h).same
  lookahead hn := ⟨Terminals.pastParens_congr hn (Nat.le_refl _), Terminals.isStarName_congr hn (Nat.le_refl _)⟩
  script := (script_agrees (R := .standard)).keepsPlace
  inner := level_keepsPlace

end Grammar

end TransactLint
