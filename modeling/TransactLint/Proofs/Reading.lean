import TransactLint.Proofs.Layout.Parser

/-!
# Reading at a known place

What the small parsers give where the terminal at the position is known.
-/

namespace TransactLint

/-! ## Terminals past the end -/

namespace Terminals

variable {ts : Terminals} {pos : Nat}

theorem token?_of_le (h : ts.size ≤ pos) : ts.token? pos = none := by
  simp [token?, h]

theorem isKind_of_le (h : ts.size ≤ pos) (kind : TokenKind) : ts.isKind pos kind = false := by
  rw [isKind, token?_of_le h]

theorem isWord_of_le (h : ts.size ≤ pos) (word : String) : ts.isWord pos word = false := by
  rw [isWord, token?_of_le h]

theorem isIdentifier_of_le (h : ts.size ≤ pos) : ts.isIdentifier pos = false := by
  rw [isIdentifier, token?_of_le h]

theorem isString_of_le (h : ts.size ≤ pos) : ts.isString pos = false := by
  rw [isString, token?_of_le h]

theorem isIdentifier_lt (h : ts.isIdentifier pos = true) : pos < ts.size := by
  by_contra hpos
  rw [isIdentifier_of_le (Nat.le_of_not_lt hpos)] at h
  cases h

theorem isKind_iff {kind : TokenKind} : ts.isKind pos kind = true ↔ ∃ t, ts.token? pos = some t ∧
    t.kind = kind := by
  unfold isKind
  cases ts.token? pos <;> simp

theorem isWord_iff {word : String} : ts.isWord pos word = true ↔ ∃ t, ts.token? pos = some t ∧
    t.isWord word = true := by
  unfold isWord
  cases ts.token? pos <;> simp

theorem isIdentifier_iff : ts.isIdentifier pos = true ↔ ∃ t, ts.token? pos = some t ∧
    t.isIdentifier = true := by
  unfold isIdentifier
  cases ts.token? pos <;> simp

/-- A separator is the bare word `GO`. -/
theorem isSeparator_token (h : ts.isSeparator pos = true) :
    ∃ t, ts.token? pos = some t ∧ t.kind = .identifier ∧ t.isWord "GO" = true := by
  unfold isSeparator at h
  cases ht : ts.token? pos with
  | none => simp [ht] at h
  | some t =>
    simp only [ht, Bool.and_eq_true, beq_iff_eq] at h
    exact ⟨t, rfl, h.1.1, h.1.2⟩

end Terminals

theorem Token.not_isWord_of_isWord {t : Token} {word other : String} (h : t.isWord word = true)
    (hne : Text.sameIgnoringCase word.toList other.toList = false) : t.isWord other = false := by
  unfold Token.isWord at *
  split at h
  · simp only [Text.sameIgnoringCase, beq_iff_eq, beq_eq_false_iff_ne] at *
    rwa [h]
  · simp only [Text.sameIgnoringCase, beq_iff_eq, beq_eq_false_iff_ne] at *
    rwa [h]
  · cases h

namespace Parser

variable {α β σ κ : Type} {ts : Terminals} {pos mid pos' : Nat}

theorem skip_of_lt (h : pos < ts.size) : skip ts pos = .ok ((), pos + 1) := by rw [skip, if_pos h]

theorem skip_at_end : skip ts ts.size = .ok ((), ts.size) := by rw [skip, if_neg (Nat.lt_irrefl _)]

theorem skipTwo_of_lt (h : pos + 1 < ts.size) : skipTwo ts pos = .ok ((), pos + 2) := by
  rw [skipTwo, bind_of_ok (skip_of_lt (by omega)), skip_of_lt h]

theorem take_of_some {t : Token} (ht : ts.token? pos = some t) : take ts pos = .ok (some t, pos + 1) := by
  change Except.ok (ts.token? pos, if pos < ts.size then pos + 1 else pos) = _
  rw [ht, if_pos (token?_isSome (by rw [ht]; rfl))]

theorem take_at_end : take ts ts.size = .ok (none, ts.size) := by
  change Except.ok (ts.token? ts.size, if ts.size < ts.size then ts.size + 1 else ts.size) = _
  rw [Terminals.token?_of_le (Nat.le_refl _), if_neg (Nat.lt_irrefl _)]

theorem spanned_ok {make : κ → Span → α} {p : Parser κ} {start : Nat} {a : α}
    (h : Parser.spanned make p ts start = .ok (a, pos')) :
    ∃ k, p ts start = .ok (k, pos') ∧ a = make k (ts.span start pos') := by
  unfold Parser.spanned at h
  cases hk : p ts start with
  | error e => simp [hk] at h
  | ok r =>
    simp only [hk, Except.ok.injEq, Prod.mk.injEq] at h
    obtain ⟨rfl, rfl⟩ := h
    exact ⟨r.1, rfl, rfl⟩

theorem spanned_of_ok {make : κ → Span → α} {p : Parser κ} {start : Nat} {k : κ}
    (h : p ts start = .ok (k, pos')) :
    Parser.spanned make p ts start = .ok (make k (ts.span start pos'), pos') := by
  unfold Parser.spanned
  simp only [h]

/-! ## One terminal -/

theorem bind_look {f : Terminals → Nat → α} {q : α → Parser β} :
    (look f >>= q) ts pos = q (f ts pos) ts pos := rfl

theorem consume_of_isKind {kind : TokenKind} (h : ts.isKind pos kind = true) :
    consume kind ts pos = .ok (true, pos + 1) := by
  change (if ts.isKind pos kind = true then _ else _ : Parser Bool) ts pos = _
  rw [if_pos h, bind_of_ok (skip_of_lt (isKind_lt h))]
  rfl

theorem consume_of_not {kind : TokenKind} (h : ts.isKind pos kind = false) :
    consume kind ts pos = .ok (false, pos) := by
  change (if ts.isKind pos kind = true then _ else _ : Parser Bool) ts pos = _
  rw [if_neg (by simp [h])]
  rfl

theorem consumeKeyword_of_isKeyword {word : Keyword} (h : ts.isKeyword pos word = true) :
    consumeKeyword word ts pos = .ok (true, pos + 1) :=
  consume_of_isKind h

theorem consumeKeyword_of_not {word : Keyword} (h : ts.isKeyword pos word = false) :
    consumeKeyword word ts pos = .ok (false, pos) :=
  consume_of_not h

theorem consumeWord_of_not {word : String} (h : ts.isWord pos word = false) :
    consumeWord word ts pos = .ok (false, pos) := by
  change (if ts.isWord pos word = true then _ else _ : Parser Bool) ts pos = _
  rw [if_neg (by simp [h])]
  rfl

theorem consumeWord_of_isWord {word : String} (h : ts.isWord pos word = true) :
    consumeWord word ts pos = .ok (true, pos + 1) := by
  change (if ts.isWord pos word = true then _ else _ : Parser Bool) ts pos = _
  rw [if_pos h, bind_of_ok (skip_of_lt (isWord_lt h))]
  rfl

theorem expect_of_isKind {kind : TokenKind} (h : ts.isKind pos kind = true) :
    expect kind ts pos = .ok ((), pos + 1) := by
  change (if ts.isKind pos kind = true then _ else _ : Parser Unit) ts pos = _
  rw [if_pos h, skip_of_lt (isKind_lt h)]

theorem expectKeyword_of_isKeyword {word : Keyword} (h : ts.isKeyword pos word = true) :
    expectKeyword word ts pos = .ok ((), pos + 1) :=
  expect_of_isKind h

theorem expect_ok {kind : TokenKind} {u : Unit} (h : expect kind ts pos = .ok (u, pos')) :
    ts.isKind pos kind = true ∧ pos' = pos + 1 := by
  cases hkind : ts.isKind pos kind with
  | true =>
    rw [expect_of_isKind hkind] at h
    cases h
    exact ⟨rfl, rfl⟩
  | false =>
    change (if ts.isKind pos kind = true then _ else _ : Parser Unit) ts pos = _ at h
    rw [if_neg (by simp [hkind])] at h
    exact absurd h failExpected_ne_ok

theorem expectEither_ok {first second : String} {u : Unit} (h : expectEither first second ts pos = .ok (u, pos')) :
    ts.isWord pos first = true ∨ ts.isWord pos second = true := by
  by_contra hnot
  simp only [not_or, Bool.not_eq_true] at hnot
  rw [expectEither, bind_of_ok (consumeWord_of_not hnot.1), if_neg (by simp), expectWord, atWord, bind_look, hnot.2]
    at h
  exact absurd h failExpected_ne_ok

/-- A choice by whether a terminal can be read. -/
theorem ifConsume_ok {kind : TokenKind} {p q : Parser α} {r : α × Nat}
    (h : (consume kind >>= fun b => if b = true then p else q) ts pos = .ok r) :
    (ts.isKind pos kind = true ∧ p ts (pos + 1) = .ok r) ∨
      (ts.isKind pos kind = false ∧ q ts pos = .ok r) := by
  cases hkind : ts.isKind pos kind with
  | true =>
    rw [bind_of_ok (consume_of_isKind hkind)] at h
    exact .inl ⟨rfl, h⟩
  | false =>
    rw [bind_of_ok (consume_of_not hkind)] at h
    exact .inr ⟨rfl, h⟩

theorem consume_false {kind : TokenKind} (h : consume kind ts pos = .ok (false, pos')) : pos' = pos := by
  cases hkind : ts.isKind pos kind with
  | true => cases h.symm.trans (consume_of_isKind hkind)
  | false =>
    cases h.symm.trans (consume_of_not hkind)
    rfl

theorem pair_lt {first second : TokenKind} (h : (ts.isKind pos first && ts.isKind (pos + 1) second) = true) :
    pos + 1 < ts.size :=
  isKind_lt (Bool.and_eq_true_iff.mp h).2

theorem keywordWord_lt {first : Keyword} {second : String}
    (h : (ts.isKeyword pos first && ts.isWord (pos + 1) second) = true) : pos + 1 < ts.size :=
  isWord_lt (Bool.and_eq_true_iff.mp h).2

/-! ## Options and chains -/

theorem optionIf_of_not {c : Parser Bool} {p : Parser α} (h : c ts pos = .ok (false, mid)) :
    optionIf c p ts pos = .ok (none, mid) := by
  rw [optionIf, bind_of_ok h]
  rfl

theorem listIf_of_not {c : Parser Bool} {p : Parser (List α)} (h : c ts pos = .ok (false, mid)) :
    listIf c p ts pos = .ok ([], mid) := by
  rw [listIf, bind_of_ok h]
  rfl

/-- Rounds of `step` come to `r`, however many it takes, and each that goes on reads a terminal. -/
inductive Repeats (step : σ → Parser (Option σ)) (ts : Terminals) :
    σ → Nat → Except ParseError (σ × Nat) → Prop where
  | fails {s : σ} {pos : Nat} {e : ParseError} (h : step s ts pos = .error e) : Repeats step ts s pos (.error e)
  | ends {s : σ} {pos pos' : Nat} (h : step s ts pos = .ok (none, pos')) : Repeats step ts s pos (.ok (s, pos'))
  | round {s s' : σ} {pos mid : Nat} {r : Except ParseError (σ × Nat)} (h : step s ts pos = .ok (some s', mid))
      (hlt : pos < mid) (hsize : mid ≤ ts.size) (hrest : Repeats step ts s' mid r) : Repeats step ts s pos r

theorem rounds_of_repeats {step : σ → Parser (Option σ)} {s : σ} {r : Except ParseError (σ × Nat)}
    (h : Repeats step ts s pos r) {n : Nat} (hn : ts.size - pos < n) : rounds step n s ts pos = r := by
  induction h generalizing n with
  | fails h =>
    obtain ⟨n, rfl⟩ : ∃ m, n = m + 1 := ⟨n - 1, by omega⟩
    unfold rounds
    simp only [h]
  | ends h =>
    obtain ⟨n, rfl⟩ : ∃ m, n = m + 1 := ⟨n - 1, by omega⟩
    unfold rounds
    simp only [h]
  | round h hlt hsize _ ih =>
    obtain ⟨n, rfl⟩ : ∃ m, n = m + 1 := ⟨n - 1, by omega⟩
    unfold rounds
    simp only [h]
    exact ih (by omega)

/-- Rounds of `step` that each read something lead from one state and position to another. -/
inductive Loops (step : σ → Parser (Option σ)) (ts : Terminals) : σ → Nat → σ → Nat → Prop where
  | refl (s : σ) (pos : Nat) : Loops step ts s pos s pos
  | round {s s' t : σ} {pos mid pos' : Nat} (h : step s ts pos = .ok (some s', mid)) (hlt : pos < mid)
      (hsize : mid ≤ ts.size) (hrest : Loops step ts s' mid t pos') : Loops step ts s pos t pos'

theorem Loops.trans {step : σ → Parser (Option σ)} {s t u : σ} (h : Loops step ts s pos t mid)
    (h' : Loops step ts t mid u pos') : Loops step ts s pos u pos' := by
  induction h with
  | refl => exact h'
  | round hround hlt hsize _ ih => exact .round hround hlt hsize (ih h')

theorem Loops.repeats {step : σ → Parser (Option σ)} {s t : σ} {r : Except ParseError (σ × Nat)}
    (h : Loops step ts s pos t mid) (hend : Repeats step ts t mid r) : Repeats step ts s pos r := by
  induction h with
  | refl => exact hend
  | round hround hlt hsize _ ih => exact .round hround hlt hsize (ih hend)

theorem iterate_of_loops {step : σ → Parser (Option σ)} {s t : σ} (h : Loops step ts s pos t mid)
    (hend : step t ts mid = .ok (none, pos')) : iterate step s ts pos = .ok (t, pos') :=
  rounds_of_repeats (h.repeats (.ends hend)) (Nat.lt_succ_self _)

theorem iterate_of_none {step : σ → Parser (Option σ)} {s : σ} (h : step s ts pos = .ok (none, pos')) :
    iterate step s ts pos = .ok (s, pos') :=
  iterate_of_loops (.refl s pos) h

theorem step_of_iterate {step : σ → Parser (Option σ)} {s : σ} {r : σ × Nat}
    (h : iterate step s ts pos = .ok r) :
    ∃ r, step s ts pos = .ok r := by
  rw [iterate_eq] at h
  unfold rounds at h
  split at h
  · cases h
  · exact ⟨_, ‹_›⟩
  · exact ⟨_, ‹_›⟩

def ReadsAll (item : Parser (Option α)) (ts : Terminals) : Nat → List α → Nat → Prop
  | pos, [], pos' => pos = pos'
  | pos, a :: l, pos' => ∃ mid, item ts pos = .ok (some a, mid) ∧ pos < mid ∧ mid ≤ ts.size ∧
      ReadsAll item ts mid l pos'

def manyStep (item : Parser (Option α)) (found : List α) : Parser (Option (List α)) :=
  item >>= fun a? => match a? with
    | some a => pure (some (a :: found))
    | none => pure none

theorem many_of_readsAll {item : Parser (Option α)} {l : List α} (h : ReadsAll item ts pos l mid)
    (hend : item ts mid = .ok (none, pos')) : many item ts pos = .ok (l, pos') := by
  have hloops : ∀ (l found : List α) (pos : Nat), ReadsAll item ts pos l mid →
      Loops (manyStep item) ts found pos (l.reverse ++ found) mid := by
    intro l
    induction l with
    | nil =>
      rintro found pos ⟨rfl⟩
      exact .refl found _
    | cons a l ih =>
      rintro found pos ⟨next, ha, hlt, hsize, hrest⟩
      have hround := ih (a :: found) next hrest
      rw [List.reverse_cons, List.append_assoc]
      exact .round (bind_of_ok ha) hlt hsize hround
  have hiterate := iterate_of_loops (hloops l [] pos h) ((bind_of_ok hend).trans rfl)
  refine (bind_of_ok hiterate).trans ?_
  rw [List.append_nil, List.reverse_reverse]
  rfl

theorem ReadsAll.append {item : Parser (Option α)} {l l' : List α} (h : ReadsAll item ts pos l mid)
    (h' : ReadsAll item ts mid l' pos') :
    ReadsAll item ts pos (l ++ l') pos' := by
  induction l generalizing pos with
  | nil =>
    obtain rfl : pos = mid := h
    exact h'
  | cons a l ih =>
    obtain ⟨next, ha, hlt, hsize, hrest⟩ := h
    exact ⟨next, ha, hlt, hsize, ih hrest⟩

theorem ReadsAll.le_size {item : Parser (Option α)} {l : List α} (h : ReadsAll item ts pos l mid)
    (hpos : pos ≤ ts.size) : mid ≤ ts.size := by
  induction l generalizing pos with
  | nil =>
    obtain rfl : pos = mid := h
    exact hpos
  | cons a l ih =>
    obtain ⟨next, _, _, hsize, hrest⟩ := h
    exact ih hrest hsize

/-- What `many` gives are the items up to where there is none. -/
theorem readsAll_of_many {item : Parser (Option α)} {l : List α}
    (hitem : ∀ pos mid a, item ts pos = .ok (some a, mid) → pos < mid ∧ mid ≤ ts.size)
    (h : many item ts pos = .ok (l, pos')) : ∃ mid, ReadsAll item ts pos l mid ∧
      item ts mid = .ok (none, pos') := by
  -- `found` holds the items of the rounds before, the last one first
  have hrounds : ∀ (n : Nat) (found all : List α) (pos : Nat), ts.size - pos < n →
      rounds (manyStep item) n found ts pos = .ok (all, pos') →
      ∃ l mid, all = l.reverse ++ found ∧ ReadsAll item ts pos l mid ∧ item ts mid = .ok (none, pos') := by
    intro n
    induction n with
    | zero =>
      intro found all pos hn h
      omega
    | succ n ih =>
      intro found all pos hn h
      unfold rounds at h
      split at h
      · cases h
      · rename_i hround
        cases h
        obtain ⟨a?, mid, ha, hround⟩ := bind_ok hround
        cases a? with
        | none =>
          cases hround
          exact ⟨[], pos, rfl, rfl, ha⟩
        | some a => cases hround
      · rename_i next after hround
        obtain ⟨a?, mid, ha, hround⟩ := bind_ok hround
        cases a? with
        | none => cases hround
        | some a =>
          cases hround
          obtain ⟨hlt, hsize⟩ := hitem _ _ _ ha
          obtain ⟨l, last, rfl, hl, hend⟩ := ih (a :: found) all after (by omega) h
          exact ⟨a :: l, last, by simp, ⟨after, ha, hlt, hsize, hl⟩, hend⟩
  obtain ⟨found, mid, hfound, h⟩ := bind_ok h
  cases h
  obtain ⟨l, last, rfl, hl, hend⟩ := hrounds _ [] found pos (Nat.lt_succ_self _) hfound
  exact ⟨last, by simpa using hl, hend⟩

theorem many_of_none {item : Parser (Option α)} (h : item ts pos = .ok (none, pos')) :
    many item ts pos = .ok ([], pos') :=
  many_of_readsAll (show ReadsAll item ts pos [] pos from rfl) h

/-- A chain ends where no operator follows. -/
theorem leftChain_of_none {operand : Parser α} {operator : Parser (Option β)}
    {make : β → α → α → Span → α}
    {a : α} (hoperand : operand ts pos = .ok (a, mid)) (hoperator : operator ts mid = .ok (none, mid)) :
    leftChain operand operator make ts pos = .ok (a, mid) := by
  rw [leftChain, position, bind_look, bind_of_ok hoperand]
  refine iterate_of_none ?_
  rw [bind_of_ok hoperator]
  rfl

/-- What every round that goes on keeps of the state and its position, the rounds keep until one of them ends. -/
theorem iterate_ends {step : σ → Parser (Option σ)} {I : σ → Nat → Prop}
    (hstep : ∀ s s' pos mid, I s pos → step s ts pos = .ok (some s', mid) → I s' mid) {s a : σ}
    (hs : I s pos) (h : iterate step s ts pos = .ok (a, pos')) :
    ∃ mid, I a mid ∧ (pos' = mid ∨ step a ts mid = .ok (none, pos')) := by
  suffices hrounds : ∀ n s pos, I s pos → rounds step n s ts pos = .ok (a, pos') →
      ∃ mid, I a mid ∧ (pos' = mid ∨ step a ts mid = .ok (none, pos')) from hrounds _ s pos hs h
  intro n
  induction n with
  | zero =>
    intro s pos hs h
    cases h
    exact ⟨_, hs, .inl rfl⟩
  | succ n ih =>
    intro s pos hs h
    unfold rounds at h
    split at h
    · cases h
    · rename_i hround
      cases h
      exact ⟨_, hs, .inr hround⟩
    · rename_i s' mid hround
      exact ih s' mid (hstep s s' pos mid hs hround) h

theorem iterate_keeps {step : σ → Parser (Option σ)} {I : σ → Nat → Prop}
    (hstep : ∀ s s' pos mid, I s pos → step s ts pos = .ok (some s', mid) → I s' mid) {s a : σ}
    (hs : I s pos) (h : iterate step s ts pos = .ok (a, pos')) : ∃ mid, I a mid :=
  (iterate_ends hstep hs h).imp fun _ => And.left

/-- What every round keeps of the position, the rounds keep. -/
theorem rounds_keeps {step : σ → Parser (Option σ)} {P : Nat → Prop}
    (hstep : ∀ s r pos mid, P pos → step s ts pos = .ok (r, mid) → P mid) :
    ∀ {n : Nat} {s s' : σ} {pos : Nat}, P pos → rounds step n s ts pos = .ok (s', pos') → P pos'
  | 0, s, s', pos, hpos, h => by
    cases h
    exact hpos
  | n + 1, s, s', pos, hpos, h => by
    unfold rounds at h
    split at h
    · cases h
    · rename_i hround
      cases h
      exact hstep s _ _ _ hpos hround
    · rename_i hround
      exact rounds_keeps hstep (hstep s _ _ _ hpos hround) h

/-- What reading one terminal of a kind keeps of the position, reading all that there are keeps. -/
theorem repeatWhile_keeps {kind : TokenKind} {P : Nat → Prop} {u : Unit}
    (hstep : ∀ pos, P pos → ts.isKind pos kind = true → P (pos + 1)) (hpos : P pos)
    (h : repeatWhile (consume kind) ts pos = .ok (u, pos')) : P pos' := by
  refine rounds_keeps (fun _ r before after hbefore hround => ?_) hpos h
  obtain ⟨found, mid, hfound, hround⟩ := bind_ok hround
  cases hkind : ts.isKind before kind with
  | true =>
    cases hfound.symm.trans (consume_of_isKind hkind)
    cases hround
    exact hstep before hbefore hkind
  | false =>
    cases hfound.symm.trans (consume_of_not hkind)
    cases hround
    exact hbefore

theorem many_keeps {item : Parser (Option α)} {P : Nat → Prop} {l : List α}
    (hitem : ∀ r pos mid, P pos → item ts pos = .ok (r, mid) → P mid) (hpos : P pos)
    (h : many item ts pos = .ok (l, pos')) : P pos' := by
  obtain ⟨found, mid, hfound, h⟩ := bind_ok h
  cases h
  refine rounds_keeps (fun found r before after hbefore hround => ?_) hpos hfound
  obtain ⟨a?, last, ha, hround⟩ := bind_ok hround
  cases a? <;> cases hround <;> exact hitem _ _ _ hbefore ha

/-- What the rounds of a repetition give is what they began with or what the last of them gave. -/
theorem rounds_ok {σ : Type} {step : σ → Parser (Option σ)} : ∀ {n : Nat} {s s' : σ} {pos : Nat},
    rounds step n s ts pos = .ok (s', pos') →
    (s' = s ∧ (n = 0 ∧ pos' = pos ∨ step s ts pos = .ok (none, pos'))) ∨
      ∃ left before after, step left ts before = .ok (some s', after)
  | 0, s, s', pos, h => by
    cases h
    exact .inl ⟨rfl, .inl ⟨rfl, rfl⟩⟩
  | n + 1, s, s', pos, h => by
    unfold rounds at h
    split at h
    · cases h
    · rename_i hround
      cases h
      exact .inl ⟨rfl, .inr hround⟩
    · rename_i left mid hround
      rcases rounds_ok h with ⟨rfl, -⟩ | hlater
      · exact .inr ⟨s, pos, mid, hround⟩
      · exact .inr hlater

theorem leftChain_ok {α β : Type} {operand : Parser α} {operator : Parser (Option β)}
    {make : β → α → α → Span → α} {a : α}
    (h : leftChain operand operator make ts pos = .ok (a, pos')) :
    (∃ mid, operand ts pos = .ok (a, mid) ∧ operator ts mid = .ok (none, pos')) ∨
      ∃ op left right span, a = make op left right span := by
  rw [leftChain, position, bind_look] at h
  obtain ⟨first, mid, hfirst, h⟩ := bind_ok h
  rw [iterate_eq] at h
  rcases rounds_ok h with ⟨rfl, hend | hend⟩ | ⟨left, before, after, hround⟩
  · omega
  · refine .inl ⟨mid, hfirst, ?_⟩
    obtain ⟨op?, last, hop, hend⟩ := bind_ok hend
    cases op? with
    | none =>
      cases hend
      exact hop
    | some op =>
      obtain ⟨right, _, _, hend⟩ := bind_ok hend
      cases hend
  · obtain ⟨op?, last, hop, hround⟩ := bind_ok hround
    cases op? with
    | none => cases hround
    | some op =>
      obtain ⟨right, _, _, hround⟩ := bind_ok hround
      cases hround
      exact .inr ⟨op, left, right, _, rfl⟩

end Parser

end TransactLint
