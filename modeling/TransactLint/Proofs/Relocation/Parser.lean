import TransactLint.Proofs.Layout.Parser
import TransactLint.Proofs.Relocation.Tree

/-!
# Parsing the same terminals at other places

A parser sees of its terminals their kinds, texts and values, and which of them begin on the line of
the one before. Terminals that agree in these give trees that differ only in their spans. `Mirrors`
says so of two parsers, and its rules follow the combinators.
-/

namespace TransactLint

structure Token.Alike (t t' : Token) : Prop where
  kind : t'.kind = t.kind
  text : t'.text = t.text
  value : t'.value = t.value

theorem Token.Alike.isWord {t t' : Token} (h : t.Alike t') (word : String) : t'.isWord word = t.isWord word := by
  simp only [Token.isWord, h.kind, h.value]

/-- `ts'` shows from position `shift` on what `ts` shows from the first. -/
structure Relocation (ts ts' : Terminals) where
  shift : Nat
  /-- Where a span of `ts` is in `ts'`. -/
  move : Span → Span
  size_eq : ts'.size = ts.size + shift
  token : ∀ {pos : Nat} {t : Token}, ts.token? pos = some t →
    ∃ t', ts'.token? (pos + shift) = some t' ∧ t.Alike t'
  onSameLine : ∀ pos, ts'.onSameLine (pos + shift) = ts.onSameLine pos
  isSeparator : ∀ pos, ts'.isSeparator (pos + shift) = ts.isSeparator pos
  span : ∀ a b, move (ts.span a b) = ts'.span (a + shift) (b + shift)

def Terminals.SamePlace (ts ts' : Terminals) (shift : Nat) (l l' : Location) : Prop :=
  ∃ pos t t', ts.token? pos = some t ∧ ts'.token? (pos + shift) = some t' ∧ l = t.start ∧ l' = t'.start

/-- The spans reach from one terminal to another, and between the terminals that correspond to them. -/
def Terminals.SameSpan (ts ts' : Terminals) (shift : Nat) (s s' : Span) : Prop :=
  ∃ (i j : Nat) (first last first' last' : Terminal), ts[i]? = some first ∧ ts'[i + shift]? = some first' ∧
    ts[j]? = some last ∧ ts'[j + shift]? = some last' ∧ s = cover first last ∧ s' = cover first' last'

theorem Terminals.SameSpan.samePlace {ts ts' : Terminals} {shift : Nat} {s s' : Span}
    (h : ts.SameSpan ts' shift s s') : ts.SamePlace ts' shift s.start s'.start := by
  obtain ⟨i, j, first, last, first', last', hfirst, hfirst', _, _, rfl, rfl⟩ := h
  exact ⟨i, first.token, first'.token, by rw [token?, hfirst, Option.map_some],
    by rw [token?, hfirst', Option.map_some], rfl, rfl⟩

/-- The errors are the same, at corresponding tokens or both at the end. -/
inductive ParseError.Alike (ts ts' : Terminals) (shift : Nat) : ParseError → ParseError → Prop
  | unexpected (expected found : String) {l l' : Location} (h : ts.SamePlace ts' shift l l') :
      Alike ts ts' shift (.unexpected expected found l) (.unexpected expected found l')
  | unexpectedEnd (expected : String) : Alike ts ts' shift (.unexpectedEnd expected) (.unexpectedEnd expected)
  | unsupported (word : String) {l l' : Location} (h : ts.SamePlace ts' shift l l') :
      Alike ts ts' shift (.unsupported word l) (.unsupported word l')
  | tooDeep {l l' : Location} (h : ts.SamePlace ts' shift l l') : Alike ts ts' shift (.tooDeep l) (.tooDeep l')
  | tooDeepEnd : Alike ts ts' shift (.tooDeep ⟨0, 0⟩) (.tooDeep ⟨0, 0⟩)

namespace Relocation

variable {ts ts' : Terminals} (ρ : Relocation ts ts')

theorem token?_none {pos : Nat} (h : ts.token? pos = none) : ts'.token? (pos + ρ.shift) = none := by
  have hsize := ρ.size_eq
  simp only [Terminals.token?, Option.map_eq_none_iff, Array.getElem?_eq_none_iff] at *
  omega

section
variable (pos n : Nat) (kind : TokenKind)

@[simp] theorem isKind : ts'.isKind (pos + ρ.shift) kind = ts.isKind pos kind := by
  unfold Terminals.isKind
  cases ht : ts.token? pos with
  | none => rw [ρ.token?_none ht]
  | some t =>
    obtain ⟨t', ht', halike⟩ := ρ.token ht
    simp only [ht', halike.kind]

@[simp] theorem isKeyword (word : Keyword) : ts'.isKeyword (pos + ρ.shift) word = ts.isKeyword pos word :=
  ρ.isKind pos _

@[simp] theorem isWord (word : String) : ts'.isWord (pos + ρ.shift) word = ts.isWord pos word := by
  unfold Terminals.isWord
  cases ht : ts.token? pos with
  | none => rw [ρ.token?_none ht]
  | some t =>
    obtain ⟨t', ht', halike⟩ := ρ.token ht
    simp only [ht', halike.isWord]

@[simp] theorem isIdentifier : ts'.isIdentifier (pos + ρ.shift) = ts.isIdentifier pos := by
  unfold Terminals.isIdentifier
  cases ht : ts.token? pos with
  | none => rw [ρ.token?_none ht]
  | some t =>
    obtain ⟨t', ht', halike⟩ := ρ.token ht
    simp only [ht', Token.isIdentifier, halike.kind]

@[simp] theorem isString : ts'.isString (pos + ρ.shift) = ts.isString pos := by
  unfold Terminals.isString
  cases ht : ts.token? pos with
  | none => rw [ρ.token?_none ht]
  | some t =>
    obtain ⟨t', ht', halike⟩ := ρ.token ht
    simp only [ht', halike.kind]

@[simp] theorem isBareAlias : ts'.isBareAlias (pos + ρ.shift) = ts.isBareAlias pos := by
  simp only [Terminals.isBareAlias, ρ.isIdentifier, ρ.isSeparator]

/-! A few terminals on. -/

@[simp] theorem isKind_add : ts'.isKind (pos + ρ.shift + n) kind = ts.isKind (pos + n) kind := by
  rw [Nat.add_right_comm, ρ.isKind]

@[simp] theorem isKeyword_add (word : Keyword) :
    ts'.isKeyword (pos + ρ.shift + n) word = ts.isKeyword (pos + n) word :=
  ρ.isKind_add pos n _

@[simp] theorem isWord_add (word : String) :
    ts'.isWord (pos + ρ.shift + n) word = ts.isWord (pos + n) word := by
  rw [Nat.add_right_comm, ρ.isWord]

theorem left_eq : ts'.size - (pos + ρ.shift) = ts.size - pos := by
  have hsize := ρ.size_eq
  omega

@[simp] theorem size_le : ts'.size ≤ pos + ρ.shift ↔ ts.size ≤ pos := by
  have hsize := ρ.size_eq
  omega

theorem pastParens : ts'.pastParens n (pos + ρ.shift) = ts.pastParens n pos + ρ.shift := by
  induction n generalizing pos with
  | zero => rfl
  | succ n ih =>
    simp only [Terminals.pastParens, ρ.isKind, Nat.add_right_comm pos ρ.shift 1, ih]
    split <;> rfl

@[simp] theorem startsQuery : ts'.startsQuery (pos + ρ.shift) = ts.startsQuery pos := by
  simp only [Terminals.startsQuery, ρ.left_eq, ρ.pastParens, ρ.isKeyword]

theorem isStarName : ts'.isStarName n (pos + ρ.shift) = ts.isStarName n pos := by
  induction n generalizing pos with
  | zero => rfl
  | succ n ih =>
    simp only [Terminals.isStarName, ρ.isIdentifier, ρ.isKind_add, Nat.add_right_comm pos ρ.shift 2, ih,
      ρ.isKind]

@[simp] theorem isQualifiedStar : ts'.isQualifiedStar (pos + ρ.shift) = ts.isQualifiedStar pos := by
  simp only [Terminals.isQualifiedStar, ρ.left_eq, ρ.isStarName]

end

inductive Outcome {α : Type} [HasSpans α] :
    Except ParseError (α × Nat) → Except ParseError (α × Nat) → Prop
  | ok (a : α) (pos : Nat) : Outcome (.ok (a, pos)) (.ok (mapSpans ρ.move a, pos + ρ.shift))
  | error {e e' : ParseError} (h : e.Alike ts ts' ρ.shift e') : Outcome (.error e) (.error e')

end Relocation

namespace Parser

variable {α β σ κ γ : Type} [HasSpans α] [HasSpans β] [HasSpans σ] [HasSpans κ]

def Mirrors {ts ts' : Terminals} (ρ : Relocation ts ts') (p p' : Parser α) : Prop :=
  ∀ pos, ρ.Outcome (p ts pos) (p' ts' (pos + ρ.shift))

section
variable {ts ts' : Terminals} {ρ : Relocation ts ts'} {p p' : Parser α} {q q' : α → Parser β}

namespace Mirrors

theorem pure {a a' : α} (h : mapSpans ρ.move a = a') : Mirrors ρ (Pure.pure a) (Pure.pure a') := by
  intro pos
  subst h
  exact .ok a pos

theorem bind (hp : Mirrors ρ p p') (hq : ∀ a, Mirrors ρ (q a) (q' (mapSpans ρ.move a))) :
    Mirrors ρ (p >>= q) (p' >>= q') := by
  intro pos
  have h := hp pos
  generalize hr : p ts pos = r, hr' : p' ts' (pos + ρ.shift) = r' at h
  cases h with
  | ok a mid =>
    rw [bind_of_ok hr, bind_of_ok hr']
    exact hq a mid
  | error h =>
    rw [bind_of_error hr, bind_of_error hr']
    exact .error h

theorem map {f : α → β} {f' : α → β} (hp : Mirrors ρ p p')
    (hf : ∀ a, mapSpans ρ.move (f a) = f' (mapSpans ρ.move a)) : Mirrors ρ (f <$> p) (f' <$> p') :=
  hp.bind fun a => .pure (hf a)

theorem ite {c : Prop} [Decidable c] {r r' : Parser α} (hp : Mirrors ρ p p') (hr : Mirrors ρ r r') :
    Mirrors ρ (if c then p else r) (if c then p' else r') := by
  split
  · exact hp
  · exact hr

/-! ## Looking -/

theorem look {f f' : Terminals → Nat → γ} {q q' : γ → Parser β}
    (hf : ∀ pos, f' ts' (pos + ρ.shift) = f ts pos) (hq : ∀ c, Mirrors ρ (q c) (q' c)) :
    Mirrors ρ (Parser.look f >>= q) (Parser.look f' >>= q') := by
  intro pos
  change ρ.Outcome (q (f ts pos) ts pos) (q' (f' ts' (pos + ρ.shift)) ts' (pos + ρ.shift))
  rw [hf]
  exact hq _ pos

/-- What is seen alike is given alike. -/
theorem seen {f f' : Terminals → Nat → α}
    (hf : ∀ pos, f' ts' (pos + ρ.shift) = mapSpans ρ.move (f ts pos)) :
    Mirrors ρ (Parser.look f) (Parser.look f') := by
  intro pos
  unfold Parser.look
  rw [hf]
  exact .ok _ pos

theorem test {f f' : Terminals → Nat → Bool} (hf : ∀ pos, f' ts' (pos + ρ.shift) = f ts pos) :
    Mirrors ρ (Parser.look f) (Parser.look f') :=
  seen hf

theorem position {q q' : Nat → Parser β} (hq : ∀ start, Mirrors ρ (q start) (q' (start + ρ.shift))) :
    Mirrors ρ (Parser.position >>= q) (Parser.position >>= q') :=
  fun pos => hq pos pos

theorem current {q q' : Option Token → Parser β} (hnone : Mirrors ρ (q none) (q' none))
    (hsome : ∀ t t', t.Alike t' → Mirrors ρ (q (some t)) (q' (some t'))) :
    Mirrors ρ (Parser.current >>= q) (Parser.current >>= q') := by
  intro pos
  change ρ.Outcome (q (ts.token? pos) ts pos) (q' (ts'.token? (pos + ρ.shift)) ts' (pos + ρ.shift))
  cases ht : ts.token? pos with
  | none =>
    rw [ρ.token?_none ht]
    exact hnone pos
  | some t =>
    obtain ⟨t', ht', halike⟩ := ρ.token ht
    rw [ht']
    exact hsome t t' halike pos

theorem spanFrom (start : Nat) : Mirrors ρ (Parser.spanFrom start) (Parser.spanFrom (start + ρ.shift)) :=
  seen fun pos => (ρ.span start pos).symm

/-! ## Failing -/

theorem failExpected (what : String) :
    Mirrors ρ (Parser.failExpected what : Parser α) (Parser.failExpected what) := by
  intro pos
  unfold Parser.failExpected
  cases ht : ts.token? pos with
  | none =>
    rw [ρ.token?_none ht]
    exact .error (.unexpectedEnd what)
  | some t =>
    obtain ⟨t', ht', halike⟩ := ρ.token ht
    simp only [ht', halike.text]
    exact .error (.unexpected what t.text ⟨pos, t, t', ht, ht', rfl, rfl⟩)

theorem failUnsupported : Mirrors ρ (Parser.failUnsupported : Parser α) Parser.failUnsupported := by
  intro pos
  unfold Parser.failUnsupported
  cases ht : ts.token? pos with
  | none =>
    rw [ρ.token?_none ht]
    exact .error (.unexpectedEnd "statement")
  | some t =>
    obtain ⟨t', ht', halike⟩ := ρ.token ht
    simp only [ht', halike.text]
    exact .error (.unsupported _ ⟨pos, t, t', ht, ht', rfl, rfl⟩)

theorem failTooDeep : Mirrors ρ (Parser.failTooDeep : Parser α) Parser.failTooDeep := by
  intro pos
  unfold Parser.failTooDeep
  cases ht : ts.token? pos with
  | none =>
    rw [ρ.token?_none ht]
    exact .error .tooDeepEnd
  | some t =>
    obtain ⟨t', ht', halike⟩ := ρ.token ht
    simp only [ht']
    exact .error (.tooDeep ⟨pos, t, t', ht, ht', rfl, rfl⟩)

end Mirrors

/-! ## Reading terminals -/

theorem skip_mirrors : Mirrors ρ skip skip := by
  intro pos
  have hsize := ρ.size_eq
  unfold skip
  by_cases hpos : pos < ts.size
  · rw [if_pos hpos, if_pos (by omega), Nat.add_right_comm]
    exact .ok () (pos + 1)
  · rw [if_neg hpos, if_neg (by omega)]
    exact .ok () pos

theorem skipTwo_mirrors : Mirrors ρ skipTwo skipTwo :=
  skip_mirrors.bind fun _ => skip_mirrors

/-- What is seen is the same, and so is what is read then. -/
theorem Mirrors.conditional {f : Terminals → Nat → Bool} (hf : ∀ pos, f ts' (pos + ρ.shift) = f ts pos)
    {p : Parser Unit} (hp : Mirrors ρ p p) :
    Mirrors ρ (do
      if ← Parser.look f then
        p
        Pure.pure true
      else Pure.pure false) (do
      if ← Parser.look f then
        p
        Pure.pure true
      else Pure.pure false) :=
  .look hf fun _ => .ite (hp.bind fun _ => .pure rfl) (.pure rfl)

theorem consume_mirrors (kind : TokenKind) : Mirrors ρ (consume kind) (consume kind) :=
  .conditional (fun pos => ρ.isKind pos kind) skip_mirrors

theorem consumeKeyword_mirrors (word : Keyword) : Mirrors ρ (consumeKeyword word) (consumeKeyword word) :=
  consume_mirrors _

theorem consumeWord_mirrors (word : String) : Mirrors ρ (consumeWord word) (consumeWord word) :=
  .conditional (fun pos => ρ.isWord pos word) skip_mirrors

theorem consumePair_mirrors (first second : TokenKind) :
    Mirrors ρ (consumePair first second) (consumePair first second) :=
  .conditional (fun pos => by simp) skipTwo_mirrors

theorem expect_mirrors (kind : TokenKind) : Mirrors ρ (expect kind) (expect kind) :=
  .look (fun pos => ρ.isKind pos kind) fun _ => .ite skip_mirrors (.failExpected _)

theorem expectKeyword_mirrors (word : Keyword) : Mirrors ρ (expectKeyword word) (expectKeyword word) :=
  expect_mirrors _

theorem expectWord_mirrors (word : String) : Mirrors ρ (expectWord word) (expectWord word) :=
  .look (fun pos => ρ.isWord pos word) fun _ => .ite skip_mirrors (.failExpected _)

theorem expectEither_mirrors (first second : String) :
    Mirrors ρ (expectEither first second) (expectEither first second) :=
  (consumeWord_mirrors first).bind fun _ => .ite (.pure rfl) (expectWord_mirrors second)

theorem Mirrors.take {q q' : Option Token → Parser β} (hnone : Mirrors ρ (q none) (q' none))
    (hsome : ∀ t t', t.Alike t' → Mirrors ρ (q (some t)) (q' (some t'))) :
    Mirrors ρ (Parser.take >>= q) (Parser.take >>= q') := by
  have h : Mirrors ρ (Parser.current >>= fun t? => skip >>= fun _ => q t?)
      (Parser.current >>= fun t? => skip >>= fun _ => q' t?) :=
    .current (skip_mirrors.bind fun _ => hnone) fun t t' halike => skip_mirrors.bind fun _ => hsome t t' halike
  exact h

/-! ## Combining -/

namespace Mirrors

theorem spanned {make : κ → Span → α} {p p' : Parser κ} (hp : Mirrors ρ p p')
    (hmake : ∀ k s, mapSpans ρ.move (make k s) = make (mapSpans ρ.move k) (ρ.move s)) :
    Mirrors ρ (Parser.spanned make p) (Parser.spanned make p') := by
  intro start
  have h := hp start
  unfold Parser.spanned
  generalize p ts start = r, p' ts' (start + ρ.shift) = r' at h
  cases h with
  | ok k pos =>
    simp only
    rw [← ρ.span, ← hmake]
    exact .ok _ pos
  | error h => exact .error h

theorem optionIf {c c' : Parser Bool} (hc : Mirrors ρ c c') (hp : Mirrors ρ p p') :
    Mirrors ρ (Parser.optionIf c p) (Parser.optionIf c' p') :=
  hc.bind fun _ => .ite (hp.bind fun _ => .pure rfl) (.pure rfl)

theorem listIf {c c' : Parser Bool} {p p' : Parser (List α)} (hc : Mirrors ρ c c') (hp : Mirrors ρ p p') :
    Mirrors ρ (Parser.listIf c p) (Parser.listIf c' p') :=
  hc.bind fun _ => .ite hp (.pure rfl)

theorem rounds {step step' : σ → Parser (Option σ)}
    (hstep : ∀ s, Mirrors ρ (step s) (step' (mapSpans ρ.move s))) (n : Nat) (s : σ) :
    Mirrors ρ (Parser.rounds step n s) (Parser.rounds step' n (mapSpans ρ.move s)) := by
  induction n generalizing s with
  | zero => exact fun pos => .ok s pos
  | succ n ih =>
    intro pos
    have h := hstep s pos
    unfold Parser.rounds
    generalize step s ts pos = r, step' (mapSpans ρ.move s) ts' (pos + ρ.shift) = r' at h
    cases h with
    | ok s? mid =>
      cases s? with
      | none => exact .ok s mid
      | some s => exact ih s mid
    | error h => exact .error h

theorem iterate {step step' : σ → Parser (Option σ)}
    (hstep : ∀ s, Mirrors ρ (step s) (step' (mapSpans ρ.move s))) (s : σ) :
    Mirrors ρ (Parser.iterate step s) (Parser.iterate step' (mapSpans ρ.move s)) := by
  intro pos
  rw [iterate_eq, iterate_eq, ρ.left_eq]
  exact rounds hstep _ s pos

theorem many {item item' : Parser (Option α)} (hitem : Mirrors ρ item item') :
    Mirrors ρ (Parser.many item) (Parser.many item') := by
  refine .bind (iterate (fun found => hitem.bind fun a? => ?_) []) fun found => .pure ?_
  · cases a? with
    | none => exact .pure rfl
    | some a => exact .pure rfl
  · exact (List.map_reverse ..)

theorem repeatWhile {step step' : Parser Bool} (hstep : Mirrors ρ step step') :
    Mirrors ρ (Parser.repeatWhile step) (Parser.repeatWhile step') :=
  iterate (fun _ => hstep.bind fun _ => .ite (.pure rfl) (.pure rfl)) ()

theorem commaSeparated {item item' : Parser α} (hitem : Mirrors ρ item item') :
    Mirrors ρ (Parser.commaSeparated item) (Parser.commaSeparated item') := by
  refine hitem.bind fun first => .bind (many ((consume_mirrors _).optionIf hitem)) fun rest => ?_
  exact .pure rfl

theorem leftChain {operand operand' : Parser α} {operator operator' : Parser (Option β)}
    {make : β → α → α → Span → α} (hoperand : Mirrors ρ operand operand')
    (hoperator : Mirrors ρ operator operator')
    (hmake : ∀ op left right s, mapSpans ρ.move (make op left right s) =
      make (mapSpans ρ.move op) (mapSpans ρ.move left) (mapSpans ρ.move right) (ρ.move s)) :
    Mirrors ρ (Parser.leftChain operand operator make) (Parser.leftChain operand' operator' make) := by
  refine .position fun start => hoperand.bind fun first => ?_
  refine iterate (fun left => hoperator.bind fun op? => ?_) first
  cases op? with
  | none => exact .pure rfl
  | some op =>
    refine hoperand.bind fun right => (spanFrom start).bind fun span => ?_
    exact .pure (congrArg some (hmake op left right span))

end Mirrors

theorem skipUntil_mirrors {stop : Terminals → Nat → Bool}
    (hstop : ∀ pos, stop ts' (pos + ρ.shift) = stop ts pos) :
    Mirrors ρ (skipUntil stop) (skipUntil stop) := by
  refine .bind (.iterate (fun depth => ?_) 0) fun _ => .pure rfl
  refine .look (fun pos => congrArg _ (hstop pos)) fun _ => .ite (.pure rfl) ?_
  refine .take (.pure rfl) fun t t' halike => .pure ?_
  exact congrArg (fun kind => some (parenDepth depth kind)) halike.kind.symm

theorem skipParenthesized_mirrors : Mirrors ρ skipParenthesized skipParenthesized := by
  refine (expect_mirrors _).bind fun _ => .bind (.iterate (fun depth => ?_) 1) fun _ => .pure rfl
  refine .ite (.pure rfl) (.take (.failExpected _) fun t t' halike => .pure ?_)
  exact congrArg (fun kind => some (parenDepth depth kind)) halike.kind.symm

end

end Parser

end TransactLint
