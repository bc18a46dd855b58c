import TransactLint.Proofs.Reading

/-!
# Progress

Two parsers agree if they have the same outcome, and what they read does not go backwards or past the last terminal.
The rules follow the combinators. A repetition whose every round reads a terminal comes to the same end in whatever
way it is carried out, and a parser that is called only after a terminal has been read need agree only from the next
position on.
-/

namespace TransactLint.Parser

variable {α β γ σ κ : Type} {ts : Terminals} {base pos : Nat}

/-! ## Repetitions -/

/-- A way to repeat that comes to the right end wherever each round reads a terminal, and to any end elsewhere. -/
structure FaithfulRepetition (ts : Terminals) where
  repetition : Repetition
  run_eq {σ : Type} {step : σ → Parser (Option σ)} {s : σ} {pos : Nat} {r : Except ParseError (σ × Nat)} :
    Repeats step ts s pos r → repetition.run step s ts pos = r

instance : CoeOut (FaithfulRepetition ts) Repetition := ⟨FaithfulRepetition.repetition⟩

def FaithfulRepetition.within (allowed : Terminals → Nat → Nat) (h : ∀ pos, ts.size - pos < allowed ts pos) :
    FaithfulRepetition ts where
  repetition := .within allowed
  run_eq hr := rounds_of_repeats hr (h _)

def FaithfulRepetition.standard : FaithfulRepetition ts :=
  .within (fun ts pos => ts.size - pos + 1) fun _ => Nat.lt_succ_self _

/-- Rounds as `rounds` has them, but with a fault where they run out or one that goes on reads nothing. -/
def watchedRounds (fault : ParseError) (step : σ → Parser (Option σ)) : Nat → σ → Parser σ
  | 0, _ => fun _ _ => .error fault
  | n + 1, s => fun ts pos =>
    match step s ts pos with
    | .error e => .error e
    | .ok (none, pos) => .ok (s, pos)
    | .ok (some s, mid) => if pos < mid then watchedRounds fault step n s ts mid else .error fault

theorem watchedRounds_of_repeats {fault : ParseError} {step : σ → Parser (Option σ)} {s : σ}
    {r : Except ParseError (σ × Nat)} (h : Repeats step ts s pos r) {n : Nat} (hn : ts.size - pos ≤ n) :
    watchedRounds fault step (n + 1) s ts pos = r := by
  induction h generalizing n with
  | fails h => simp only [watchedRounds, h]
  | ends h => simp only [watchedRounds, h]
  | round h hlt hsize _ ih =>
    obtain ⟨n, rfl⟩ : ∃ m, n = m + 1 := ⟨n - 1, by omega⟩
    rw [watchedRounds]
    simp only [h, if_pos hlt]
    exact ih (by omega)

@[reducible]
def Repetition.watched (fault : ParseError) : Repetition where
  run step s := fun ts pos => watchedRounds fault step (ts.size - pos + 1) s ts pos

def FaithfulRepetition.watched (fault : ParseError) : FaithfulRepetition ts where
  repetition := .watched fault
  run_eq hr := watchedRounds_of_repeats hr (Nat.le_refl _)

variable {R : FaithfulRepetition ts}

/-! ## At one position -/

/-- What is read from `pos` ends no earlier, and no later than the last terminal. Where something is owed, it is
read. -/
def Advances (ts : Terminals) (pos : Nat) (owed : α → Bool) (r : Except ParseError (α × Nat)) : Prop :=
  ∀ a pos', r = .ok (a, pos') → pos ≤ pos' ∧ pos' ≤ ts.size ∧ (owed a = true → pos < pos')

structure AgreesAt (ts : Terminals) (pos : Nat) (p p' : Parser α) (owed : α → Bool) : Prop where
  same : p' ts pos = p ts pos
  advances : Advances ts pos owed (p ts pos)

def Agrees (ts : Terminals) (base : Nat) (p p' : Parser α) (owed : α → Bool) : Prop :=
  ∀ pos, base ≤ pos → pos ≤ ts.size → AgreesAt ts pos p p' owed

def KeepsPlace (ts : Terminals) (p : Parser α) (owed : α → Bool) : Prop :=
  ∀ pos, pos ≤ ts.size → Advances ts pos owed (p ts pos)

section
variable {p p' r r' : Parser α} {q q' : α → Parser β} {owed : α → Bool} {due : β → Bool}

namespace AgreesAt

theorem pure {a : α} (h : pos ≤ ts.size) (ha : owed a = false) :
    AgreesAt ts pos (Pure.pure a) (Pure.pure a) owed := by
  refine ⟨rfl, ?_⟩
  intro b pos' hb
  cases hb
  exact ⟨Nat.le_refl _, h, fun hb => absurd hb (by simp [ha])⟩

theorem bind (hp : AgreesAt ts pos p p' owed)
    (hq : ∀ a mid, pos ≤ mid → mid ≤ ts.size → (owed a = true → pos < mid) →
      AgreesAt ts mid (q a) (q' a) fun b => !owed a && due b) :
    AgreesAt ts pos (p >>= q) (p' >>= q') due := by
  cases hread : p ts pos with
  | error e =>
    have hfails : (p >>= q) ts pos = .error e := bind_of_error hread
    refine ⟨(bind_of_error (hp.same.trans hread)).trans hfails.symm, ?_⟩
    rw [hfails]
    exact nofun
  | ok x =>
    obtain ⟨a, mid⟩ := x
    obtain ⟨hle, hsize, hlt⟩ := hp.advances a mid hread
    have hnext := hq a mid hle hsize hlt
    refine ⟨?_, ?_⟩
    · rw [bind_of_ok (hp.same.trans hread), bind_of_ok hread]
      exact hnext.same
    · intro b pos' hb
      rw [bind_of_ok hread] at hb
      obtain ⟨hle', hsize', hlt'⟩ := hnext.advances b pos' hb
      refine ⟨by omega, hsize', fun hdue => ?_⟩
      by_cases hmoved : owed a = true
      · have := hlt hmoved
        omega
      · have := hlt' (by simp [hmoved, hdue])
        omega

/-- What always reads something pays what is owed. -/
theorem «then» (hp : AgreesAt ts pos p p' fun _ => true)
    (hq : ∀ a, Agrees ts (pos + 1) (q a) (q' a) fun _ => false) :
    AgreesAt ts pos (p >>= q) (p' >>= q') due :=
  hp.bind fun a mid _ hsize hlt => hq a mid (hlt rfl) hsize

theorem ite {c : Prop} [Decidable c] (hp : c → AgreesAt ts pos p p' owed)
    (hr : ¬ c → AgreesAt ts pos r r' owed) :
    AgreesAt ts pos (if c then p else r) (if c then p' else r') owed := by
  split
  · exact hp ‹_›
  · exact hr ‹_›

theorem look {f : Terminals → Nat → γ} {q q' : γ → Parser β}
    (hq : AgreesAt ts pos (q (f ts pos)) (q' (f ts pos)) due) :
    AgreesAt ts pos (Parser.look f >>= q) (Parser.look f >>= q') due :=
  ⟨hq.same, hq.advances⟩

theorem spanned {make : κ → Span → α} {p p' : Parser κ} (hp : AgreesAt ts pos p p' fun _ => true) :
    AgreesAt ts pos (Parser.spanned make p) (Parser.spanned make p') owed := by
  refine ⟨?_, ?_⟩
  · unfold Parser.spanned
    rw [hp.same]
  · intro a pos' ha
    obtain ⟨k, hk, rfl⟩ := spanned_ok ha
    obtain ⟨hle, hsize, hlt⟩ := hp.advances k pos' hk
    exact ⟨hle, hsize, fun _ => hlt rfl⟩

theorem free (hp : AgreesAt ts pos p p' owed) : AgreesAt ts pos p p' fun _ => false :=
  ⟨hp.same, fun a pos' ha => ⟨(hp.advances a pos' ha).1, (hp.advances a pos' ha).2.1, nofun⟩⟩

end AgreesAt

theorem skip_agreesAt (h : pos < ts.size) {owed : Unit → Bool} : AgreesAt ts pos skip skip owed := by
  refine ⟨rfl, ?_⟩
  intro u pos' hu
  rw [skip_of_lt h] at hu
  cases hu
  exact ⟨Nat.le_succ _, h, fun _ => Nat.lt_succ_self _⟩

/-- What comes after a terminal that is there. -/
theorem AgreesAt.skip (h : pos < ts.size) (hbase : base ≤ pos) (hp : Agrees ts (base + 1) p p' fun _ => true) :
    AgreesAt ts pos (do
      Parser.skip
      p) (do
      Parser.skip
      p') owed := by
  apply (skip_agreesAt h).then
  intro _ mid hmid hsize
  exact (hp mid (by omega) hsize).free

theorem skipTwo_agreesAt (h : pos + 1 < ts.size) {owed : Unit → Bool} : AgreesAt ts pos skipTwo skipTwo owed := by
  refine ⟨rfl, ?_⟩
  intro u pos' hu
  rw [skipTwo_of_lt h] at hu
  cases hu
  exact ⟨by omega, h, fun _ => by omega⟩

/-! ## From one position on -/

namespace Agrees

theorem pure {a : α} (ha : owed a = false) : Agrees ts base (Pure.pure a) (Pure.pure a) owed :=
  fun _ _ h => .pure h ha

theorem mono {base' : Nat} (hp : Agrees ts base p p' owed) (hbase : base ≤ base') : Agrees ts base' p p' owed :=
  fun pos hpos h => hp pos (Nat.le_trans hbase hpos) h

theorem later (hp : Agrees ts base p p' owed) : Agrees ts (base + 1) p p' owed :=
  hp.mono (Nat.le_succ _)

/-- There is no position past the last terminal at which to disagree. -/
theorem past (h : ts.size < base) : Agrees ts base p p' owed :=
  fun _ hbase hpos => by omega

theorem here (hp : Agrees ts pos p p' owed) (h : pos ≤ ts.size) : AgreesAt ts pos p p' owed :=
  hp pos (Nat.le_refl _) h

theorem free (hp : Agrees ts base p p' owed) : Agrees ts base p p' fun _ => false :=
  fun pos hbase h => (hp pos hbase h).free

theorem keepsPlace (hp : Agrees ts 0 p p' owed) : KeepsPlace ts p owed :=
  fun pos h => (hp pos (Nat.zero_le _) h).advances

theorem «then» (hp : Agrees ts base p p' fun _ => true)
    (hq : ∀ a, Agrees ts (base + 1) (q a) (q' a) fun _ => false) :
    Agrees ts base (p >>= q) (p' >>= q') due := by
  intro pos hbase h
  apply (hp pos hbase h).then
  intro a
  exact (hq a).mono (by omega)

theorem bind (hp : Agrees ts base p p' fun _ => false) (hq : ∀ a, Agrees ts base (q a) (q' a) due) :
    Agrees ts base (p >>= q) (p' >>= q') due := by
  intro pos hbase h
  apply (hp pos hbase h).bind
  intro a mid hle hsize _
  exact hq a mid (by omega) hsize

theorem map {f : α → β} (hp : Agrees ts base p p' fun _ => true) : Agrees ts base (f <$> p) (f <$> p') due :=
  hp.then fun _ => .pure rfl

theorem ite {c : Prop} [Decidable c] (hp : Agrees ts base p p' owed) (hr : Agrees ts base r r' owed) :
    Agrees ts base (if c then p else r) (if c then p' else r') owed :=
  fun pos hbase h => .ite (fun _ => hp pos hbase h) fun _ => hr pos hbase h

theorem look {f : Terminals → Nat → γ} {q q' : γ → Parser β}
    (hq : ∀ c, Agrees ts base (q c) (q' c) due) :
    Agrees ts base (Parser.look f >>= q) (Parser.look f >>= q') due :=
  fun pos hbase h => .look (hq _ pos hbase h)

/-- A choice by what can be seen, where the first alternative makes use of it. -/
theorem ifLook {f : Terminals → Nat → Bool}
    (hp : ∀ pos, base ≤ pos → f ts pos = true → AgreesAt ts pos p p' owed) (hr : Agrees ts base r r' owed) :
    Agrees ts base (Parser.look f >>= fun c => if c = true then p else r)
      (Parser.look f >>= fun c => if c = true then p' else r') owed :=
  fun pos hbase h => .look (.ite (hp pos hbase) fun _ => hr pos hbase h)

theorem of_ne_ok (h : ∀ pos r, p ts pos ≠ .ok r) : Agrees ts base p p owed :=
  fun pos _ _ => ⟨rfl, fun _ _ hp => absurd hp (h pos _)⟩

theorem failExpected {what : String} : Agrees ts base (Parser.failExpected what) (Parser.failExpected what) owed :=
  of_ne_ok fun _ _ => failExpected_ne_ok

theorem failUnsupported : Agrees ts base Parser.failUnsupported Parser.failUnsupported owed :=
  of_ne_ok fun _ _ => failUnsupported_ne_ok

theorem failTooDeep : Agrees ts base Parser.failTooDeep Parser.failTooDeep owed :=
  of_ne_ok fun _ _ => failTooDeep_ne_ok

/-- The parser that the current terminal asks for. -/
theorem current {q q' : Option Token → Parser β}
    (hsome : ∀ pos t, base ≤ pos → pos < ts.size → AgreesAt ts pos (q (some t)) (q' (some t)) due)
    (hnone : Agrees ts base (q none) (q' none) due) :
    Agrees ts base (Parser.current >>= q) (Parser.current >>= q') due := by
  intro pos hbase h
  apply AgreesAt.look
  cases ht : ts.token? pos with
  | none => exact hnone pos hbase h
  | some t => exact hsome pos t hbase (token?_isSome (by simp [ht]))

/-- A condition that reads something where it holds. -/
theorem whether {c c' : Parser Bool} (hc : Agrees ts base c c' id) (hp : Agrees ts (base + 1) p p' fun _ => false)
    (hr : Agrees ts base r r' owed) :
    Agrees ts base (c >>= fun b => if b = true then p else r) (c' >>= fun b => if b = true then p'
      else r') owed := by
  intro pos hbase h
  apply (hc pos hbase h).bind
  intro b mid hle hsize hlt
  cases b with
  | true =>
    have := hlt rfl
    exact hp mid (by omega) hsize
  | false => exact hr mid (by omega) hsize

/-- Where something is found, it has been read. -/
theorem found {p p' : Parser (Option α)} {q q' : Option α → Parser β} (hp : Agrees ts base p p' Option.isSome)
    (hsome : ∀ a, Agrees ts (base + 1) (q (some a)) (q' (some a)) fun _ => false)
    (hnone : Agrees ts base (q none) (q' none) due) : Agrees ts base (p >>= q) (p' >>= q') due := by
  intro pos hbase h
  apply (hp pos hbase h).bind
  intro a? mid hle hsize hlt
  cases a? with
  | some a =>
    have := hlt rfl
    exact hsome a mid (by omega) hsize
  | none => exact hnone mid (by omega) hsize

theorem spanned {make : κ → Span → α} {p p' : Parser κ} (hp : Agrees ts base p p' fun _ => true) :
    Agrees ts base (Parser.spanned make p) (Parser.spanned make p') owed :=
  fun pos hbase h => (hp pos hbase h).spanned

end Agrees

/-! ## Reading terminals -/

theorem skip_agrees : Agrees ts base skip skip fun _ => false := by
  intro pos _ h
  by_cases hlt : pos < ts.size
  · exact skip_agreesAt hlt
  · obtain rfl : pos = ts.size := by omega
    refine ⟨rfl, ?_⟩
    rw [skip_at_end]
    intro u pos' hu
    cases hu
    exact ⟨h, h, nofun⟩

theorem skipTwo_agrees : Agrees ts base skipTwo skipTwo fun _ => false :=
  skip_agrees.bind fun _ => skip_agrees

/-- A terminal that satisfies a test is read. -/
theorem readIf_agrees {f : Terminals → Nat → Bool} (hlt : ∀ pos, f ts pos = true → pos < ts.size) :
    Agrees ts base (do
      if ← look f then
        skip
        pure true
      else pure false) (do
      if ← look f then
        skip
        pure true
      else pure false) id :=
  .ifLook (fun pos _ h => (skip_agreesAt (hlt pos h)).then fun _ => .pure rfl) (.pure rfl)

theorem required_agrees {f : Terminals → Nat → Bool} {what : String} {owed : Unit → Bool}
    (hlt : ∀ pos, f ts pos = true → pos < ts.size) :
    Agrees ts base (do if ← look f then skip else failExpected what)
      (do if ← look f then skip else failExpected what) owed :=
  .ifLook (fun pos _ h => skip_agreesAt (hlt pos h)) .failExpected

theorem consume_agrees (kind : TokenKind) : Agrees ts base (consume kind) (consume kind) id :=
  readIf_agrees fun _ => isKind_lt

theorem consumeKeyword_agrees (word : Keyword) : Agrees ts base (consumeKeyword word) (consumeKeyword word) id :=
  consume_agrees _

theorem consumeWord_agrees (word : String) : Agrees ts base (consumeWord word) (consumeWord word) id :=
  readIf_agrees fun _ => isWord_lt

theorem expect_agrees (kind : TokenKind) {owed : Unit → Bool} : Agrees ts base (expect kind) (expect kind) owed :=
  required_agrees fun _ => isKind_lt

theorem expectKeyword_agrees (word : Keyword) {owed : Unit → Bool} :
    Agrees ts base (expectKeyword word) (expectKeyword word) owed :=
  expect_agrees _

theorem expectWord_agrees (word : String) {owed : Unit → Bool} :
    Agrees ts base (expectWord word) (expectWord word) owed :=
  required_agrees fun _ => isWord_lt

theorem expectEither_agrees (first second : String) {owed : Unit → Bool} :
    Agrees ts base (expectEither first second) (expectEither first second) owed :=
  .whether (consumeWord_agrees first) (.pure rfl) (expectWord_agrees second)

theorem consumePair_agrees (first second : TokenKind) :
    Agrees ts base (consumePair first second) (consumePair first second) id :=
  .ifLook (fun _ _ h => (skipTwo_agreesAt (pair_lt h)).then fun _ => .pure rfl) (.pure rfl)

theorem AgreesAt.take {q q' : Option Token → Parser β} {t : Token} (ht : ts.token? pos = some t)
    (hq : AgreesAt ts (pos + 1) (q (some t)) (q' (some t)) fun _ => false) :
    AgreesAt ts pos (Parser.take >>= q) (Parser.take >>= q') due := by
  have htake := take_of_some ht
  refine ⟨?_, ?_⟩
  · rw [bind_of_ok htake, bind_of_ok htake]
    exact hq.same
  · rw [bind_of_ok htake]
    intro b pos' hb
    obtain ⟨hle, hsize, _⟩ := hq.advances b pos' hb
    exact ⟨by omega, hsize, fun _ => by omega⟩

/-- The terminal that is taken, or that there is none. -/
theorem Agrees.take {q q' : Option Token → Parser β}
    (hsome : ∀ t, Agrees ts (base + 1) (q (some t)) (q' (some t)) fun _ => false)
    (hnone : Agrees ts base (q none) (q' none) due) :
    Agrees ts base (Parser.take >>= q) (Parser.take >>= q') due := by
  intro pos hbase h
  cases ht : ts.token? pos with
  | some t =>
    have hlt : pos < ts.size := token?_isSome (by simp [ht])
    exact .take ht (hsome t (pos + 1) (by omega) hlt)
  | none =>
    have hend : ts.size ≤ pos := by simpa [Terminals.token?] using ht
    obtain rfl : pos = ts.size := Nat.le_antisymm h hend
    refine ⟨?_, ?_⟩
    · rw [bind_of_ok take_at_end, bind_of_ok take_at_end]
      exact (hnone _ hbase h).same
    · rw [bind_of_ok take_at_end]
      exact (hnone _ hbase h).advances

/-! ## Options -/

namespace Agrees

theorem optionIf {c c' : Parser Bool} {due : Option α → Bool} (hc : Agrees ts base c c' id)
    (hp : Agrees ts (base + 1) p p' fun _ => false) (hnone : due none = false) :
    Agrees ts base (Parser.optionIf c p) (Parser.optionIf c' p') due :=
  .whether hc (hp.bind fun _ => .pure rfl) (.pure hnone)

theorem optionPure {b : Bool} {due : Option α → Bool} (hp : Agrees ts base p p' fun _ => true)
    (hnone : due none = false) :
    Agrees ts base (Parser.optionIf (Pure.pure b) p) (Parser.optionIf (Pure.pure b) p') due := by
  change Agrees ts base (if b = true then p >>= fun a => Pure.pure (some a) else Pure.pure none)
    (if b = true then p' >>= fun a => Pure.pure (some a) else Pure.pure none) due
  exact .ite (hp.then fun _ => .pure rfl) (.pure hnone)

theorem optionLook {f : Terminals → Nat → Bool} {due : Option α → Bool}
    (hp : Agrees ts base p p' fun _ => true) (hnone : due none = false) :
    Agrees ts base (Parser.optionIf (Parser.look f) p) (Parser.optionIf (Parser.look f) p') due :=
  .look fun _ => .ite (hp.then fun _ => .pure rfl) (.pure hnone)

theorem listIf {c c' : Parser Bool} {p p' : Parser (List α)} (hc : Agrees ts base c c' id)
    (hp : Agrees ts (base + 1) p p' fun _ => false) :
    Agrees ts base (Parser.listIf c p) (Parser.listIf c' p') fun _ => false :=
  .whether hc hp (.pure rfl)

theorem listPure {b : Bool} {p p' : Parser (List α)} (hp : Agrees ts base p p' fun _ => false) :
    Agrees ts base (Parser.listIf (Pure.pure b) p) (Parser.listIf (Pure.pure b) p') fun _ => false := by
  change Agrees ts base (if b = true then p else Pure.pure []) (if b = true then p' else Pure.pure []) _
  exact .ite hp (.pure rfl)

theorem listLook {f : Terminals → Nat → Bool} {p p' : Parser (List α)}
    (hp : Agrees ts base p p' fun _ => false) :
    Agrees ts base (Parser.listIf (Parser.look f) p) (Parser.listIf (Parser.look f) p') fun _ => false :=
  .look fun _ => .ite hp (.pure rfl)

end Agrees

/-! ## Repetition -/

/-- Induction on the terminals left, of which every round that goes on leaves fewer. -/
theorem repeats_of_agrees {step step' : σ → Parser (Option σ)}
    (hstep : ∀ s, Agrees ts base (step s) (step' s) Option.isSome) :
    ∀ (n : Nat) (s : σ) (pos : Nat), ts.size - pos < n → base ≤ pos → pos ≤ ts.size →
      ∃ r, Repeats step ts s pos r ∧ Repeats step' ts s pos r ∧ Advances ts pos (fun _ => false) r
  | 0, _, _, hn, _, _ => by omega
  | n + 1, s, pos, hn, hbase, hpos => by
    obtain ⟨hsame, hadvances⟩ := hstep s pos hbase hpos
    cases hround : step s ts pos with
    | error e => exact ⟨.error e, .fails hround, .fails (hsame.trans hround), nofun⟩
    | ok x =>
      obtain ⟨s?, mid⟩ := x
      obtain ⟨hle, hsize, hlt⟩ := hadvances s? mid hround
      cases s? with
      | none =>
        refine ⟨.ok (s, mid), .ends hround, .ends (hsame.trans hround), ?_⟩
        intro a pos' ha
        cases ha
        exact ⟨hle, hsize, nofun⟩
      | some s' =>
        -- the round has moved on, so fewer terminals are left
        have hmoved := hlt rfl
        obtain ⟨r, hr, hr', hrest⟩ := repeats_of_agrees hstep n s' mid (by omega) (by omega) hsize
        refine ⟨r, .round hround hmoved hsize hr, .round (hsame.trans hround) hmoved hsize hr', ?_⟩
        intro a pos' ha
        obtain ⟨hle', hsize', _⟩ := hrest a pos' ha
        exact ⟨by omega, hsize', nofun⟩

namespace Agrees

theorem iterate {step step' : σ → Parser (Option σ)}
    (hstep : ∀ s, Agrees ts base (step s) (step' s) Option.isSome) (s : σ) :
    Agrees ts base (Parser.iterate step s) (@Parser.iterate σ R step' s) fun _ => false := by
  intro pos hbase h
  obtain ⟨r, hr, hr', hadvances⟩ := repeats_of_agrees hstep _ s pos (Nat.lt_succ_self _) hbase h
  have hiterate : Parser.iterate step s ts pos = r := rounds_of_repeats hr (Nat.lt_succ_self _)
  refine ⟨(R.run_eq hr').trans hiterate.symm, ?_⟩
  rw [hiterate]
  exact hadvances

theorem many {item item' : Parser (Option α)} (hitem : Agrees ts base item item' Option.isSome) :
    Agrees ts base (Parser.many item) (@Parser.many α R item') fun _ => false := by
  refine (iterate (fun found => ?_) []).bind fun found => .pure rfl
  exact .found hitem (fun a => .pure rfl) (.pure rfl)

theorem repeatWhile {step step' : Parser Bool} (hstep : Agrees ts base step step' id) :
    Agrees ts base (Parser.repeatWhile step) (@Parser.repeatWhile R step') fun _ => false :=
  iterate (fun _ => .whether hstep (.pure rfl) (.pure rfl)) ()

theorem commaSeparated {item item' : Parser α} {owed : List α → Bool}
    (hitem : Agrees ts base item item' fun _ => true) :
    Agrees ts base (Parser.commaSeparated item) (@Parser.commaSeparated α R item') owed := by
  refine hitem.then fun first => (many ?_).bind fun rest => .pure rfl
  exact .optionIf (consume_agrees _) hitem.later.later.free rfl

theorem leftChain {operand operand' : Parser α} {operator operator' : Parser (Option β)}
    {make : β → α → α → Span → α} (hoperand : Agrees ts base operand operand' fun _ => true)
    (hoperator : Agrees ts base operator operator' fun _ => false) :
    Agrees ts base (Parser.leftChain operand operator make)
      (@Parser.leftChain α β R operand' operator' make) owed := by
  refine .look fun start => hoperand.then fun first => iterate (fun left => ?_) first
  refine hoperator.later.bind fun op? => ?_
  cases op? with
  | none => exact .pure rfl
  | some op => exact hoperand.later.then fun right => .look fun span => .pure rfl

end Agrees

theorem skipUntil_agrees (stop : Terminals → Nat → Bool) :
    Agrees ts base (skipUntil stop) (@skipUntil R stop) fun _ => false := by
  refine (Agrees.iterate (fun depth => ?_) 0).bind fun _ => .pure rfl
  exact .look fun _ => .ite (.pure rfl) (.take (fun t => .pure rfl) (.pure rfl))

theorem skipParenthesized_agrees {owed : Unit → Bool} :
    Agrees ts base skipParenthesized (@skipParenthesized R) owed := by
  refine (expect_agrees _).then fun _ => (Agrees.iterate (fun depth => ?_) 1).bind fun _ => .pure rfl
  exact .ite (.pure rfl) (.take (fun t => .pure rfl) .failExpected)

end

end TransactLint.Parser
