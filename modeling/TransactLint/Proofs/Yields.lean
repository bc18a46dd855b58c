import TransactLint.Proofs.Reading

/-!
# What a parser yields

`Yields ts p P` says that every value that `p` gives, wherever it reads, has the property `P`. Its rules
follow the combinators.
-/

namespace TransactLint.Parser

variable {α β σ κ : Type}

def Yields (ts : Terminals) (p : Parser α) (P : α → Prop) : Prop :=
  ∀ pos a pos', p ts pos = .ok (a, pos') → P a

namespace Yields

variable {ts : Terminals} {p r : Parser α} {q : α → Parser β} {P : α → Prop} {Q : β → Prop}

theorem pure {a : α} (h : P a) : Yields ts (Pure.pure a) P := by
  intro pos b pos' hb
  cases hb
  exact h

theorem bind (hp : Yields ts p P) (hq : ∀ a, P a → Yields ts (q a) Q) : Yields ts (p >>= q) Q := by
  intro pos b pos' hb
  obtain ⟨a, mid, ha, hb⟩ := bind_ok hb
  exact hq a (hp pos a mid ha) mid b pos' hb

/-- What is read first does not matter. -/
theorem after (hq : ∀ a, Yields ts (q a) Q) : Yields ts (p >>= q) Q := by
  intro pos b pos' hb
  obtain ⟨a, mid, -, hb⟩ := bind_ok hb
  exact hq a mid b pos' hb

theorem imp (hp : Yields ts p P) {P' : α → Prop} (h : ∀ a, P a → P' a) : Yields ts p P' :=
  fun pos a pos' ha => h a (hp pos a pos' ha)

theorem map {f : α → β} (hp : Yields ts p fun a => Q (f a)) : Yields ts (f <$> p) Q :=
  hp.bind fun _ => .pure

theorem ite {c : Prop} [Decidable c] (hp : Yields ts p P) (hr : Yields ts r P) :
    Yields ts (if c then p else r) P := by
  split
  · exact hp
  · exact hr

theorem failExpected {what : String} : Yields ts (Parser.failExpected what) P :=
  fun _ _ _ h => absurd h failExpected_ne_ok

theorem failUnsupported : Yields ts Parser.failUnsupported P :=
  fun _ _ _ h => absurd h failUnsupported_ne_ok

theorem failTooDeep : Yields ts Parser.failTooDeep P :=
  fun _ _ _ h => absurd h failTooDeep_ne_ok

theorem spanned {make : κ → Span → α} {p : Parser κ} {K : κ → Prop} (hp : Yields ts p K)
    (hmake : ∀ k s, K k → P (make k s)) : Yields ts (Parser.spanned make p) P := by
  intro pos a pos' ha
  obtain ⟨k, hk, rfl⟩ := spanned_ok ha
  exact hmake k _ (hp pos k pos' hk)

theorem optionIf {c : Parser Bool} (hp : Yields ts p P) :
    Yields ts (Parser.optionIf c p) fun a? => ∀ a ∈ a?, P a := by
  refine .after fun _ => .ite (hp.bind fun a ha => .pure ?_) (.pure nofun)
  rintro _ ⟨rfl⟩
  exact ha

theorem listIf {c : Parser Bool} {p : Parser (List α)} (hp : Yields ts p fun l => ∀ a ∈ l, P a) :
    Yields ts (Parser.listIf c p) fun l => ∀ a ∈ l, P a :=
  .after fun _ => .ite hp (.pure nofun)

/-- What holds at first and is kept by each round holds in the end. -/
theorem iterate {step : σ → Parser (Option σ)} {I : σ → Prop}
    (hstep : ∀ s, I s → Yields ts (step s) fun s? => ∀ s' ∈ s?, I s') {s : σ} (hs : I s) :
    Yields ts (Parser.iterate step s) I := by
  intro pos a pos' ha
  obtain ⟨_, h⟩ := iterate_keeps (I := fun s _ => I s) (fun s s' pos mid hs h => hstep s hs pos _ mid h s' rfl)
    hs ha
  exact h

theorem many {item : Parser (Option α)} (hitem : Yields ts item fun a? => ∀ a ∈ a?, P a) :
    Yields ts (Parser.many item) fun l => ∀ a ∈ l, P a := by
  refine .bind (P := fun found => ∀ a ∈ found, P a) (iterate (fun found hfound => ?_) nofun)
    fun found hfound => ?_
  · refine hitem.bind fun a? ha => ?_
    cases a? with
    | none => exact .pure nofun
    | some a =>
      refine .pure ?_
      rintro _ ⟨rfl⟩
      exact List.forall_mem_cons.mpr ⟨ha a rfl, hfound⟩
  · exact .pure fun a ha => hfound a (List.mem_reverse.mp ha)

theorem commaSeparated (hp : Yields ts p P) : Yields ts (Parser.commaSeparated p) fun l => ∀ a ∈ l, P a :=
  hp.bind fun _ ha => (many (.optionIf hp)).bind fun _ hrest => .pure (List.forall_mem_cons.mpr ⟨ha, hrest⟩)

theorem leftChain {operator : Parser (Option β)} {make : β → α → α → Span → α} {O : β → Prop}
    {R : α → Prop} (hp : Yields ts p P) (hoperator : Yields ts operator fun op? => ∀ op ∈ op?, O op)
    (hfirst : ∀ a, P a → R a)
    (hmake : ∀ op left right span, O op → R left → P right → R (make op left right span)) :
    Yields ts (Parser.leftChain p operator make) R := by
  refine .after fun start => hp.bind fun first h => iterate (fun left hleft => ?_) (hfirst first h)
  refine hoperator.bind fun op? hop => ?_
  cases op? with
  | none => exact .pure nofun
  | some op =>
    refine hp.bind fun right hright => .after fun span => .pure ?_
    rintro _ ⟨rfl⟩
    exact hmake op left right span (hop op rfl) hleft hright

end Yields

end TransactLint.Parser
