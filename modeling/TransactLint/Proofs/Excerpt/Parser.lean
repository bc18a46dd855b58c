import TransactLint.Proofs.Excerpt

/-!
# Parsing an excerpt

What is read of an excerpt is read of the whole, with the same result. `Persists` says so of two
parsers, and its rules follow the combinators. A test that the end of the excerpt could answer in
another way is made only where something is still to be read, so whoever reads to the end of the
excerpt has not made it there.
-/

namespace TransactLint

/-- `p'` reads of the whole what was read of the excerpt from `pos` to `pos'`, as long as that is no
further than `limit`. Where something is owed, it has been read. -/
structure Excerpt.Kept {ts ts' : Terminals} (ρ : Excerpt ts ts') {α : Type} (limit pos : Nat) (p' : Parser α)
    (owed : α → Bool) (pos' : Nat) (a : α) : Prop where
  le : pos ≤ pos'
  size : pos' ≤ ts.size
  lt : owed a = true → pos < pos'
  same : pos' ≤ limit → p' ts' (pos + ρ.shift) = .ok (a, pos' + ρ.shift)

namespace Parser

variable {α β σ κ γ : Type} {ts ts' : Terminals} {ρ : Excerpt ts ts'} {base limit pos : Nat}

def PersistsAt (ρ : Excerpt ts ts') (limit pos : Nat) (p p' : Parser α) (owed : α → Bool) : Prop :=
  ∀ pos' a, p ts pos = .ok (a, pos') → ρ.Kept limit pos p' owed pos' a

def Persists (ρ : Excerpt ts ts') (base limit : Nat) (p p' : Parser α) (owed : α → Bool) : Prop :=
  ∀ pos, base ≤ pos → pos ≤ ts.size → PersistsAt ρ limit pos p p' owed

section
variable {p p' r r' : Parser α} {q q' : α → Parser β} {owed : α → Bool} {due : β → Bool}

/-! ## At one position -/

namespace PersistsAt

theorem pure {a : α} (h : pos ≤ ts.size) (ha : owed a = false) :
    PersistsAt ρ limit pos (Pure.pure a) (Pure.pure a) owed := by
  intro pos' b hb
  cases hb
  exact ⟨Nat.le_refl _, h, fun hb => absurd hb (by simp [ha]), fun _ => rfl⟩

theorem bindRead (hp : PersistsAt ρ limit pos p p' owed)
    (hq : ∀ a mid, p ts pos = .ok (a, mid) → ρ.Kept limit pos p' owed mid a →
      PersistsAt ρ limit mid (q a) (q' a) fun b => !owed a && due b) :
    PersistsAt ρ limit pos (p >>= q) (p' >>= q') due := by
  intro pos' b h
  obtain ⟨a, mid, ha, hb⟩ := bind_ok h
  have first := hp mid a ha
  have second := hq a mid ha first pos' b hb
  have hle := first.le
  have hle' := second.le
  refine ⟨Nat.le_trans hle hle', second.size, fun hdue => ?_, fun hlimit => ?_⟩
  · cases hmoved : owed a with
    | true =>
      have := first.lt hmoved
      omega
    | false =>
      have := second.lt (by simp [hmoved, hdue])
      omega
  · rw [bind_of_ok (first.same (by omega))]
    exact second.same hlimit

theorem bind (hp : PersistsAt ρ limit pos p p' owed)
    (hq : ∀ a mid, pos ≤ mid → mid ≤ ts.size → (owed a = true → pos < mid) →
      PersistsAt ρ limit mid (q a) (q' a) fun b => !owed a && due b) :
    PersistsAt ρ limit pos (p >>= q) (p' >>= q') due :=
  hp.bindRead fun a mid _ hkept => hq a mid hkept.le hkept.size hkept.lt

/-- What always reads something pays what is owed. -/
theorem «then» (hp : PersistsAt ρ limit pos p p' fun _ => true)
    (hq : ∀ a, Persists ρ (pos + 1) limit (q a) (q' a) fun _ => false) :
    PersistsAt ρ limit pos (p >>= q) (p' >>= q') due :=
  hp.bind fun a mid _ hsize hlt => hq a mid (hlt rfl) hsize

theorem ite {c : Prop} [Decidable c] (hp : c → PersistsAt ρ limit pos p p' owed)
    (hr : ¬ c → PersistsAt ρ limit pos r r' owed) :
    PersistsAt ρ limit pos (if c then p else r) (if c then p' else r') owed := by
  split
  · exact hp ‹_›
  · exact hr ‹_›

theorem look {f f' : Terminals → Nat → γ} {q q' : γ → Parser β}
    (hf : f' ts' (pos + ρ.shift) = f ts pos)
    (hq : PersistsAt ρ limit pos (q (f ts pos)) (q' (f ts pos)) due) :
    PersistsAt ρ limit pos (Parser.look f >>= q) (Parser.look f' >>= q') due := by
  intro pos' b hb
  have hkept := hq pos' b hb
  refine ⟨hkept.le, hkept.size, hkept.lt, fun hlimit => ?_⟩
  have hlook : Parser.look f' ts' (pos + ρ.shift) = .ok (f ts pos, pos + ρ.shift) := by
    rw [Parser.look, hf]
  rw [bind_of_ok hlook]
  exact hkept.same hlimit

end PersistsAt

theorem skip_persistsAt (h : pos < ts.size) {owed : Unit → Bool} : PersistsAt ρ limit pos skip skip owed := by
  intro pos' u hu
  rw [skip_of_lt h] at hu
  cases hu
  refine ⟨by omega, h, fun _ => by omega, fun _ => ?_⟩
  rw [skip_of_lt (ρ.lt_size h), Nat.add_right_comm]

theorem skipTwo_persistsAt (h : pos + 1 < ts.size) {owed : Unit → Bool} :
    PersistsAt ρ limit pos skipTwo skipTwo owed := by
  intro pos' u hu
  have hlt := ρ.lt_size h
  rw [skipTwo_of_lt h] at hu
  cases hu
  refine ⟨by omega, h, fun _ => by omega, fun _ => ?_⟩
  rw [skipTwo_of_lt (by omega), Nat.add_right_comm]

/-! ## From one position on -/

namespace Persists

theorem pure {a : α} (ha : owed a = false) : Persists ρ base limit (Pure.pure a) (Pure.pure a) owed :=
  fun _ _ h => .pure h ha

theorem «then» (hp : Persists ρ base limit p p' fun _ => true)
    (hq : ∀ a, Persists ρ (base + 1) limit (q a) (q' a) fun _ => false) :
    Persists ρ base limit (p >>= q) (p' >>= q') due :=
  fun pos hbase h => (hp pos hbase h).then fun a mid hlt hsize => hq a mid (by omega) hsize

theorem bind (hp : Persists ρ base limit p p' fun _ => false)
    (hq : ∀ a, Persists ρ base limit (q a) (q' a) due) :
    Persists ρ base limit (p >>= q) (p' >>= q') due :=
  fun pos hbase h => (hp pos hbase h).bind fun a mid hle hsize _ => hq a mid (by omega) hsize

theorem here (hp : Persists ρ pos limit p p' owed) (h : pos ≤ ts.size) : PersistsAt ρ limit pos p p' owed :=
  hp pos (Nat.le_refl _) h

theorem owes (hp : Persists ρ base limit p p' fun _ => true) : Persists ρ base limit p p' owed := by
  intro pos hbase h pos' a ha
  have hkept := hp pos hbase h pos' a ha
  exact ⟨hkept.le, hkept.size, fun _ => hkept.lt rfl, hkept.same⟩

theorem free (hp : Persists ρ base limit p p' owed) : Persists ρ base limit p p' fun _ => false := by
  intro pos hbase h pos' a ha
  have hkept := hp pos hbase h pos' a ha
  exact ⟨hkept.le, hkept.size, nofun, hkept.same⟩

/-- Something is read after `p`, so `p` itself does not go to the end of the excerpt. -/
theorem before (hbase : 0 < base)
    (hp : ts.size - 1 < ts.size → Persists ρ base (ts.size - 1) p p' fun _ => false)
    (hq : ∀ a, Persists ρ base limit (q a) (q' a) fun _ => true) :
    Persists ρ base limit (p >>= q) (p' >>= q') due := by
  intro pos hpos h pos' b hb
  obtain ⟨a, mid, ha, hb⟩ := bind_ok hb
  have first := hp (by omega) pos hpos h mid a ha
  have hle := first.le
  have second := hq a mid (by omega) first.size pos' b hb
  have hlt := second.lt rfl
  have hsize := second.size
  refine ⟨by omega, hsize, fun _ => by omega, fun hlimit => ?_⟩
  rw [bind_of_ok (first.same (by omega))]
  exact second.same hlimit

theorem map {f : α → β} (hp : Persists ρ base limit p p' fun _ => true) :
    Persists ρ base limit (f <$> p) (f <$> p') due :=
  hp.then fun _ => .pure rfl

theorem ite {c : Prop} [Decidable c] (hp : Persists ρ base limit p p' owed)
    (hr : Persists ρ base limit r r' owed) :
    Persists ρ base limit (if c then p else r) (if c then p' else r') owed :=
  fun pos hbase h => .ite (fun _ => hp pos hbase h) fun _ => hr pos hbase h

/-! ## Looking and failing -/

theorem look {f f' : Terminals → Nat → γ} {q q' : γ → Parser β}
    (hf : ∀ pos, base ≤ pos → pos ≤ ts.size → f' ts' (pos + ρ.shift) = f ts pos)
    (hq : ∀ c, Persists ρ base limit (q c) (q' c) due) :
    Persists ρ base limit (Parser.look f >>= q) (Parser.look f' >>= q') due :=
  fun pos hbase h => .look (hf pos hbase h) (hq _ pos hbase h)

/-- Where something must be read after looking, the end of the excerpt is not looked at. -/
theorem lookInside {f f' : Terminals → Nat → γ} {q q' : γ → Parser β}
    (hf : ∀ pos, base ≤ pos → pos < ts.size → f' ts' (pos + ρ.shift) = f ts pos)
    (hq : ∀ c, Persists ρ base limit (q c) (q' c) fun _ => true) :
    Persists ρ base limit (Parser.look f >>= q) (Parser.look f' >>= q') due := by
  intro pos hbase h pos' b hb
  have hkept := hq (f ts pos) pos hbase h pos' b hb
  have hlt := hkept.lt rfl
  have hsize := hkept.size
  have hlook : Parser.look f' ts' (pos + ρ.shift) = .ok (f ts pos, pos + ρ.shift) := by
    rw [Parser.look, hf pos hbase (by omega)]
  refine ⟨hkept.le, hsize, fun _ => hlt, fun hlimit => ?_⟩
  rw [bind_of_ok hlook]
  exact hkept.same hlimit

theorem ifLook {f f' : Terminals → Nat → Bool}
    (hf : ∀ pos, base ≤ pos → pos ≤ ts.size → f' ts' (pos + ρ.shift) = f ts pos)
    (hp : ∀ pos, base ≤ pos → f ts pos = true → PersistsAt ρ limit pos p p' owed)
    (hr : Persists ρ base limit r r' owed) :
    Persists ρ base limit (Parser.look f >>= fun c => if c = true then p else r)
      (Parser.look f' >>= fun c => if c = true then p' else r') owed :=
  fun pos hbase h => .look (hf pos hbase h) (.ite (hp pos hbase) fun _ => hr pos hbase h)

theorem position {q q' : Nat → Parser β}
    (hq : ∀ start, base ≤ start → Persists ρ start limit (q start) (q' (start + ρ.shift)) due) :
    Persists ρ base limit (Parser.position >>= q) (Parser.position >>= q') due := by
  intro pos hbase h pos' b hb
  have hkept := hq pos hbase pos (Nat.le_refl _) h pos' b hb
  exact ⟨hkept.le, hkept.size, hkept.lt, hkept.same⟩

theorem spanFrom {start : Nat} {q q' : Span → Parser β} (hstart : start < base)
    (hq : ∀ span, Persists ρ base limit (q span) (q' span) due) :
    Persists ρ base limit (Parser.spanFrom start >>= q) (Parser.spanFrom (start + ρ.shift) >>= q') due :=
  .look (fun _ hbase h => ρ.span_eq (by omega) h) hq

theorem of_ne_ok (h : ∀ pos r, p ts pos ≠ .ok r) : Persists ρ base limit p p' owed :=
  fun pos _ _ _ _ hp => absurd hp (h pos _)

theorem failExpected {what : String} : Persists ρ base limit (Parser.failExpected what) p' owed :=
  of_ne_ok fun _ _ => failExpected_ne_ok

theorem failUnsupported : Persists ρ base limit Parser.failUnsupported p' owed :=
  of_ne_ok fun _ _ => failUnsupported_ne_ok

theorem failTooDeep : Persists ρ base limit Parser.failTooDeep p' owed :=
  of_ne_ok fun _ _ => failTooDeep_ne_ok

/-- The parser that the current terminal asks for, which fails where there is none. -/
theorem current {q q' : Option Token → Parser β}
    (hsome : ∀ pos t, base ≤ pos → ts.token? pos = some t →
      PersistsAt ρ limit pos (q (some t)) (q' (some t)) due)
    (hnone : ∀ pos r, q none ts pos ≠ .ok r) :
    Persists ρ base limit (Parser.current >>= q) (Parser.current >>= q') due := by
  intro pos hbase h
  cases ht : ts.token? pos with
  | none =>
    intro pos' b hb
    change q (ts.token? pos) ts pos = _ at hb
    rw [ht] at hb
    exact absurd hb (hnone pos _)
  | some t =>
    refine .look (ρ.token?_eq (token?_isSome (by rw [ht]; rfl))) ?_
    rw [ht]
    exact hsome pos t hbase ht

/-! ## Reading terminals -/

/-- The terminal that is skipped is there, for something comes after it. -/
theorem skip {q q' : Unit → Parser β} (hq : Persists ρ base limit (q ()) (q' ()) fun _ => true) :
    Persists ρ base limit (Parser.skip >>= q) (Parser.skip >>= q') due := by
  intro pos hbase h
  rcases Nat.lt_or_eq_of_le h with hlt | rfl
  · exact (skip_persistsAt hlt).then fun _ mid hmid hsize => hq.free mid (by omega) hsize
  · intro pos' b hb
    rw [bind_of_ok skip_at_end] at hb
    have hkept := hq ts.size hbase h pos' b hb
    have := hkept.lt rfl
    have := hkept.size
    omega

theorem skipTwo {q q' : Unit → Parser β} (hq : Persists ρ base limit (q ()) (q' ()) fun _ => true) :
    Persists ρ base limit (Parser.skipTwo >>= q) (Parser.skipTwo >>= q') due :=
  @Persists.skip _ _ _ _ _ _ _ (fun _ => Parser.skip >>= q) (fun _ => Parser.skip >>= q') (Persists.skip hq)

theorem skipInside (hlimit : limit < ts.size) {q q' : Unit → Parser β}
    (hq : Persists ρ base limit (q ()) (q' ()) fun _ => false) :
    Persists ρ base limit (Parser.skip >>= q) (Parser.skip >>= q') fun _ => false := by
  intro pos hbase h
  rcases Nat.lt_or_eq_of_le h with hlt | rfl
  · exact (skip_persistsAt hlt).then fun _ mid hmid hsize => hq mid (by omega) hsize
  · intro pos' b hb
    rw [bind_of_ok skip_at_end] at hb
    have hkept := hq ts.size hbase h pos' b hb
    have hle := hkept.le
    exact ⟨hle, hkept.size, nofun, fun _ => by omega⟩

/-- A condition that reads something where it holds. -/
theorem whether {c c' : Parser Bool} (hc : Persists ρ base limit c c' id)
    (hp : Persists ρ (base + 1) limit p p' fun _ => false) (hr : Persists ρ base limit r r' owed) :
    Persists ρ base limit (c >>= fun b => if b = true then p else r)
      (c' >>= fun b => if b = true then p' else r') owed := by
  refine fun pos hbase h => (hc pos hbase h).bind fun b mid hle hsize hlt => ?_
  cases b with
  | true =>
    have := hlt rfl
    exact hp mid (by omega) hsize
  | false => exact hr mid (by omega) hsize

end Persists

theorem conditional_persists {f : Terminals → Nat → Bool}
    (hf : ∀ pos, base ≤ pos → pos ≤ ts.size → f ts' (pos + ρ.shift) = f ts pos)
    (hlt : ∀ pos, f ts pos = true → pos < ts.size) :
    Persists ρ base limit (do
      if ← look f then
        skip
        pure true
      else pure false) (do
      if ← look f then
        skip
        pure true
      else pure false) id :=
  .ifLook hf (fun pos _ h => (skip_persistsAt (hlt pos h)).then fun _ => .pure rfl) (.pure rfl)

theorem required_persists {f : Terminals → Nat → Bool} {what : String} {owed : Unit → Bool}
    (hf : ∀ pos, pos < ts.size → f ts' (pos + ρ.shift) = f ts pos)
    (hlt : ∀ pos, f ts pos = true → pos < ts.size) :
    Persists ρ base limit (do if ← look f then skip else failExpected what)
      (do if ← look f then skip else failExpected what) owed := by
  intro pos hbase h
  by_cases hc : f ts pos = true
  · have hpos := hlt pos hc
    exact .look (hf pos hpos) (.ite (fun _ => skip_persistsAt hpos) fun hn => absurd hc hn)
  · intro pos' u hu
    change (if f ts pos = true then skip else failExpected what) ts pos = _ at hu
    rw [if_neg hc] at hu
    exact absurd hu failExpected_ne_ok

theorem consume_persists {kind : TokenKind} (hkind : kind ≠ .rightParen ∧ kind ≠ .identifier) :
    Persists ρ base limit (consume kind) (consume kind) id :=
  conditional_persists (fun _ _ h => ρ.isKind_eq h hkind) fun _ => isKind_lt

theorem consumeKeyword_persists (word : Keyword) :
    Persists ρ base limit (consumeKeyword word) (consumeKeyword word) id :=
  consume_persists (by simp)

theorem consumeWord_persists {word : String} (hgo : Text.sameIgnoringCase "GO".toList word.toList = false) :
    Persists ρ base limit (consumeWord word) (consumeWord word) id :=
  conditional_persists (fun _ _ h => ρ.isWord_eq h hgo) fun _ => isWord_lt

theorem expect_persists (kind : TokenKind) {owed : Unit → Bool} :
    Persists ρ base limit (expect kind) (expect kind) owed :=
  required_persists (fun _ h => ρ.isKind_inside h kind) fun _ => isKind_lt

theorem expectKeyword_persists (word : Keyword) {owed : Unit → Bool} :
    Persists ρ base limit (expectKeyword word) (expectKeyword word) owed :=
  expect_persists _

theorem expectWord_persists (word : String) {owed : Unit → Bool} :
    Persists ρ base limit (expectWord word) (expectWord word) owed :=
  required_persists (fun pos h => by rw [Terminals.isWord, Terminals.isWord, ρ.token?_eq h]) fun _ => isWord_lt

theorem expectEither_persists {first : String} (second : String) {owed : Unit → Bool}
    (hgo : Text.sameIgnoringCase "GO".toList first.toList = false) :
    Persists ρ base limit (expectEither first second) (expectEither first second) owed :=
  .whether (consumeWord_persists hgo) (.pure rfl) (expectWord_persists second)

/-! ## Two terminals -/

theorem and_eq_and {a a' b b' : Bool} (ha : a' = a) (hb : a = true → b' = b) : (a' && b') = (a && b) := by
  subst ha
  cases a' <;> simp_all

theorem nextIs_eq (h : pos < ts.size) {kind : TokenKind} (hkind : kind ≠ .rightParen ∧ kind ≠ .identifier) :
    ts'.isKind (pos + ρ.shift + 1) kind = ts.isKind (pos + 1) kind := by
  rw [Nat.add_right_comm]
  exact ρ.isKind_eq h hkind

theorem nextIsKeyword_eq (h : pos < ts.size) (word : Keyword) :
    ts'.isKeyword (pos + ρ.shift + 1) word = ts.isKeyword (pos + 1) word :=
  nextIs_eq h (by simp)

theorem nextIsWord_eq (h : pos < ts.size) {word : String}
    (hgo : Text.sameIgnoringCase "GO".toList word.toList = false) :
    ts'.isWord (pos + ρ.shift + 1) word = ts.isWord (pos + 1) word := by
  rw [Nat.add_right_comm]
  exact ρ.isWord_eq h hgo

/-- Of two terminals the first keeps the end of the excerpt at a distance. -/
theorem pair_eq {first second : TokenKind} (hfirst : first ≠ .rightParen ∧ first ≠ .identifier)
    (hsecond : second ≠ .rightParen ∧ second ≠ .identifier) (h : pos ≤ ts.size) :
    (ts'.isKind (pos + ρ.shift) first && ts'.isKind (pos + ρ.shift + 1) second) =
      (ts.isKind pos first && ts.isKind (pos + 1) second) :=
  and_eq_and (ρ.isKind_eq h hfirst) fun hkind => nextIs_eq (isKind_lt hkind) hsecond

theorem keywordWord_eq (h : pos ≤ ts.size) (first : Keyword) {second : String}
    (hgo : Text.sameIgnoringCase "GO".toList second.toList = false) :
    (ts'.isKeyword (pos + ρ.shift) first && ts'.isWord (pos + ρ.shift + 1) second) =
      (ts.isKeyword pos first && ts.isWord (pos + 1) second) :=
  and_eq_and (ρ.isKeyword_eq h first) fun hkind => nextIsWord_eq (isKind_lt hkind) hgo

theorem wordKeyword_eq (h : pos ≤ ts.size) {first : String} (second : Keyword)
    (hgo : Text.sameIgnoringCase "GO".toList first.toList = false) :
    (ts'.isWord (pos + ρ.shift) first && ts'.isKeyword (pos + ρ.shift + 1) second) =
      (ts.isWord pos first && ts.isKeyword (pos + 1) second) :=
  and_eq_and (ρ.isWord_eq h hgo) fun hword => nextIsKeyword_eq (isWord_lt hword) second

theorem consumePair_persists {first second : TokenKind} (hfirst : first ≠ .rightParen ∧ first ≠ .identifier)
    (hsecond : second ≠ .rightParen ∧ second ≠ .identifier) :
    Persists ρ base limit (consumePair first second) (consumePair first second) id :=
  .ifLook (fun _ _ h => pair_eq hfirst hsecond h)
    (fun _ _ h => (skipTwo_persistsAt (pair_lt h)).then fun _ => .pure rfl) (.pure rfl)

/-! ## Options -/

namespace Persists

theorem spanned {make : κ → Span → α} {p p' : Parser κ} (hp : Persists ρ base limit p p' fun _ => true) :
    Persists ρ base limit (Parser.spanned make p) (Parser.spanned make p') owed := by
  intro start hbase h pos' a ha
  obtain ⟨k, hk, rfl⟩ := spanned_ok ha
  have hkept := hp start hbase h pos' k hk
  have hlt := hkept.lt rfl
  refine ⟨hkept.le, hkept.size, fun _ => hlt, fun hlimit => ?_⟩
  rw [spanned_of_ok (hkept.same hlimit), ρ.span_eq hlt hkept.size]

theorem optionIf {c c' : Parser Bool} {due : Option α → Bool} (hc : Persists ρ base limit c c' id)
    (hp : Persists ρ (base + 1) limit p p' fun _ => false) (hnone : due none = false) :
    Persists ρ base limit (Parser.optionIf c p) (Parser.optionIf c' p') due :=
  .whether hc (hp.bind fun _ => .pure rfl) (.pure hnone)

theorem optionPure {b : Bool} {due : Option α → Bool} (hp : Persists ρ base limit p p' fun _ => true)
    (hnone : due none = false) :
    Persists ρ base limit (Parser.optionIf (Pure.pure b) p) (Parser.optionIf (Pure.pure b) p') due := by
  change Persists ρ base limit (if b = true then p >>= fun a => Pure.pure (some a) else Pure.pure none)
    (if b = true then p' >>= fun a => Pure.pure (some a) else Pure.pure none) due
  exact .ite (hp.then fun _ => .pure rfl) (.pure hnone)

theorem optionLook {f : Terminals → Nat → Bool} {due : Option α → Bool}
    (hf : ∀ pos, base ≤ pos → pos ≤ ts.size → f ts' (pos + ρ.shift) = f ts pos)
    (hp : Persists ρ base limit p p' fun _ => true) (hnone : due none = false) :
    Persists ρ base limit (Parser.optionIf (Parser.look f) p) (Parser.optionIf (Parser.look f) p') due :=
  .look hf fun _ => .ite (hp.then fun _ => .pure rfl) (.pure hnone)

theorem listIf {c c' : Parser Bool} {p p' : Parser (List α)} (hc : Persists ρ base limit c c' id)
    (hp : Persists ρ (base + 1) limit p p' fun _ => false) :
    Persists ρ base limit (Parser.listIf c p) (Parser.listIf c' p') fun _ => false :=
  .whether hc hp (.pure rfl)

theorem listPure {b : Bool} {p p' : Parser (List α)} (hp : Persists ρ base limit p p' fun _ => false) :
    Persists ρ base limit (Parser.listIf (Pure.pure b) p) (Parser.listIf (Pure.pure b) p') fun _ => false := by
  change Persists ρ base limit (if b = true then p else Pure.pure []) (if b = true then p' else Pure.pure []) _
  exact .ite hp (.pure rfl)

theorem listLook {f : Terminals → Nat → Bool} {p p' : Parser (List α)}
    (hf : ∀ pos, base ≤ pos → pos ≤ ts.size → f ts' (pos + ρ.shift) = f ts pos)
    (hp : Persists ρ base limit p p' fun _ => false) :
    Persists ρ base limit (Parser.listIf (Parser.look f) p) (Parser.listIf (Parser.look f) p') fun _ => false :=
  .look hf fun _ => .ite hp (.pure rfl)

/-! ## Repetition -/

/-- Induction on the rounds of the excerpt, each of which reads something and keeps the invariant `I`, so
that they do not end for want of rounds. The whole allows at least as many. -/
theorem rounds {step step' : σ → Parser (Option σ)} {I : σ → Nat → Prop}
    (hstep : ∀ s pos, base ≤ pos → pos ≤ ts.size → I s pos →
      PersistsAt ρ limit pos (step s) (step' s) Option.isSome)
    (hkeep : ∀ s s' pos mid, I s pos → step s ts pos = .ok (some s', mid) → I s' mid) :
    ∀ (n n' : Nat) (s : σ) (pos : Nat), ts.size - pos < n → n ≤ n' → base ≤ pos →
      pos ≤ ts.size → I s pos →
      PersistsAt ρ limit pos (Parser.rounds step n s) (Parser.rounds step' n' s) fun _ => false
  | 0, _, _, _, hn, _, _, _, _ => by omega
  | n + 1, 0, _, _, _, hn', _, _, _ => by omega
  | n + 1, n' + 1, s, pos, hn, hn', hbase, h, hs => by
    intro pos' b hb
    unfold Parser.rounds at *
    split at hb
    · cases hb
    · rename_i mid hround
      cases hb
      have hkept := hstep s pos hbase h hs _ _ hround
      refine ⟨hkept.le, hkept.size, nofun, fun hlimit => ?_⟩
      simp only [hkept.same hlimit]
    · rename_i s' mid hround
      have first := hstep s pos hbase h hs _ _ hround
      -- the round has moved on, so the fuel left over covers the terminals left over
      have hlt := first.lt rfl
      have hmid := first.size
      have hs' := hkeep s s' pos mid hs hround
      have second := rounds hstep hkeep n n' s' mid (by omega) (by omega) (by omega) hmid hs' pos' b hb
      have hle := second.le
      refine ⟨by omega, second.size, nofun, fun hlimit => ?_⟩
      simp only [first.same (by omega)]
      exact second.same hlimit

theorem iterateWith {step step' : σ → Parser (Option σ)} {I : σ → Nat → Prop}
    (hstep : ∀ s pos, base ≤ pos → pos ≤ ts.size → I s pos →
      PersistsAt ρ limit pos (step s) (step' s) Option.isSome)
    (hkeep : ∀ s s' pos mid, I s pos → step s ts pos = .ok (some s', mid) → I s' mid) {s : σ}
    (hs : ∀ pos, I s pos) :
    Persists ρ base limit (Parser.iterate step s) (Parser.iterate step' s) fun _ => false := by
  intro pos hbase h pos' b hb
  have hleft := ρ.left_le pos
  have hkept := rounds hstep hkeep _ (ts'.size - (pos + ρ.shift) + 1) s pos (Nat.lt_succ_self _) (by omega) hbase h
    (hs pos) pos' b hb
  exact ⟨hkept.le, hkept.size, nofun, hkept.same⟩

theorem iterate {step step' : σ → Parser (Option σ)}
    (hstep : ∀ s, Persists ρ base limit (step s) (step' s) Option.isSome) (s : σ) :
    Persists ρ base limit (Parser.iterate step s) (Parser.iterate step' s) fun _ => false :=
  iterateWith (I := fun _ _ => True) (fun s pos hbase h _ => hstep s pos hbase h) (fun _ _ _ _ _ _ => trivial)
    fun _ => trivial

theorem many {item item' : Parser (Option α)} (hitem : Persists ρ base limit item item' Option.isSome) :
    Persists ρ base limit (Parser.many item) (Parser.many item') fun _ => false := by
  refine (iterate (fun found pos hbase h => ?_) []).bind fun found => .pure rfl
  refine (hitem pos hbase h).bind fun a? mid _ hsize _ => ?_
  cases a? with
  | none => exact .pure hsize rfl
  | some a => exact .pure hsize rfl

theorem repeatWhile {step step' : Parser Bool} (hstep : Persists ρ base limit step step' id) :
    Persists ρ base limit (Parser.repeatWhile step) (Parser.repeatWhile step') fun _ => false :=
  iterate (fun _ => .whether hstep (.pure rfl) (.pure rfl)) ()

theorem commaSeparated {item item' : Parser α} {owed : List α → Bool}
    (hitem : ∀ base, Persists ρ base limit item item' fun _ => true) :
    Persists ρ base limit (Parser.commaSeparated item) (Parser.commaSeparated item') owed := by
  refine (hitem base).then fun first => (many ?_).bind fun rest => .pure rfl
  exact .optionIf (consume_persists (by decide)) (hitem _).free rfl

theorem leftChain {operand operand' : Parser α} {operator operator' : Parser (Option β)}
    {make : β → α → α → Span → α}
    (hoperand : ∀ base, Persists ρ base limit operand operand' fun _ => true)
    (hoperator : ∀ base, Persists ρ base limit operator operator' fun _ => false) :
    Persists ρ base limit (Parser.leftChain operand operator make) (Parser.leftChain operand' operator' make)
      owed := by
  refine .position fun start _ => (hoperand start).then fun first => iterate (fun left => ?_) first
  refine (hoperator _).bind fun op? => ?_
  cases op? with
  | none => exact .pure rfl
  | some op => exact (hoperand _).then fun right => .spanFrom (by omega) fun span => .pure rfl

end Persists

/-! ## Skipping -/

/-- Where there is a terminal to take, it is the same. -/
theorem PersistsAt.take {q q' : Option Token → Parser β} {t : Token} (ht : ts.token? pos = some t)
    (hq : PersistsAt ρ limit (pos + 1) (q (some t)) (q' (some t)) fun _ => false) :
    PersistsAt ρ limit pos (Parser.take >>= q) (Parser.take >>= q') due := by
  have hlt := token?_isSome (by rw [ht]; rfl)
  intro pos' b hb
  rw [bind_of_ok (take_of_some ht)] at hb
  have hkept := hq pos' b hb
  have hle := hkept.le
  refine ⟨by omega, hkept.size, fun _ => by omega, fun hlimit => ?_⟩
  rw [bind_of_ok (take_of_some (by rw [ρ.token?_eq hlt, ht])), Nat.add_right_comm]
  exact hkept.same hlimit

section
variable {stop : Terminals → Nat → Bool}

def skipRound (stop : Terminals → Nat → Bool) (depth : Nat) : Parser (Option Nat) := do
  if ← look fun ts pos => depth == 0 && stop ts pos then pure none
  else
    match ← take with
    | some t => pure (some (parenDepth depth t.kind))
    | none => pure none

theorem skipUntil_eq : skipUntil stop = iterate (skipRound stop) 0 >>= fun _ => pure () := rfl

theorem skipRound_ok {depth next pos' : Nat} (h : skipRound stop depth ts pos = .ok (some next, pos')) :
    ∃ t, ts.token? pos = some t ∧ next = parenDepth depth t.kind ∧ pos' = pos + 1 := by
  obtain ⟨c, mid, hc, h⟩ := bind_ok h
  cases hc
  split at h
  · cases h
  · obtain ⟨t?, mid, htake, h⟩ := bind_ok h
    cases ht : ts.token? pos with
    | none =>
      cases htake
      simp only [ht] at h
      cases h
    | some t =>
      cases htake.symm.trans (take_of_some ht)
      cases h
      exact ⟨t, rfl, rfl, rfl⟩

theorem skipRound_persistsAt (depth : Nat) (h : pos < ts.size) (hstop : stop ts' (pos + ρ.shift) = stop ts pos) :
    PersistsAt ρ limit pos (skipRound stop depth) (skipRound stop depth) Option.isSome := by
  refine .look (congrArg _ hstop) (.ite (fun _ => .pure (Nat.le_of_lt h) rfl) fun _ => ?_)
  obtain ⟨t, ht⟩ : ∃ t, ts.token? pos = some t := by simp [Terminals.token?, h]
  exact .take ht (.pure h rfl)

theorem skipRound_at_end {depth pos' : Nat} {next : Option Nat}
    (h : skipRound stop depth ts ts.size = .ok (next, pos')) : next = none ∧ pos' = ts.size := by
  obtain ⟨c, mid, hc, h⟩ := bind_ok h
  cases hc
  split at h
  · cases h
    exact ⟨rfl, rfl⟩
  · rw [bind_of_ok take_at_end] at h
    cases h
    exact ⟨rfl, rfl⟩

/-- Skipping that ends before the end of the excerpt. -/
theorem skipUntil_persists (hlimit : limit < ts.size)
    (hstop : ∀ pos, base ≤ pos → pos < ts.size → stop ts' (pos + ρ.shift) = stop ts pos) :
    Persists ρ base limit (skipUntil stop) (skipUntil stop) fun _ => false := by
  rw [skipUntil_eq]
  refine (Persists.iterate (fun depth pos hbase h => ?_) 0).bind fun _ => .pure rfl
  rcases Nat.lt_or_eq_of_le h with hlt | rfl
  · exact skipRound_persistsAt depth hlt (hstop pos hbase hlt)
  · intro pos' next hnext
    obtain ⟨rfl, rfl⟩ := skipRound_at_end hnext
    exact ⟨h, h, nofun, fun _ => by omega⟩

end

theorem skipParenthesized_persists {owed : Unit → Bool} :
    Persists ρ base limit skipParenthesized skipParenthesized owed := by
  refine (expect_persists _).then fun _ => (Persists.iterate (fun depth pos _ h => ?_) 1).bind fun _ => .pure rfl
  refine .ite (fun _ => .pure h rfl) fun _ => ?_
  rcases Nat.lt_or_eq_of_le h with hlt | rfl
  · obtain ⟨t, ht⟩ : ∃ t, ts.token? pos = some t := by simp [Terminals.token?, hlt]
    exact .take ht (.pure hlt rfl)
  · intro pos' b hb
    rw [bind_of_ok take_at_end] at hb
    exact absurd hb failExpected_ne_ok

end

end Parser

end TransactLint
