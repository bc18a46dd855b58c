import TransactLint.Grammar.Parser
import TransactLint.Proofs.Layout

/-!
# Layout of what a parser reads

`Lays` says of a parser which nodes stand in what has been read once it is done. Its rules follow the
combinators, so that the layout of each production is read off its parts.
-/

namespace TransactLint

namespace Parser

variable {α β σ κ : Type}

/-- Where `L` describes what has been read since `start`, `out a` does so once `p` has given `a`. -/
def Lays (ts : Terminals) (start : Nat) (L : Layout) (p : Parser α) (out : α → Layout) : Prop :=
  ∀ pos pos' a, L.Fits ts start pos → p ts pos = .ok (a, pos') → (out a).Fits ts start pos'

def Reads (ts : Terminals) (p : Parser α) (out : α → Layout) : Prop := ∀ start, Lays ts start .none p out

section
variable {ts : Terminals} {start : Nat} {K L : Layout} {p : Parser α} {q : α → Parser β}
  {f : α → Layout} {g : β → Layout}

theorem bind_of_ok {pos mid : Nat} {a : α} (h : p ts pos = .ok (a, mid)) : (p >>= q) ts pos = q a ts mid := by
  simp only [Bind.bind, h]

theorem bind_of_error {pos : Nat} {e : ParseError} (h : p ts pos = .error e) : (p >>= q) ts pos = .error e := by
  simp only [Bind.bind, h]

theorem bind_ok {pos pos' : Nat} {b : β} (h : (p >>= q) ts pos = .ok (b, pos')) :
    ∃ a mid, p ts pos = .ok (a, mid) ∧ q a ts mid = .ok (b, pos') := by
  cases hp : p ts pos with
  | error e =>
    rw [bind_of_error hp] at h
    cases h
  | ok r =>
    rw [bind_of_ok hp] at h
    exact ⟨r.1, r.2, rfl, h⟩

theorem Lays.bind (hp : Lays ts start L p f) (hq : ∀ a, Lays ts start (f a) (q a) g) :
    Lays ts start L (p >>= q) g := by
  intro pos pos' b hL h
  obtain ⟨a, mid, ha, hb⟩ := bind_ok h
  exact hq a _ _ _ (hp _ _ _ hL ha) hb

theorem Lays.entails (hp : Lays ts start L p f) (hKL : K.Entails L) {f' : α → Layout}
    (hf : ∀ a, (f a).Entails (f' a)) : Lays ts start K p f' :=
  fun pos pos' a hK h => (hp pos pos' a (hK.entails hKL) h).entails (hf a)

theorem Lays.weaken (hKL : K.Entails L) (hp : Lays ts start L p f) : Lays ts start K p f :=
  hp.entails hKL fun _ => .refl _

/-- What was there before `p` stays, and what `p` reads comes after it. -/
theorem Reads.lays (hp : Reads ts p f) : Lays ts start L p fun a => L ++ f a := by
  intro pos pos' a hL h
  exact hL.append (hp pos _ _ _ (.none (Nat.le_refl _) hL.le.2) h)

theorem Reads.then (hp : Reads ts p f) (hq : ∀ a, Lays ts start (L ++ f a) (q a) g) :
    Lays ts start L (p >>= q) g :=
  hp.lays.bind hq

theorem Reads.entails (hp : Reads ts p f) {f' : α → Layout} (hf : ∀ a, (f a).Entails (f' a)) :
    Reads ts p f' :=
  fun start => (hp start).entails (.refl _) hf

theorem Lays.pure {a : α} (h : L.Entails (f a)) : Lays ts start L (Pure.pure a) f := by
  intro pos pos' b hL hp
  cases hp
  exact hL.entails h

theorem Lays.map {h : α → β} (hp : Lays ts start L p fun a => g (h a)) : Lays ts start L (h <$> p) g :=
  hp.bind fun _ => .pure (.refl _)

theorem Reads.map {h : α → β} (hp : Reads ts p fun a => g (h a)) : Reads ts (h <$> p) g :=
  fun start => (hp start).map

theorem Lays.ite {c : Prop} [Decidable c] {p p' : Parser α} (hp : c → Lays ts start L p f)
    (hp' : ¬ c → Lays ts start L p' f) : Lays ts start L (if c then p else p') f := by
  split
  · rename_i h; exact hp h
  · rename_i h; exact hp' h

theorem Reads.ite {c : Prop} [Decidable c] {p p' : Parser α} (hp : Reads ts p f)
    (hp' : Reads ts p' f) : Reads ts (if c then p else p') f :=
  fun start => .ite (fun _ => hp start) (fun _ => hp' start)

/-- In place of a node its parts may be looked at. -/
theorem Lays.parts {n : Node} (hp : Lays ts start ⟨true, n.parts⟩ p f) : Lays ts start (.node n) p f :=
  fun pos pos' a hn h => hp pos pos' a hn.parts h

theorem Lays.wrap {m n : Node} (hspan : n.span = m.span) (hparts : n.parts = [m])
    (hp : Lays ts start (.node n) p f) : Lays ts start (.node m) p f :=
  fun pos pos' a hm h => hp pos pos' a (hm.wrap hspan hparts) h

/-! ## Looking and failing -/

theorem Lays.look {v : Terminals → Nat → α} (hq : ∀ a, Lays ts start L (q a) g) :
    Lays ts start L (look v >>= q) g := by
  intro pos pos' b hL h
  obtain ⟨a, mid, ha, hb⟩ := bind_ok h
  cases ha
  exact hq _ _ _ _ hL hb

theorem Reads.look {v : Terminals → Nat → α} : Reads ts (look v) fun _ => .none := by
  intro start pos pos' a hL h
  cases h
  exact hL

theorem failExpected_ne_ok {what : String} {pos : Nat} {r : α × Nat} :
    Parser.failExpected what ts pos ≠ .ok r := by
  unfold Parser.failExpected
  split <;> exact nofun

theorem Lays.failExpected {what : String} : Lays ts start L (failExpected what) f :=
  fun _ _ _ _ h => absurd h failExpected_ne_ok

theorem Reads.failExpected {what : String} : Reads ts (failExpected what) f :=
  fun _ => Lays.failExpected

theorem failUnsupported_ne_ok {pos : Nat} {r : α × Nat} : Parser.failUnsupported ts pos ≠ .ok r := by
  unfold Parser.failUnsupported
  split <;> exact nofun

theorem Lays.failUnsupported : Lays ts start L failUnsupported f :=
  fun _ _ _ _ h => absurd h failUnsupported_ne_ok

theorem Reads.failUnsupported : Reads ts failUnsupported f :=
  fun _ => Lays.failUnsupported

theorem failTooDeep_ne_ok {pos : Nat} {r : α × Nat} : Parser.failTooDeep ts pos ≠ .ok r := by
  unfold Parser.failTooDeep
  split <;> exact nofun

theorem Reads.failTooDeep : Reads ts failTooDeep f :=
  fun _ _ _ _ _ h => absurd h failTooDeep_ne_ok

/-! ## Reading terminals -/

theorem token?_isSome {ts : Terminals} {pos : Nat} (h : (ts.token? pos).isSome) : pos < ts.size := by
  unfold Terminals.token? at h
  simpa using h

theorem isKind_lt {ts : Terminals} {pos : Nat} {kind : TokenKind} (h : ts.isKind pos kind = true) :
    pos < ts.size := by
  unfold Terminals.isKind at h
  split at h
  · rename_i t ht
    exact token?_isSome (by rw [ht]; rfl)
  · cases h

theorem isWord_lt {ts : Terminals} {pos : Nat} {word : String} (h : ts.isWord pos word = true) :
    pos < ts.size := by
  unfold Terminals.isWord at h
  split at h
  · rename_i t ht
    exact token?_isSome (by rw [ht]; rfl)
  · cases h

theorem skip_reads : Reads ts skip fun _ => .none := by
  intro start pos pos' a hL h
  cases h
  have := hL.le
  split <;> exact .none (by omega) (by omega)

/-- Where there is a terminal, it is read. -/
theorem skip_moves {pos pos' : Nat} {u : Unit} (hL : L.Fits ts start pos) (hpos : pos < ts.size)
    (h : skip ts pos = .ok (u, pos')) : (L ++ .read).Fits ts start pos' := by
  cases h
  rw [if_pos hpos]
  exact hL.append (.read (Nat.lt_succ_self pos) hpos)

theorem skipTwo_reads : Reads ts skipTwo fun _ => .none :=
  fun _ => skip_reads.then fun _ => skip_reads.lays.entails (.refl _) fun _ => .of_eq rfl id

/-- A condition that holds only where there is a terminal, which is then read. -/
theorem conditional_reads {v : Terminals → Nat → Bool} (hv : ∀ pos, v ts pos = true → pos < ts.size) :
    Reads ts (do
      if ← look v then
        skip
        pure true
      else pure false) fun b => ⟨b, []⟩ := by
  intro start pos pos' b hL h
  obtain ⟨c, mid, hc, h⟩ := bind_ok h
  cases hc
  split at h
  · rename_i hc
    obtain ⟨u, mid, hs, h⟩ := bind_ok h
    cases h
    exact (skip_moves hL (hv pos hc) hs).entails (.of_eq rfl id)
  · cases h
    exact hL

theorem required_reads {v : Terminals → Nat → Bool} {what : String}
    (hv : ∀ pos, v ts pos = true → pos < ts.size) :
    Reads ts (do if ← look v then skip else Parser.failExpected what) fun _ => .read := by
  intro start pos pos' b hL h
  obtain ⟨c, mid, hc, h⟩ := bind_ok h
  cases hc
  split at h
  · rename_i hc
    exact skip_moves hL (hv pos hc) h
  · exact Lays.failExpected (f := fun _ => .read) _ _ _ hL h

theorem consume_reads (kind : TokenKind) : Reads ts (consume kind) fun b => ⟨b, []⟩ :=
  conditional_reads fun _ => isKind_lt

theorem consumeKeyword_reads (word : Keyword) : Reads ts (consumeKeyword word) fun b => ⟨b, []⟩ :=
  consume_reads _

theorem consumeWord_reads (word : String) : Reads ts (consumeWord word) fun b => ⟨b, []⟩ :=
  conditional_reads fun _ => isWord_lt

theorem consumePair_reads (first second : TokenKind) :
    Reads ts (consumePair first second) fun _ => .none :=
  fun _ => .look fun _ => .ite (fun _ => skipTwo_reads.then fun _ => .pure (.refl _)) fun _ => .pure (.refl _)

theorem expect_reads (kind : TokenKind) : Reads ts (expect kind) fun _ => .read :=
  required_reads fun _ => isKind_lt

theorem expectKeyword_reads (word : Keyword) : Reads ts (expectKeyword word) fun _ => .read :=
  expect_reads _

theorem expectWord_reads (word : String) : Reads ts (expectWord word) fun _ => .read :=
  required_reads fun _ => isWord_lt

theorem expectEither_reads (first second : String) : Reads ts (expectEither first second) fun _ => .read := by
  intro start
  refine (consumeWord_reads first).then fun b => .ite (fun hb => ?_) fun _ => ?_
  · exact .pure (.of_eq rfl (by simp [hb]))
  · exact (expectWord_reads second).lays.entails (.refl _) fun _ => .of_eq rfl (by simp)

theorem take_reads : Reads ts take fun t? => ⟨t?.isSome, []⟩ := by
  intro start pos pos' t? hL h
  obtain ⟨c, mid, hc, h⟩ := bind_ok h
  cases hc
  obtain ⟨u, mid, hs, h⟩ := bind_ok h
  cases h
  by_cases hpos : (ts.token? pos).isSome
  · exact (skip_moves hL (token?_isSome hpos) hs).entails (.of_eq rfl (by simp))
  · exact (skip_reads _ _ _ _ hL hs).entails (.of_eq rfl fun h => absurd h hpos)

/-! ## At a terminal -/

def ReadsHere (ts : Terminals) (p : Parser α) (out : α → Layout) : Prop :=
  ∀ start pos pos' a, Layout.none.Fits ts start pos → pos < ts.size → p ts pos = .ok (a, pos') →
    (out a).Fits ts start pos'

theorem Reads.here (hp : Reads ts p f) : ReadsHere ts p f :=
  fun start pos pos' a hL _ h => hp start pos pos' a hL h

theorem ReadsHere.skip {q : Unit → Parser β} (hq : ∀ start, Lays ts start .read (q ()) g) :
    ReadsHere ts (Parser.skip >>= q) g := by
  intro start pos pos' a hL hpos h
  obtain ⟨u, mid, hs, h⟩ := bind_ok h
  exact hq start _ _ _ (skip_moves hL hpos hs) h

theorem ReadsHere.skipTwo {q : Unit → Parser β} (hq : ∀ start, Lays ts start .read (q ()) g) :
    ReadsHere ts (Parser.skipTwo >>= q) g := by
  intro start pos pos' a hL hpos h
  obtain ⟨u, mid, hs, h⟩ := bind_ok h
  have htwo : ReadsHere ts Parser.skipTwo fun _ => .read :=
    .skip fun _ => skip_reads.lays.entails (.refl _) fun _ => .of_eq rfl id
  exact hq start _ _ _ (htwo _ _ _ _ hL hpos hs) h

theorem ReadsHere.look {v : Terminals → Nat → α} (hq : ∀ a, ReadsHere ts (q a) g) :
    ReadsHere ts (Parser.look v >>= q) g := by
  intro start pos pos' a hL hpos h
  obtain ⟨b, mid, hb, h⟩ := bind_ok h
  cases hb
  exact hq _ _ _ _ _ hL hpos h

theorem ReadsHere.ite {c : Prop} [Decidable c] {p p' : Parser α} (hp : ReadsHere ts p f)
    (hp' : ReadsHere ts p' f) : ReadsHere ts (if c then p else p') f := by
  split
  · exact hp
  · exact hp'

/-- Behind the first terminal, what `p` reads is described by `out`. -/
def Opens (ts : Terminals) (p : Parser α) (out : α → Layout) : Prop :=
  ∀ start pos pos' a, start ≤ pos + 1 → pos < ts.size → p ts pos = .ok (a, pos') →
    (out a).Fits ts start pos'

theorem Opens.here (hp : Opens ts p f) : ReadsHere ts p f :=
  fun start pos pos' a hL hpos h => hp start pos pos' a (Nat.le_succ_of_le hL.le.1) hpos h

theorem Opens.entails (hp : Opens ts p f) {f' : α → Layout} (hf : ∀ a, (f a).Entails (f' a)) : Opens ts p f' :=
  fun start pos pos' a hstart hpos h => (hp start pos pos' a hstart hpos h).entails (hf a)

theorem Opens.look {v : Terminals → Nat → α} (hq : ∀ a, Opens ts (q a) g) :
    Opens ts (Parser.look v >>= q) g :=
  fun start pos pos' a hstart hpos h => hq _ start pos pos' a hstart hpos h

theorem Opens.ite {c : Prop} [Decidable c] {p p' : Parser α} (hp : Opens ts p f) (hp' : Opens ts p' f) :
    Opens ts (if c then p else p') f := by
  split
  · exact hp
  · exact hp'

theorem Opens.failExpected {what : String} : Opens ts (Parser.failExpected what) f :=
  fun _ _ _ _ _ _ h => absurd h failExpected_ne_ok

/-- What has been read first takes the first terminal with it. -/
theorem Reads.opens (hp : Reads ts p f) (hmoved : ∀ a, (f a).moved = true) (hq : ∀ a, Reads ts (q a) g) :
    Opens ts (p >>= q) g := by
  intro start pos pos' b hstart hpos h
  obtain ⟨a, mid, ha, h⟩ := bind_ok h
  have hfits := hp pos pos mid a (.none (Nat.le_refl pos) (Nat.le_of_lt hpos)) ha
  have hmid : pos < mid := hfits.lt (hmoved a)
  exact hq a start mid pos' b (.none (by omega) hfits.le.2) h

theorem Opens.skip {q : Unit → Parser β} (hq : Reads ts (q ()) g) : Opens ts (Parser.skip >>= q) g := by
  intro start pos pos' a hstart hpos h
  obtain ⟨u, mid, hs, h⟩ := bind_ok h
  cases hs
  rw [if_pos hpos] at h
  exact hq start _ _ _ (.none hstart hpos) h

theorem Opens.expect {kind : TokenKind} {q : Unit → Parser β} (hq : Reads ts (q ()) g) :
    Opens ts (Parser.expect kind >>= q) g := by
  intro start pos pos' a hstart hpos h
  obtain ⟨u, mid, he, h⟩ := bind_ok h
  obtain ⟨c, _, hc, he⟩ := bind_ok he
  cases hc
  split at he
  · cases he
    rw [if_pos hpos] at h
    exact hq start _ _ _ (.none hstart hpos) h
  · exact absurd he failExpected_ne_ok

theorem Reads.current {q : Option Token → Parser β} (hsome : ∀ t, ReadsHere ts (q (some t)) g)
    (hnone : Reads ts (q none) g) : Reads ts (Parser.current >>= q) g := by
  intro start pos pos' a hL h
  obtain ⟨t?, mid, ht, h⟩ := bind_ok h
  cases ht
  replace h : q (ts.token? pos) ts pos = .ok (a, pos') := h
  cases ht : ts.token? pos with
  | none =>
    rw [ht] at h
    exact hnone start _ _ _ hL h
  | some t =>
    rw [ht] at h
    exact hsome t start _ _ _ hL (token?_isSome (by rw [ht]; rfl)) h

/-! ## Spans -/

/-- A node made of all that has been read since `start`, which may be a part of the result. -/
theorem Lays.closeAs {make : Span → α} (n : Span → Node) (hspan : ∀ s, (n s).span = s)
    (hparts : ∀ s, L.Entails ⟨true, (n s).constituents⟩)
    (hout : ∀ s, (Layout.node (n s)).Entails (f (make s))) :
    Lays ts start L (spanFrom start >>= fun span => Pure.pure (make span)) f := by
  intro pos pos' a hL h
  obtain ⟨s, mid, hs, h⟩ := bind_ok h
  cases hs
  cases h
  exact (Layout.Stands.fits (hL.stands (hparts _) (hspan _)) hL.le.2).entails (hout _)

theorem Lays.close {make : Span → α} {n : α → Node} (hspan : ∀ s, (n (make s)).span = s)
    (hparts : ∀ s, L.Entails ⟨true, (n (make s)).constituents⟩) :
    Lays ts start L (spanFrom start >>= fun span => Pure.pure (make span)) fun a => .node (n a) :=
  .closeAs (fun s => n (make s)) hspan hparts fun _ => .refl _

/-- The position is where the next node begins. -/
theorem Reads.position {q : Nat → Parser β} (hq : ∀ start, Lays ts start .none (q start) g) :
    Reads ts (position >>= q) g := by
  intro start pos pos' b hL h
  obtain ⟨s, mid, hs, h⟩ := bind_ok h
  cases hs
  have hle := hL.le
  exact (hq pos _ _ _ (.none (Nat.le_refl _) hle.2) h).widen hle.1

/-- What `spanned` gives stands where it was read. -/
theorem Reads.stands_spanned {make : κ → Span → α} {p : Parser κ} {n : α → Node} {f : κ → Layout}
    (hp : Reads ts p f) (hspan : ∀ k s, (n (make k s)).span = s)
    (hparts : ∀ k s, (f k).Entails ⟨true, (n (make k s)).constituents⟩) {pos pos' : Nat} {a : α}
    (hpos : pos ≤ ts.size)
    (h : Parser.spanned make p ts pos = .ok (a, pos')) : Stands ts (n a) pos pos' ∧ pos' ≤ ts.size := by
  unfold Parser.spanned at h
  split at h
  · cases h
  · rename_i k mid hk
    cases h
    have hfits := hp pos _ _ _ (.none (Nat.le_refl _) hpos) hk
    exact ⟨hfits.stands (hparts k _) (hspan k _), hfits.le.2⟩

theorem Reads.spanned {make : κ → Span → α} {p : Parser κ} {n : α → Node} {f : κ → Layout}
    (hp : Reads ts p f) (hspan : ∀ k s, (n (make k s)).span = s)
    (hparts : ∀ k s, (f k).Entails ⟨true, (n (make k s)).constituents⟩) :
    Reads ts (spanned make p) fun a => .node (n a) := by
  intro start pos pos' a hL h
  have hle := hL.le
  obtain ⟨hstands, hsize⟩ := hp.stands_spanned hspan hparts hle.2 h
  exact (Layout.Stands.fits hstands hsize).widen hle.1

/-! ## Options and repetition -/

theorem Reads.optionIf {condition : Parser Bool} {m : Bool → Bool} {ns : α → List Node}
    (hc : Reads ts condition fun b => ⟨m b, []⟩) (hp : Reads ts p fun a => .ofNodes (ns a)) :
    Reads ts (Parser.optionIf condition p) fun a? => .ofNodes (a?.toList.flatMap ns) := by
  intro start
  refine hc.then fun b => .ite (fun _ => ?_) fun _ => .pure (.of_eq rfl (by simp))
  exact hp.then fun a => .pure (.of_eq (by simp) (by simp))

theorem Reads.optionNode {condition : Parser Bool} {m : Bool → Bool} {n : α → Node}
    (hc : Reads ts condition fun b => ⟨m b, []⟩) (hp : Reads ts p fun a => .node (n a)) :
    Reads ts (Parser.optionIf condition p) fun a? => .ofNodes (a?.toList.map n) := by
  have h := hc.optionIf (hp.entails fun a => .of_eq (L := .ofNodes [n a]) rfl (by simp))
  exact h.entails fun a? => .of_eq List.map_eq_flatMap (by simp)

theorem Reads.listIf {condition : Parser Bool} {m : Bool → Bool} {p : Parser (List α)}
    {ns : List α → List Node} (hc : Reads ts condition fun b => ⟨m b, []⟩)
    (hp : Reads ts p fun as => .ofNodes (ns as)) (hnil : ns [] = []) :
    Reads ts (Parser.listIf condition p) fun as => .ofNodes (ns as) := by
  intro start
  refine hc.then fun b => .ite (fun _ => ?_) fun _ => .pure (.of_eq hnil (by simp))
  exact hp.lays.entails (.refl _) fun as => .of_eq (by simp) (by simp)

theorem Reads.listNodes {condition : Parser Bool} {m : Bool → Bool} {p : Parser (List α)}
    {n : α → Node} (hc : Reads ts condition fun b => ⟨m b, []⟩)
    (hp : Reads ts p fun as => ⟨true, as.map n⟩) :
    Reads ts (Parser.listIf condition p) fun as => .ofNodes (as.map n) :=
  hc.listIf (hp.entails fun _ => .of_eq rfl (by simp)) rfl

theorem iterate_eq {step : σ → Parser (Option σ)} {s : σ} {pos : Nat} :
    iterate step s ts pos = rounds step (ts.size - pos + 1) s ts pos := rfl

/-- What every round keeps, the rounds together keep. -/
theorem Lays.rounds {step : σ → Parser (Option σ)} {f : σ → Layout}
    (h : ∀ s, Lays ts start (f s) (step s) fun s? => f (s?.getD s)) :
    ∀ (n : Nat) (s : σ), Lays ts start (f s) (rounds step n s) f
  | 0, s, pos, pos', a, hs, h' => by
    cases h'
    exact hs
  | n + 1, s, pos, pos', a, hs, h' => by
    unfold Parser.rounds at h'
    split at h'
    · cases h'
    · rename_i mid hstep
      cases h'
      exact h s _ _ _ hs hstep
    · rename_i s' mid hstep
      exact Lays.rounds h n s' _ _ _ (h s _ _ _ hs hstep) h'

theorem Lays.iterate {step : σ → Parser (Option σ)} {f : σ → Layout}
    (h : ∀ s, Lays ts start (f s) (step s) fun s? => f (s?.getD s)) (s : σ) :
    Lays ts start (f s) (iterate step s) f :=
  fun pos => Lays.rounds h _ s pos

theorem Reads.many {item : Parser (Option α)} {ns : α → List Node}
    (h : Reads ts item fun a? => .ofNodes (a?.toList.flatMap ns)) :
    Reads ts (Parser.many item) fun as => .ofNodes (as.flatMap ns) := by
  intro start
  refine Lays.bind (f := fun found => .ofNodes (found.reverse.flatMap ns)) ?_ fun found => .pure (.of_eq rfl id)
  refine Lays.iterate (f := fun found => .ofNodes (found.reverse.flatMap ns)) (fun found => ?_) []
  refine h.then fun a? => ?_
  cases a? with
  | none => exact .pure (.of_eq (by simp) (by simp))
  | some a => exact .pure (.of_eq (by simp) (by simp))

theorem Reads.manyNodes {item : Parser (Option α)} {n : α → Node}
    (h : Reads ts item fun a? => .ofNodes (a?.toList.map n)) :
    Reads ts (Parser.many item) fun as => .ofNodes (as.map n) := by
  have hitem := h.entails fun a? =>
    .of_eq (L := .ofNodes (a?.toList.flatMap fun a => [n a])) List.map_eq_flatMap.symm (by simp)
  exact hitem.many.entails fun as => .of_eq List.map_eq_flatMap (by simp)

theorem Reads.repeatWhile {step : Parser Bool} {m : Bool → Bool} (h : Reads ts step fun b => ⟨m b, []⟩) :
    Reads ts (repeatWhile step) fun _ => .none := by
  intro start
  refine Lays.iterate (f := fun _ => .none) (fun s => ?_) ()
  refine h.then fun b => .ite (fun _ => ?_) fun _ => ?_ <;> exact .pure (.of_eq rfl (by simp))

theorem Reads.commaSeparated {ns : α → List Node} (h : Reads ts p fun a => ⟨true, ns a⟩) :
    Reads ts (Parser.commaSeparated p) fun as => ⟨true, as.flatMap ns⟩ := by
  intro start
  have hitem : Reads ts p fun a => .ofNodes (ns a) := h.entails fun _ => .of_eq rfl (by simp)
  refine h.then fun first => ?_
  refine (Reads.many ((consume_reads .comma).optionIf hitem)).then fun rest => ?_
  exact .pure (.of_eq (by simp) (by simp))

theorem Reads.commaRead (h : Reads ts p fun _ => .read) : Reads ts (Parser.commaSeparated p) fun _ => .read :=
  (@Reads.commaSeparated _ _ _ (fun _ => []) h).entails fun _ => .of_eq (by simp) id

theorem Reads.commaNodes {n : α → Node} (h : Reads ts p fun a => .node (n a)) :
    Reads ts (Parser.commaSeparated p) fun as => ⟨true, as.map n⟩ :=
  (Reads.commaSeparated h).entails fun _ => .of_eq List.map_eq_flatMap id

theorem Reads.leftChain {operand : Parser α} {operator : Parser (Option β)}
    {make : β → α → α → Span → α} {n : α → Node} (hoperand : Reads ts operand fun a => .node (n a))
    (hoperator : Reads ts operator fun _ => .none)
    (hspan : ∀ op l r s, (n (make op l r s)).span = s)
    (hparts : ∀ op l r s, (n (make op l r s)).parts = [n l, n r]) :
    Reads ts (leftChain operand operator make) fun a => .node (n a) := by
  refine .position fun start => hoperand.then fun first => ?_
  refine (Lays.iterate (f := fun a => .node (n a)) (fun left => ?_) first).entails (.of_eq rfl id)
    fun _ => .refl _
  refine hoperator.then fun op? => ?_
  cases op? with
  | none => exact .pure (.of_eq rfl id)
  | some op =>
    refine hoperand.then fun right => ?_
    refine .closeAs (fun s => n (make op left right s)) (hspan op left right) (fun s => ?_) fun _ => .refl _
    have hall := Node.constituents_eq (n := n (make op left right s)) (by simp [hparts])
    exact .of_eq (hall.trans (hparts op left right s)) (by simp)

/-! ## Skipping -/

theorem skipUntil_reads (stop : Terminals → Nat → Bool) : Reads ts (skipUntil stop) fun _ => .none := by
  intro start
  refine (Lays.iterate (f := fun _ => .none) (fun depth => ?_) 0).bind fun _ => .pure (.refl _)
  refine .look fun b => .ite (fun _ => .pure (.refl _)) fun _ => ?_
  refine take_reads.then fun t? => ?_
  cases t? <;> exact .pure (.of_eq rfl (by simp))

theorem skipParenthesized_reads : Reads ts skipParenthesized fun _ => .none := by
  intro start
  refine (expect_reads .leftParen).then fun _ => ?_
  refine (Lays.iterate (f := fun _ => .read) (fun depth => ?_) 1).bind fun _ => .pure (.of_eq rfl (by simp))
  refine .ite (fun _ => .pure (.refl _)) fun _ => take_reads.then fun t? => ?_
  cases t? with
  | none => exact .failExpected
  | some t => exact .pure (.of_eq rfl (by simp))

end

end Parser

end TransactLint
