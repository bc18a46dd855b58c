import TransactLint.Grammar.Terminals
import TransactLint.Tokenization

/-!
# The order of tokens

The cursor only moves forward, so the tokens of a script stand one after another, by byte and by
place. The terminals inherit this order and have increasing indices. The span of some terminals is
then known by the first and the last of them.
-/

namespace TransactLint

/-! ## Places -/

namespace Location

theorem lt_def {a b : Location} : a < b ↔ a.line < b.line ∨ (a.line = b.line ∧ a.column < b.column) :=
  Iff.rfl

theorem le_def {a b : Location} : a ≤ b ↔ a.line < b.line ∨ (a.line = b.line ∧ a.column ≤ b.column) :=
  Iff.rfl

theorem le_refl (a : Location) : a ≤ a := by rw [le_def]; omega

theorem le_of_lt {a b : Location} (h : a < b) : a ≤ b := by rw [le_def]; rw [lt_def] at h; omega

theorem le_trans {a b c : Location} (hab : a ≤ b) (hbc : b ≤ c) : a ≤ c := by
  rw [le_def] at *; omega

theorem lt_of_lt_of_le {a b c : Location} (hab : a < b) (hbc : b ≤ c) : a < c := by
  rw [lt_def] at *; rw [le_def] at hbc; omega

theorem lt_of_le_of_lt {a b c : Location} (hab : a ≤ b) (hbc : b < c) : a < c := by
  rw [lt_def] at *; rw [le_def] at hab; omega

theorem lt_irrefl (a : Location) : ¬ a < a := by rw [lt_def]; omega

theorem le_total (a b : Location) : a ≤ b ∨ b ≤ a := by rw [le_def, le_def]; omega

theorem lt_advance (l : Location) (c : Char) : l < l.advance c := by
  unfold advance
  split
  · exact Or.inl (Nat.lt_succ_self _)
  · exact Or.inr ⟨rfl, Nat.lt_succ_self _⟩

theorem le_after (l : Location) : ∀ cs : List Char, l ≤ l.after cs
  | [] => le_refl l
  | c :: cs => le_trans (le_of_lt (lt_advance l c)) (le_after (l.advance c) cs)

theorem lt_after_cons (l : Location) (c : Char) (cs : List Char) : l < l.after (c :: cs) :=
  lt_of_lt_of_le (lt_advance l c) (le_after (l.advance c) cs)

end Location

/-! ## The cursor -/

namespace Cursor

/-- A cursor that leaves its place goes forward by a byte at least. -/
theorem moveFrom_forward (target : Location) : ∀ (cs : List Char) (here : Location) (offset : Nat),
    moveFrom target here offset cs = ⟨here, offset, cs⟩ ∨
      (here < (moveFrom target here offset cs).location ∧ offset < (moveFrom target here offset cs).offset)
  | [], _, _ => Or.inl rfl
  | c :: cs, here, offset => by
    unfold moveFrom
    split
    · have hplace := here.lt_advance c
      have hsize := c.utf8Size_pos
      right
      rcases moveFrom_forward target cs (here.advance c) (offset + c.utf8Size) with h | ⟨h, h'⟩
      · rw [h]
        exact ⟨hplace, Nat.lt_add_of_pos_right hsize⟩
      · exact ⟨Location.lt_of_lt_of_le hplace (Location.le_of_lt h), by omega⟩
    · exact Or.inl rfl

theorem seek_some {cursor moved : Cursor} {target : Location} {offset : Nat}
    (h : cursor.seek target = (moved, some offset)) :
    moved.location = target ∧ moved.offset = offset ∧ cursor.location ≤ target ∧
      cursor.offset ≤ offset ∧ (cursor.location < target → cursor.offset < offset) := by
  unfold seek moveTo at h
  simp only [Prod.mk.injEq, Option.ite_none_right_eq_some, Option.some.injEq] at h
  obtain ⟨hmoved, hplace, hoffset⟩ := h
  rw [hmoved] at hplace hoffset
  have hforward := moveFrom_forward target cursor.rest cursor.location cursor.offset
  rw [hmoved, hplace, hoffset] at hforward
  refine ⟨hplace, hoffset, ?_⟩
  rcases hforward with h | ⟨h, h'⟩
  · subst h
    subst hplace
    subst hoffset
    exact ⟨Location.le_refl _, Nat.le_refl _, fun h => absurd h (Location.lt_irrefl _)⟩
  · exact ⟨Location.le_of_lt h, Nat.le_of_lt h', fun _ => h'⟩

end Cursor

/-! ## Lexemes and tokens -/

theorem Lexeme.start_lt_stop {found xs : List Lexeme} {here : Location} {afterWord : Bool}
    {text : List Char} (h : lexemesFrom found here afterWord text = .ok xs)
    (hfound : ∀ x ∈ found, x.start < x.stop) : ∀ x ∈ xs, x.start < x.stop := by
  fun_induction lexemesFrom found here afterWord text with
  | case1 found here afterWord =>
    cases h
    simpa using hfound
  | case2 => cases h
  | case3 found here afterWord c cs s hs stop ih =>
    refine ih h ?_
    intro x hx
    rcases List.mem_cons.mp hx with rfl | hx
    · exact Location.lt_after_cons here c _
    · exact hfound x hx

def Token.Before (a b : Token) : Prop := a.stop ≤ b.offset ∧ a.start < b.start

def Token.Placed (t : Token) : Prop := t.offset < t.stop ∧ Location.origin ≤ t.start

theorem Lexeme.token_ok {cursor after : Cursor} {x : Lexeme} {t : Token} (hx : x.start < x.stop)
    (h : x.token cursor = .ok (t, after)) :
    cursor.location ≤ t.start ∧ cursor.offset ≤ t.offset ∧ t.offset < t.stop ∧
      t.start < after.location ∧ t.stop = after.offset := by
  unfold token at h
  split at h
  · cases h
  · rename_i before offset hstart
    split at h
    · cases h
    · rename_i moved stop hstop
      split at h
      · cases h
      · cases h
        obtain ⟨hb, ho, hle, hoff, -⟩ := Cursor.seek_some hstart
        obtain ⟨ha, hs, -, -, hlt⟩ := Cursor.seek_some hstop
        rw [hb, ho] at hlt
        have hpos := hlt hx
        refine ⟨hle, hoff, ?_, ?_, ?_⟩
        · simp only [Token.stop]; omega
        · rw [ha]; exact hx
        · simp only [Token.stop]; omega

/-- Induction on the lexemes left; the tokens found all end at or before the cursor. -/
theorem Lexeme.tokensFrom_ordered : ∀ {xs : List Lexeme} {found tokens : List Token} {cursor : Cursor},
    tokensFrom found cursor xs = .ok tokens → (∀ x ∈ xs, x.start < x.stop) →
    Location.origin ≤ cursor.location →
    (∀ t ∈ found, t.stop ≤ cursor.offset ∧ t.start < cursor.location) →
    found.Pairwise (fun a b => b.Before a) → (∀ t ∈ found, t.Placed) →
    tokens.Pairwise Token.Before ∧ ∀ t ∈ tokens, t.Placed
  | [], found, _, cursor, h, _, _, _, hpair, hplaced => by
    cases h
    exact ⟨List.pairwise_reverse.mpr hpair, fun t ht => hplaced t (List.mem_reverse.mp ht)⟩
  | x :: xs, found, tokens, cursor, h, hxs, horigin, hends, hpair, hplaced => by
    unfold tokensFrom at h
    split at h
    · cases h
    · rename_i t after ht
      obtain ⟨hstart, hoffset, hpos, hafter, hstop⟩ := token_ok (hxs x List.mem_cons_self) ht
      have hstart' := Location.le_trans horigin hstart
      have hplace := Location.le_of_lt (Location.lt_of_le_of_lt hstart hafter)
      refine tokensFrom_ordered h (fun y hy => hxs y (List.mem_cons_of_mem _ hy))
        (Location.le_trans horigin hplace) ?_ ?_ ?_
      · intro u hu
        rcases List.mem_cons.mp hu with rfl | hu
        · exact ⟨Nat.le_of_eq hstop, hafter⟩
        · obtain ⟨h1, h2⟩ := hends u hu
          refine ⟨?_, Location.lt_of_lt_of_le h2 hplace⟩
          simp only [Token.stop] at *; omega
      · refine List.pairwise_cons.mpr ⟨?_, hpair⟩
        intro u hu
        obtain ⟨h1, h2⟩ := hends u hu
        exact ⟨Nat.le_trans h1 hoffset, Location.lt_of_lt_of_le h2 hstart⟩
      · intro u hu
        rcases List.mem_cons.mp hu with rfl | hu
        · exact ⟨hpos, hstart'⟩
        · exact hplaced u hu

theorem eq_ok_of_mem_toOption {ε α : Type} {x : Except ε α} {a : α} (h : a ∈ x.toOption) : x = .ok a := by
  cases x with
  | error e => cases h
  | ok b => rw [Option.some.inj h]

theorem tokenize_ordered {sql : String} {tokens : List Token} (h : tokenize sql = .ok tokens) :
    tokens.Pairwise Token.Before ∧ ∀ t ∈ tokens, t.Placed := by
  unfold tokenize at h
  split at h
  · cases h
  · rename_i xs hxs
    have hnil : ∀ x ∈ ([] : List Lexeme), x.start < x.stop := fun x hx => absurd hx (by simp)
    exact Lexeme.tokensFrom_ordered h (Lexeme.start_lt_stop hxs hnil) (Location.le_refl _)
      (fun t ht => absurd ht (by simp)) .nil (fun t ht => absurd ht (by simp))

/-! ## Terminals -/

def Terminal.Before (x y : Terminal) : Prop := x.index < y.index ∧ x.token.Before y.token

namespace Terminals

/-- Terminals as a script has them: each is a token, and they stand one after another. -/
structure Ordered (ts : Terminals) : Prop where
  before : ts.toList.Pairwise Terminal.Before
  placed : ∀ x ∈ ts.toList, x.token.Placed

theorem mem_ofTokens {tokens : List Token} {x : Terminal} :
    x ∈ (ofTokens tokens).toList ↔ tokens[x.index]? = some x.token ∧ x.token.isTrivia = false := by
  unfold ofTokens
  simp only [List.mem_map, List.mem_filter, Bool.not_eq_eq_eq_not, Bool.not_true]
  constructor
  · rintro ⟨⟨t, i⟩, ⟨hmem, htrivia⟩, rfl⟩
    exact ⟨List.mem_zipIdx_iff_getElem?.mp hmem, htrivia⟩
  · rintro ⟨hmem, htrivia⟩
    exact ⟨(x.token, x.index), ⟨List.mem_zipIdx_iff_getElem?.mpr hmem, htrivia⟩, rfl⟩

theorem ofTokens_ordered {tokens : List Token} (hpair : tokens.Pairwise Token.Before)
    (hplaced : ∀ t ∈ tokens, t.Placed) : (ofTokens tokens).Ordered where
  before := by
    refine List.pairwise_map.mpr (List.Pairwise.filter _ ?_)
    rw [List.pairwise_iff_getElem] at hpair ⊢
    intro i j hi hj hij
    simp only [List.length_zipIdx] at hi hj
    simp only [List.getElem_zipIdx, Nat.zero_add]
    exact ⟨hij, hpair i j hi hj hij⟩
  placed x hx := hplaced _ (List.mem_of_getElem? (mem_ofTokens.mp hx).1)

theorem ordered_of_tokenize {sql : String} {tokens : List Token} (h : tokenize sql = .ok tokens) :
    (ofTokens tokens).Ordered := by
  obtain ⟨hpair, hplaced⟩ := tokenize_ordered h
  exact ofTokens_ordered hpair hplaced

theorem firstToken_span {ts : Terminals} {a : Nat} (ha : a < ts.size) (b : Nat) :
    (ts.span a b).firstToken = ts[a].index := by
  unfold span
  rw [Array.getElem?_eq_getElem ha]
  cases ts.last? b with
  | none => rfl
  | some last =>
    dsimp only
    split <;> rfl

def positionOf? (ts : Terminals) (index : Nat) : Option Nat := ts.findIdx? fun x => x.index = index

section
variable {ts : Terminals} (ho : ts.Ordered)
include ho

theorem Ordered.before_of_lt {i j : Nat} (hij : i < j) (hj : j < ts.size) :
    (ts[i]).Before ts[j] := by
  have h := List.pairwise_iff_getElem.mp ho.before i j (by simp; omega) (by simpa using hj) hij
  simpa using h

theorem Ordered.placed_at {i : Nat} (hi : i < ts.size) : ts[i].token.Placed :=
  ho.placed _ (by simp)

/-- What grows from terminal to terminal tells their order. -/
theorem Ordered.lt_iff {f : Terminal → Nat}
    (hf : ∀ x y : Terminal, x.Before y → x.token.Placed → y.token.Placed → f x < f y) {i j : Nat}
    (hi : i < ts.size) (hj : j < ts.size) : f ts[i] < f ts[j] ↔ i < j := by
  have hmono : ∀ {i j : Nat} (hi : i < ts.size) (hj : j < ts.size), i < j → f ts[i] < f ts[j] :=
    fun hi hj hij => hf _ _ (ho.before_of_lt hij hj) (ho.placed_at hi) (ho.placed_at hj)
  constructor
  · intro h
    rcases Nat.lt_trichotomy i j with hij | rfl | hij
    · exact hij
    · exact absurd h (Nat.lt_irrefl _)
    · exact absurd (hmono hj hi hij) (Nat.lt_asymm h)
  · exact hmono hi hj

theorem Ordered.index_lt_iff {i j : Nat} (hi : i < ts.size) (hj : j < ts.size) :
    ts[i].index < ts[j].index ↔ i < j :=
  ho.lt_iff (f := Terminal.index) (fun _ _ h _ _ => h.1) hi hj

theorem Ordered.positionOf?_index {i : Nat} (hi : i < ts.size) : ts.positionOf? ts[i].index = some i := by
  refine Array.findIdx?_eq_some_iff_getElem.mpr ⟨hi, by simp, fun j hji => ?_⟩
  have hlt := (ho.index_lt_iff (by omega) hi).mpr hji
  simp only [decide_eq_true_eq]
  omega

theorem Ordered.offset_lt_iff {i j : Nat} (hi : i < ts.size) (hj : j < ts.size) :
    ts[i].token.offset < ts[j].token.offset ↔ i < j :=
  ho.lt_iff (f := fun x => x.token.offset) (fun _ _ h hx _ => Nat.lt_of_lt_of_le hx.1 h.2.1) hi hj

theorem Ordered.stop_lt_iff {i j : Nat} (hi : i < ts.size) (hj : j < ts.size) :
    ts[i].token.stop < ts[j].token.stop ↔ i < j :=
  ho.lt_iff (f := fun x => x.token.stop) (fun _ _ h _ hy => Nat.lt_of_le_of_lt h.2.1 hy.1) hi hj

theorem Ordered.offset_lt_stop {i j : Nat} (hij : i ≤ j) (hj : j < ts.size) :
    ts[i].token.offset < ts[j].token.stop := by
  have hplaced := (ho.placed_at hj).1
  have hle := mt (ho.offset_lt_iff hj (by omega : i < ts.size)).mp (by omega)
  omega

/-- The span of the terminals from `a` to before `b`. -/
theorem Ordered.span_eq {a b : Nat} (hab : a < b) (hb : b ≤ ts.size) :
    ts.span a b = cover ts[a] ts[b - 1] := by
  have hle : ts[a].index ≤ ts[b - 1].index := by
    rcases Nat.lt_or_eq_of_le (Nat.le_sub_one_of_lt hab) with h | h
    · exact Nat.le_of_lt (ho.before_of_lt h (by omega)).1
    · simp only [← h, Nat.le_refl]
  have hlast : ts.last? b = some ts[b - 1] := by
    unfold last?
    split
    · omega
    · simp
  unfold span
  rw [Array.getElem?_eq_getElem (by omega), hlast]
  exact if_pos hle

end

end Terminals

end TransactLint
