import TransactLint.Gap
import TransactLint.Proofs.Nesting

/-!
# Gaps and terminals

A gap runs from after one terminal to before another. What is looked for in it is never a blank or a
comment, so only the terminals between the two count.
-/

namespace TransactLint

/-- Where `f` increases along a list, the elements before one of them are told by `f`. -/
theorem take_eq_filter {α : Type} {f : α → Nat} {as : List α} (has : as.Pairwise fun x y => f x < f y)
    {i : Nat} {x : α} (hx : as[i]? = some x) : as.take i = as.filter fun z => f z < f x := by
  induction as generalizing i with
  | nil => exact List.take_nil
  | cons a as ih =>
    obtain ⟨hfirst, hrest⟩ := List.pairwise_cons.mp has
    cases i with
    | zero =>
      cases hx
      refine (List.filter_eq_nil_iff.mpr fun z hz => ?_).symm
      rcases List.mem_cons.mp hz with rfl | hz
      · simp
      · have := hfirst z hz
        simp only [decide_eq_true_eq]
        omega
    | succ i =>
      have hlt := hfirst x (List.mem_of_getElem? hx)
      rw [List.take_succ_cons, List.filter_cons_of_pos (by simpa using hlt), ih hrest hx]

namespace Terminals

variable {tokens : List Token}

theorem toList_ofTokens : (ofTokens tokens).toList =
    (tokens.zipIdx.filter fun x => !x.1.isTrivia).map fun x => ⟨x.1, x.2⟩ := by
  simp [ofTokens]

section
variable (ho : (ofTokens tokens).Ordered)
include ho

/-- Before a terminal there are the terminals before it, and trivia. -/
theorem filter_take {i : Nat} {x : Terminal} (hx : (ofTokens tokens)[i]? = some x) :
    (tokens.take x.index).filter (fun t => !t.isTrivia) = ((ofTokens tokens).toList.take i).map Terminal.token := by
  have htokens : tokens.zipIdx.Pairwise fun x y => x.2 < y.2 := by
    rw [List.pairwise_iff_getElem]
    intro k l _ _ hkl
    simpa using hkl
  have hterminals : (ofTokens tokens).toList.Pairwise fun x y => x.index < y.index := ho.before.imp And.left
  have htoken : tokens.zipIdx[x.index]? = some (x.token, x.index) := by
    have := (mem_ofTokens.mp (Array.mem_toList_iff.mpr (Array.mem_of_getElem? hx))).1
    simpa using this
  have hfst : tokens.take x.index = (tokens.zipIdx.take x.index).map Prod.fst := by
    rw [List.map_take, List.zipIdx_map_fst]
  rw [hfst, take_eq_filter htokens htoken, take_eq_filter hterminals (by simpa using hx), toList_ofTokens,
    List.filter_map, List.filter_map, List.map_map, List.filter_filter, List.filter_filter]
  exact congrArg (List.map Prod.fst) (List.filter_congr fun z _ => Bool.and_comm ..)

/-- Between two terminals there are the terminals between them, and trivia. -/
theorem filter_between {i j : Nat} {x y : Terminal} (hij : i < j) (hx : (ofTokens tokens)[i]? = some x)
    (hy : (ofTokens tokens)[j]? = some y) :
    ((tokens.drop (x.index + 1)).take (y.index - (x.index + 1))).filter (fun t => !t.isTrivia) =
      (((ofTokens tokens).toList.drop (i + 1)).take (j - (i + 1))).map Terminal.token := by
  obtain ⟨htoken, htrivia⟩ := mem_ofTokens.mp (Array.mem_toList_iff.mpr (Array.mem_of_getElem? hx))
  have hindex : x.index < y.index := by
    obtain ⟨hi, rfl⟩ := Array.getElem?_eq_some_iff.mp hx
    obtain ⟨hj, rfl⟩ := Array.getElem?_eq_some_iff.mp hy
    exact (ho.index_lt_iff hi hj).mpr hij
  -- what comes before the second is what comes before the first, the first, and what is between them
  have hsplit : ∀ {α : Type} {as : List α} {k l : Nat} {a : α}, k < l → as[k]? = some a →
      as.take l = as.take k ++ a :: (as.drop (k + 1)).take (l - (k + 1)) := by
    intro α as k l a hkl ha
    rw [← Nat.add_sub_cancel' hkl, List.take_add, List.take_add_one, ha, Nat.add_sub_cancel_left]
    simp
  have hbefore := filter_take ho hy
  rw [hsplit hindex htoken, hsplit hij (by simpa using hx), List.filter_append, filter_take ho hx, List.map_append,
    List.filter_cons_of_pos (by simp [htrivia])] at hbefore
  exact List.tail_eq_of_cons_eq (List.append_cancel_left hbefore)

end

def within (ts : Terminals) (a b : Nat) : List Token :=
  ((ts.toList.drop a).take (b - a)).map Terminal.token

section
variable {ts : Terminals} {a b : Nat} {t : Token}

@[simp] theorem within_self (ts : Terminals) (a : Nat) : ts.within a a = [] := by simp [within]

theorem within_succ (hab : a ≤ b) (ht : ts.token? b = some t) : ts.within a (b + 1) = ts.within a b ++ [t] := by
  obtain ⟨x, hx, rfl⟩ := Option.map_eq_some_iff.mp ht
  have hlast : (ts.toList.drop a)[b - a]? = some x := by
    rw [List.getElem?_drop, Nat.add_sub_cancel' hab, Array.getElem?_toList, hx]
  rw [within, within, Nat.succ_sub hab, List.take_add_one, hlast, List.map_append]
  rfl

theorem within_append {c : Nat} (hab : a ≤ b) (hbc : b ≤ c) :
    ts.within a b ++ ts.within b c = ts.within a c := by
  have hdrop : ts.toList.drop b = (ts.toList.drop a).drop (b - a) := by rw [List.drop_drop, Nat.add_sub_cancel' hab]
  rw [within, within, within, ← List.map_append, hdrop, ← List.take_add, show b - a + (c - b) = c - a by omega]

theorem within_cons (hab : a < b) (ht : ts.token? a = some t) : ts.within a b = t :: ts.within (a + 1) b := by
  obtain ⟨x, hx, rfl⟩ := Option.map_eq_some_iff.mp ht
  obtain ⟨hlt, rfl⟩ := Array.getElem?_eq_some_iff.mp hx
  rw [within, within, List.drop_eq_getElem_cons (by simpa using hlt), show b - a = b - (a + 1) + 1 by omega,
    List.take_succ_cons, List.map_cons, Array.getElem_toList]

end

end Terminals

theorem Gap.find?_eq (g : Gap) {kind : TokenKind} (hkind : kind.isTrivia = false) (tokens : List Token) :
    g.find? kind tokens =
      (((tokens.drop g.start).take (g.stop - g.start)).filter fun t => !t.isTrivia).find?
        fun t => t.kind = kind := by
  rw [Gap.find?, List.find?_filter]
  refine congrArg (List.find? · _) (funext fun t => ?_)
  by_cases ht : t.kind = kind
  · simp [ht, Token.isTrivia, hkind]
  · simp [ht]

/-- What is found in a gap is one of its tokens. -/
theorem Gap.index_of_find? {g : Gap} {kind : TokenKind} {tokens : List Token} {t : Token}
    (h : g.find? kind tokens = some t) : t.kind = kind ∧ ∃ i, g.start ≤ i ∧ i < g.stop ∧
      tokens[i]? = some t := by
  refine ⟨by simpa using List.find?_some h, ?_⟩
  obtain ⟨i, hi, rfl⟩ := List.mem_take_iff_getElem.mp (List.mem_of_find?_eq_some h)
  rw [List.length_drop] at hi
  exact ⟨g.start + i, by omega, by omega, by rw [List.getElem_drop, List.getElem?_eq_getElem]⟩

theorem Gap.find?_of_index {g : Gap} {kind : TokenKind} {tokens : List Token} {t : Token} {i : Nat}
    (hi : g.start ≤ i ∧ i < g.stop) (ht : tokens[i]? = some t) (hkind : t.kind = kind) :
    g.find? kind tokens ≠ none := by
  obtain ⟨hlt, rfl⟩ := List.getElem?_eq_some_iff.mp ht
  intro hnone
  have hmem : tokens[i] ∈ (tokens.drop g.start).take (g.stop - g.start) := by
    apply List.mem_take_iff_getElem.mpr
    exact ⟨i - g.start, by rw [List.length_drop]; omega,
      by simp only [List.getElem_drop, Nat.add_sub_cancel' hi.1]⟩
  have hnot := List.find?_eq_none.mp hnone _ hmem
  simp [hkind] at hnot

/-- What is found in the gap between two runs of terminals is found among the terminals between them. -/
theorem Document.gap_between {sql : String} {d : Document} (h : parse sql = .ok d) {i j a b : Nat} (hij : i < j)
    (hja : j ≤ a) (hab : a < b) (hb : b ≤ d.terminals.size) :
    ∃ g, Gap.between? (d.terminals.span i j) (d.terminals.span a b) = some g ∧ ∀ kind : TokenKind,
      kind.isTrivia = false → g.find? kind d.tokens = (d.terminals.within j a).find? fun t => t.kind = kind := by
  have ho := terminals_ordered h
  have hlast : j - 1 < d.terminals.size := by omega
  have hfirst : a < d.terminals.size := by omega
  rw [ho.span_eq hij (by omega), ho.span_eq hab hb]
  refine ⟨_, if_pos ((ho.index_lt_iff hlast hfirst).mpr (by omega)), fun kind hkind => ?_⟩
  have hslice := Terminals.filter_between ho (by omega : j - 1 < a) (Array.getElem?_eq_getElem hlast)
    (Array.getElem?_eq_getElem hfirst)
  rw [Nat.sub_add_cancel (by omega)] at hslice
  rw [Gap.find?_eq _ hkind]
  exact congrArg (List.find? _) hslice

/-- Between two nodes there is a gap if the second begins after the first, and what is found in it is
found among the terminals between them. -/
theorem Document.gap_cases {sql : String} {d : Document} (h : parse sql = .ok d) {m n : Node} {i j a b : Nat}
    (hm : Stands d.terminals m i j) (hn : Stands d.terminals n a b) :
    (a < j ∧ Gap.between? m.span n.span = none) ∨
      (j ≤ a ∧ ∃ g, Gap.between? m.span n.span = some g ∧ ∀ kind : TokenKind, kind.isTrivia = false →
        g.find? kind d.tokens = (d.terminals.within j a).find? fun t => t.kind = kind) := by
  by_cases hja : j ≤ a
  · rw [hm.span_eq, hn.span_eq]
    exact .inr ⟨hja, gap_between h hm.lt hja hn.lt hn.le_size⟩
  · have hbetween := hm.last_lt_first_iff (terminals_ordered h) hn
    exact .inl ⟨by omega, if_neg (mt hbetween.mp hja)⟩

end TransactLint
