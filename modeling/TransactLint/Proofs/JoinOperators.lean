import Mathlib.Data.List.Forall2
import TransactLint.Proofs.Anchors
import TransactLint.Proofs.Form.Statement
import TransactLint.Proofs.Gap
import TransactLint.Proofs.Spelling
import TransactLint.Rule

/-!
# Join operators

The tree keeps what a join means and not how it is written. Its operator has been read right between the two
sources, so the gap between them holds the words of this operator and no others, and these tell whether the kind is
spelled out.
-/

namespace TransactLint

/-- Where `g` gives nothing for the elements without `p`, and for the others what `f` gives for a related one. -/
theorem exists_forall₂_filterMap {α β γ : Type} {p : α → Bool} {g : α → Option γ} {f : β → Option γ}
    {R : α → β → Prop}
    {as : List α} (hnot : ∀ a ∈ as, p a = false → g a = none)
    (hp : ∀ a ∈ as, p a = true → ∃ b, R a b ∧ g a = f b) :
    ∃ bs, List.Forall₂ R (as.filter p) bs ∧ as.filterMap g = bs.filterMap f := by
  induction as with
  | nil => exact ⟨[], .nil, rfl⟩
  | cons a as ih =>
    obtain ⟨bs, hR, heq⟩ := ih (fun x hx => hnot x (.tail a hx)) fun x hx => hp x (.tail a hx)
    cases ha : p a with
    | false => exact ⟨bs, by simpa [ha] using hR,
        by rw [List.filterMap_cons, hnot a List.mem_cons_self ha, heq]⟩
    | true =>
      obtain ⟨b, hab, hg⟩ := hp a List.mem_cons_self ha
      exact ⟨b :: bs, by simpa [ha] using ⟨hab, hR⟩,
        by rw [List.filterMap_cons, List.filterMap_cons, hg, heq]⟩

/-! ## Operators as they are written -/

/-- `[INNER | {LEFT | RIGHT | FULL} [OUTER]] [hint] JOIN`. -/
structure JoinOperator where
  join : QualifiedJoin
  /-- Whether `INNER` or `OUTER` is written. -/
  explicit : Bool
  hint : Option Token
  /-- The word `JOIN`. -/
  word : Token

def QualifiedJoin.keywords : QualifiedJoin → Bool → List Keyword
  | .inner, true => [.INNER]
  | .inner, false => []
  | .leftOuter, true => [.LEFT, .OUTER]
  | .leftOuter, false => [.LEFT]
  | .rightOuter, true => [.RIGHT, .OUTER]
  | .rightOuter, false => [.RIGHT]
  | .fullOuter, true => [.FULL, .OUTER]
  | .fullOuter, false => [.FULL]

def Token.isJoinHint (t : Token) : Bool := Grammar.joinHints.any t.isWord

namespace JoinOperator

def Spells (op : JoinOperator) (tokens : List Token) : Prop :=
  ∃ lead, tokens = lead ++ op.hint.toList ++ [op.word] ∧
    lead.map Token.kind = (op.join.keywords op.explicit).map .keyword ∧
    (∀ t ∈ op.hint, t.isJoinHint = true) ∧ op.word.kind = .keyword .JOIN

end JoinOperator

/-- Of the hints only `MERGE` is a keyword. -/
theorem Token.Spelled.kind_of_isJoinHint {t : Token} (h : t.Spelled) (hhint : t.isJoinHint = true) {k : Keyword}
    (hk : k ≠ .MERGE) : t.kind ≠ .keyword k := by
  intro hkind
  obtain ⟨hint, hmem, hword⟩ := List.any_eq_true.mp hhint
  simp only [Token.isWord, hkind, Text.sameIgnoringCase, beq_iff_eq] at hword
  have hspelled := h k hkind
  rw [Keyword.ofWord?_congr hword] at hspelled
  have hhints : ∀ hint ∈ Grammar.joinHints, ∀ k ∈ Keyword.ofWord? hint.toList, k = .MERGE := by
    decide +kernel
  exact hk (hhints hint hmem k (Option.mem_def.mpr hspelled))

namespace JoinOperator

variable {op : JoinOperator} {tokens : List Token} (hspelled : ∀ t ∈ tokens, t.Spelled) (h : op.Spells tokens)
include hspelled h

/-- Before `JOIN` there are the keywords of the join, and no others but `MERGE`. -/
theorem Spells.any_before : ∃ before, tokens = before ++ [op.word] ∧ ∀ k ≠ Keyword.MERGE,
    (before.any fun t => t.kind = .keyword k) = (op.join.keywords op.explicit).any (· = k) := by
  obtain ⟨lead, rfl, hlead, hhint, -⟩ := h
  refine ⟨_, rfl, fun k hk => ?_⟩
  have hkeywords := congrArg (fun kinds : List TokenKind => kinds.any (· = .keyword k)) hlead
  simp only [List.any_map, Function.comp_def, TokenKind.keyword.injEq] at hkeywords
  have hhints : (op.hint.toList.any fun t => t.kind = .keyword k) = false := by
    refine List.any_eq_false.mpr fun t ht => ?_
    have hkind := (hspelled t (by simp [ht])).kind_of_isJoinHint (hhint t (by simpa using ht)) hk
    simpa using hkind
  rw [List.any_append, hkeywords, hhints, Bool.or_false]

theorem Spells.any_explicitWord : (tokens.any fun t => t.kind = .keyword op.join.explicitWord) = op.explicit := by
  obtain ⟨before, rfl, hbefore⟩ := h.any_before hspelled
  obtain ⟨-, -, -, -, hword⟩ := h
  rw [List.any_append, hbefore _ (by cases op.join <;> decide)]
  cases op.join <;> cases op.explicit <;> simp [hword] <;> decide

theorem Spells.find?_word : tokens.find? (fun t => t.kind = .keyword .JOIN) = some op.word := by
  obtain ⟨before, rfl, hbefore⟩ := h.any_before hspelled
  obtain ⟨-, -, -, -, hword⟩ := h
  have hnone : before.find? (fun t => t.kind = .keyword .JOIN) = none := by
    refine List.find?_eq_none.mpr (List.any_eq_false.mp ?_)
    rw [hbefore _ (by decide)]
    cases op.join <;> cases op.explicit <;> decide
  rw [List.find?_append, hnone]
  simp [hword]

end JoinOperator

namespace Grammar

open TransactLint.Parser

variable {ts : Terminals} {pos pos' : Nat}

theorem within_of_isKind {kind : TokenKind} (h : ts.isKind pos kind = true) :
    (ts.within pos (pos + 1)).map Token.kind = [kind] := by
  obtain ⟨t, ht, rfl⟩ := Terminals.isKind_iff.mp h
  rw [Terminals.within_succ (Nat.le_refl pos) ht, Terminals.within_self]
  rfl

/-- A side and, if it is spelled out, `OUTER`. -/
theorem outerJoin_ok {side : Keyword} {join join' : QualifiedJoin} (hside : ts.isKeyword pos side = true)
    (h : outerJoin join ts (pos + 1) = .ok (join', pos')) :
    join' = join ∧ pos ≤ pos' ∧ ((ts.within pos pos').map Token.kind = [.keyword side, .keyword .OUTER] ∨
      (ts.within pos pos').map Token.kind = [.keyword side]) := by
  obtain ⟨found, mid, hfound, h⟩ := bind_ok h
  cases h
  cases hword : ts.isKeyword (pos + 1) .OUTER with
  | true =>
    cases hfound.symm.trans (consumeKeyword_of_isKeyword hword)
    obtain ⟨t, ht, hkind⟩ := Terminals.isKind_iff.mp hword
    refine ⟨rfl, by omega, .inl ?_⟩
    rw [Terminals.within_succ (by omega) ht, List.map_append, within_of_isKind hside, List.map_singleton, hkind]
    rfl
  | false =>
    cases hfound.symm.trans (consumeKeyword_of_not hword)
    exact ⟨rfl, by omega, .inr (within_of_isKind hside)⟩

theorem joinKind_ok {join : QualifiedJoin} (h : joinKind ts pos = .ok (some join, pos')) :
    pos ≤ pos' ∧ ∃ explicit, (ts.within pos pos').map Token.kind = (join.keywords explicit).map .keyword := by
  -- the outer joins differ in their side only
  have houter : ∀ {side : Keyword} {outer : QualifiedJoin}, ts.isKeyword pos side = true →
      outer.keywords true = [side, .OUTER] → outer.keywords false = [side] →
      (some <$> outerJoin outer) ts (pos + 1) = .ok (some join, pos') →
      pos ≤ pos' ∧ ∃ explicit, (ts.within pos pos').map Token.kind = (join.keywords explicit).map
        .keyword := by
    intro side outer hside hexplicit hbare h
    obtain ⟨_, _, hjoin, h⟩ := bind_ok h
    cases h
    obtain ⟨rfl, hle, hwords | hwords⟩ := outerJoin_ok hside hjoin
    · exact ⟨hle, true, by rw [hwords, hexplicit]; rfl⟩
    · exact ⟨hle, false, by rw [hwords, hbare]; rfl⟩
  rcases ifConsume_ok h with ⟨hword, h⟩ | ⟨-, h⟩
  · cases h
    exact ⟨Nat.le_succ pos, true, within_of_isKind hword⟩
  rcases ifConsume_ok h with ⟨hword, h⟩ | ⟨-, h⟩
  · exact houter hword rfl rfl h
  rcases ifConsume_ok h with ⟨hword, h⟩ | ⟨-, h⟩
  · exact houter hword rfl rfl h
  rcases ifConsume_ok h with ⟨hword, h⟩ | ⟨-, h⟩
  · exact houter hword rfl rfl h
  rw [atKeyword, bind_look] at h
  split at h
  · cases h
    exact ⟨Nat.le_refl pos, false, by simp [QualifiedJoin.keywords]⟩
  · cases h

/-- The words of a join are those of an operator, and `JOIN` is the last of them. -/
theorem qualifiedJoin_spells {join : QualifiedJoin} (h : qualifiedJoin ts pos = .ok (some join, pos')) :
    ∃ op : JoinOperator, op.join = join ∧ op.Spells (ts.within pos pos') ∧
      ∃ last, pos ≤ last ∧ pos' = last + 1 ∧ ts.token? last = some op.word := by
  obtain ⟨join?, m, hkind, h⟩ := bind_ok h
  cases join? with
  | none => cases h
  | some found =>
    obtain ⟨hle, explicit, hlead⟩ := joinKind_ok hkind
    -- a hint or nothing stands between the kind and `JOIN`
    have hend : ∀ (hint : Option Token) {last : Nat}, m ≤ last → ts.within m last = hint.toList →
        (∀ t ∈ hint, t.isJoinHint = true) → (do
          expectKeyword .JOIN
          pure (some found) : Parser (Option QualifiedJoin)) ts last = .ok (some join, pos') →
        ∃ op : JoinOperator, op.join = join ∧ op.Spells (ts.within pos pos') ∧
          ∃ last, pos ≤ last ∧ pos' = last + 1 ∧ ts.token? last = some op.word := by
      intro hint last hlast hwithin hhint h
      obtain ⟨_, _, hword, h⟩ := bind_ok h
      obtain ⟨hat, rfl⟩ := expect_ok hword
      cases h
      obtain ⟨t, ht, hword⟩ := Terminals.isKind_iff.mp hat
      refine ⟨⟨join, explicit, hint, t⟩, rfl, ⟨ts.within pos m, ?_, hlead, hhint, hword⟩, last,
        by omega, rfl, ht⟩
      rw [Terminals.within_succ (by omega) ht, ← hwithin, Terminals.within_append hle hlast]
    dsimp only at h
    rw [bind_look] at h
    split at h
    · rename_i hhint
      obtain ⟨hint, hmem, hhint⟩ := List.any_eq_true.mp hhint
      obtain ⟨t, ht, hword⟩ := Terminals.isWord_iff.mp hhint
      rw [bind_of_ok (skip_of_lt (isWord_lt hhint))] at h
      refine hend (some t) (Nat.le_succ m) ?_ ?_ h
      · rw [Terminals.within_succ (Nat.le_refl m) ht, Terminals.within_self]
        rfl
      · rintro _ ⟨⟩
        exact List.any_eq_true.mpr ⟨hint, hmem, hword⟩
    · exact hend none (Nat.le_refl m) (by simp) (by simp) h

end Grammar

/-! ## Joins of a document -/

def Node.isQualifiedJoin : Node → Bool
  | .tableSource ⟨.qualifiedJoin _ _ _ _, _⟩ => true
  | _ => false

/-- The operator has been read between the two sources of the node, which is a join by it. The gap between them can
be determined, and `JOIN` is found in it. -/
structure Document.JoinsBy (d : Document) (n : Node) (op : JoinOperator) (first second : TableSource) : Prop where
  node : ∃ condition span, n = .tableSource ⟨.qualifiedJoin op.join first second condition, span⟩
  read : ∃ a start stop b, a < start ∧ first.span = d.terminals.span a start ∧
    Grammar.qualifiedJoin d.terminals start = .ok (some op.join, stop) ∧
      op.Spells (d.terminals.within start stop) ∧
    stop < b ∧ b ≤ d.terminals.size ∧ second.span = d.terminals.span stop b
  gap : ∃ g, Gap.between? first.span second.span = some g ∧ g.find? (.keyword .JOIN) d.tokens = some op.word

namespace Document

section
variable {sql : String} {d : Document} (h : parse sql = .ok d)
include h

/-- Every join has an operator, which tells whether and where it is reported. -/
theorem bareJoin?_eq {n : Node} (hn : n ∈ d.nodes) (hjoin : n.isQualifiedJoin = true) : ∃ op first second,
    d.JoinsBy n op first second ∧ n.bareJoin? d.tokens = if !op.explicit then some op.word.start else none := by
  have hproper := proper_of_mem h hn
  unfold Node.isQualifiedJoin at hjoin
  split at hjoin
  · rename_i join first second condition span
    obtain ⟨a, start, stop, b, hread⟩ := hproper
    obtain ⟨op, rfl, hspells, last, -, rfl, -⟩ := Grammar.qualifiedJoin_spells hread.words
    obtain ⟨hle, hlt, hb⟩ := hread.le
    obtain ⟨g, hg, hfind⟩ := gap_between h hread.lt hle hlt hb
    rw [← hread.left, ← hread.right] at hg
    have hspelled : ∀ t ∈ d.terminals.within start (last + 1), t.Spelled := by
      intro t ht
      obtain ⟨x, hx, rfl⟩ := List.mem_map.mp ht
      obtain ⟨hx, -⟩ := Terminals.mem_ofTokens.mp (List.mem_of_mem_drop (List.mem_of_mem_take hx))
      exact tokenize_spelled (parse_ok h).1 _ (List.mem_of_getElem? hx)
    have hword := (hfind (.keyword .JOIN) rfl).trans (hspells.find?_word hspelled)
    refine ⟨op, first, second,
      ⟨⟨_, _, rfl⟩, ⟨a, start, _, b, hread.lt, hread.left, hread.words, hspells, hlt, hb, hread.right⟩, g,
        hg, hword⟩, ?_⟩
    have hexplicit : g.contains (.keyword op.join.explicitWord) d.tokens = op.explicit := by
      rw [Gap.contains, hfind _ rfl, List.isSome_find?]
      exact hspells.any_explicitWord hspelled
    simp only [Node.bareJoin?, hg, Option.bind_some, hexplicit, hword]
    cases op.explicit <;> rfl
  · cases hjoin

end

/-- The rule on joins is exact. Every join has an operator that has been read between its two sources, and it is
reported if and only if this operator does not spell out its kind, at the word `JOIN` of the operator. Reports come
in the order of the nodes, a join before those it contains. -/
theorem bareJoins_exact {sql : String} {d : Document} (h : parse sql = .ok d) : ∃ ops : List JoinOperator,
    List.Forall₂ (fun n op => ∃ first second, d.JoinsBy n op first second) (d.nodes.filter Node.isQualifiedJoin)
      ops ∧ Rule.joinType.locations d = (ops.filter fun op => !op.explicit).map (fun op => op.word.start) ∧
      d.nodes.Pairwise fun m n => m.Above n ∨ m.span.lastToken < n.span.firstToken := by
  have hnot : ∀ n ∈ d.nodes, n.isQualifiedJoin = false → n.bareJoin? d.tokens = none := by
    intro n _ hnot
    unfold Node.bareJoin?
    split
    · cases hnot
    · rfl
  have hjoin : ∀ n ∈ d.nodes, n.isQualifiedJoin = true → ∃ op : JoinOperator,
      (∃ first second, d.JoinsBy n op first second) ∧
        n.bareJoin? d.tokens = if !op.explicit then some op.word.start else none := by
    intro n hn hjoin
    obtain ⟨op, first, second, hjoins, heq⟩ := bareJoin?_eq h hn hjoin
    exact ⟨op, ⟨first, second, hjoins⟩, heq⟩
  obtain ⟨ops, hops, hlocations⟩ := exists_forall₂_filterMap hnot hjoin
  refine ⟨ops, hops, hlocations.trans ?_, nodes_apart h⟩
  rw [← List.filterMap_eq_map, List.filterMap_filter]
  rfl

/-- The join in parentheses is explicit, and the call of `LEFT` does not count. -/
theorem bareJoins_exact_parentheses : ∃ d ops, parse
    "SELECT 1 FROM a JOIN b ON LEFT(x, 1) = 2 LEFT HASH JOIN (c INNER JOIN d ON 3 = 3) ON 4 = 4"
      = .ok d ∧ (d.nodes.filter Node.isQualifiedJoin).length = 3 ∧
    List.Forall₂ (fun n op => ∃ first second, d.JoinsBy n op first second)
      (d.nodes.filter Node.isQualifiedJoin) ops ∧
    Rule.joinType.locations d = (ops.filter fun op => !op.explicit).map (fun op => op.word.start) ∧
    Rule.joinType.locations d = [⟨1, 52⟩, ⟨1, 17⟩] := by
  obtain ⟨d, hd, hlength, hplaces⟩ : ∃ d ∈ (parse
      "SELECT 1 FROM a JOIN b ON LEFT(x, 1) = 2 LEFT HASH JOIN (c INNER JOIN d ON 3 = 3) ON 4 = 4"
      ).toOption, (d.nodes.filter Node.isQualifiedJoin).length = 3 ∧
        Rule.joinType.locations d = [⟨1, 52⟩, ⟨1, 17⟩] := by
    decide +kernel
  have hd := eq_ok_of_mem_toOption hd
  obtain ⟨ops, hops, hlocations, -⟩ := bareJoins_exact hd
  exact ⟨d, ops, hd, hlength, hops, hlocations, hplaces⟩

end Document

end TransactLint
