import TransactLint.Proofs.Excerpt.Query
import TransactLint.Proofs.Spelling

/-!
# Parentheses around an expression

What stands in parentheses is an excerpt, so an expression in parentheses is an expression again, except
where the parenthesis is taken to open a query.
-/

namespace TransactLint

def Terminals.enclose (l : Terminal) (ts : Terminals) (r : Terminal) : Terminals := #[l] ++ ts ++ #[r]

namespace Terminals

variable {l r : Terminal} {ts : Terminals}

@[simp] theorem size_enclose : (enclose l ts r).size = ts.size + 2 := by
  simp only [enclose, Array.size_append, List.size_toArray, List.length_cons, List.length_nil]
  omega

theorem token?_enclose_first : (enclose l ts r).token? 0 = some l.token := by
  have hfirst : (enclose l ts r)[0]? = some l := by
    rw [enclose, Array.append_assoc, Array.getElem?_append_left (by simp)]
    rfl
  rw [token?, hfirst]
  rfl

theorem token?_enclose_last : (enclose l ts r).token? (ts.size + 1) = some r.token := by
  simp [token?, enclose]

theorem getElem?_enclose {i : Nat} (h : i < ts.size) : (enclose l ts r)[i + 1]? = ts[i]? := by
  simp [enclose, Array.getElem?_append, Array.getElem?_push, h, Nat.ne_of_lt h]

end Terminals

open Terminals in
def Excerpt.enclosed {l r : Terminal} {ts : Terminals} (hr : r.token.kind = .rightParen) :
    Excerpt ts (enclose l ts r) where
  shift := 1
  get {i x} h := by
    obtain ⟨hi, -⟩ := Array.getElem?_eq_some_iff.mp h
    rw [getElem?_enclose hi, h]
  ends {t} h := by
    rw [token?_enclose_last] at h
    cases h
    exact .inl hr
  after h := by
    obtain ⟨t, ht, hkind, -⟩ := isSeparator_token h
    rw [token?_enclose_last] at ht
    cases ht
    rw [hr] at hkind
    cases hkind

namespace Grammar

open TransactLint.Parser

/-! ## Where a query is taken to begin -/

section
variable {ts : Terminals} {pos mid : Nat} {inner : Level}

theorem startsQuery_begins (h : ts.startsQuery pos = true) :
    ts.isKind pos .leftParen = true ∨ ts.isKeyword pos .SELECT = true ∨ ts.isKeyword pos .WITH = true := by
  unfold Terminals.startsQuery at h
  rw [Bool.or_eq_true] at h
  rcases h with hselect | hwith
  · cases hn : ts.size - pos with
    | zero =>
      rw [hn] at hselect
      exact .inr (.inl hselect)
    | succ n =>
      rw [hn, Terminals.pastParens] at hselect
      split at hselect
      · exact .inl ‹_›
      · exact .inr (.inl hselect)
  · exact .inr (.inr hwith)

theorem startsQuery_of_identifier {t : Token} (ht : ts.token? pos = some t) (hident : t.isIdentifier = true) :
    ts.startsQuery pos = false := by
  rw [Bool.eq_false_iff]
  intro hstarts
  rcases startsQuery_begins hstarts with h | h | h
  · rw [not_isKind_of_identifier ht hident rfl] at h
    cases h
  · rw [Terminals.isKeyword, not_isKind_of_identifier ht hident rfl] at h
    cases h
  · rw [Terminals.isKeyword, not_isKind_of_identifier ht hident rfl] at h
    cases h

/-- Another opening parenthesis before a query changes nothing, if the query begins with `SELECT`. -/
theorem startsQuery_succ (hparen : ts.isKind pos .leftParen = true) (h : ts.startsQuery pos = true) :
    ts.startsQuery (pos + 1) = true := by
  have hlt := isKind_lt hparen
  unfold Terminals.startsQuery at *
  rw [Bool.or_eq_true] at *
  rcases h with hselect | hwith
  · obtain ⟨n, hn⟩ : ∃ n, ts.size - pos = n + 1 := ⟨ts.size - pos - 1, by omega⟩
    rw [hn, Terminals.pastParens, if_pos hparen] at hselect
    rw [show ts.size - (pos + 1) = n by omega]
    exact .inl hselect
  · obtain ⟨t, ht, hkind⟩ := Terminals.isKind_iff.mp hparen
    obtain ⟨u, hu, hkind'⟩ := Terminals.isKind_iff.mp hwith
    rw [ht] at hu
    cases hu
    rw [hkind] at hkind'
    cases hkind'

def continuesQuery (t : Token) : Bool :=
  match t.kind with
  | .keyword .UNION | .keyword .EXCEPT | .keyword .INTERSECT | .keyword .ORDER | .keyword .OPTION => true
  | _ => t.isWord "OFFSET"

theorem queryExpr_of_parenthesized {q : Query} (hparen : ts.isKind pos .leftParen = true)
    (hq : inner.query ts (pos + 1) = .ok (q, mid)) (hclose : ts.isKind mid .rightParen = true)
    (hunion : ts.isKeyword (mid + 1) .UNION = false) (hexcept : ts.isKeyword (mid + 1) .EXCEPT = false)
    (hintersect : ts.isKeyword (mid + 1) .INTERSECT = false) :
    queryExpr inner ts pos = .ok (⟨.parenthesized q, ts.span pos (mid + 1)⟩, mid + 1) := by
  have hterm : queryTerm inner ts pos = .ok (⟨.parenthesized q, ts.span pos (mid + 1)⟩, mid + 1) := by
    refine spanned_of_ok ?_
    rw [bind_of_ok (consume_of_isKind hparen), if_pos rfl, bind_of_ok hq, bind_of_ok (expect_of_isKind hclose)]
    rfl
  have hset : setOperation ts (mid + 1) = .ok (none, mid + 1) := by
    have hoperator : setOperator ts (mid + 1) = .ok (none, mid + 1) := by
      rw [setOperator, bind_of_ok (consumeKeyword_of_not hunion), if_neg (by simp),
        bind_of_ok (consumeKeyword_of_not hexcept), if_neg (by simp), bind_of_ok (consumeKeyword_of_not hintersect)]
      rfl
    rw [setOperation, bind_of_ok hoperator]
    rfl
  exact leftChain_of_none hterm hset

theorem isKeyword_of_isKind {kind : TokenKind} (h : ts.isKind pos kind = true) {word : Keyword}
    (hne : kind ≠ .keyword word) : ts.isKeyword pos word = false :=
  not_isKind_of_isKind h hne

/-- A query in parentheses is a query, and ends where nothing of a query follows. -/
theorem query_of_parenthesized {q : Query} (hparen : ts.isKind pos .leftParen = true)
    (hq : inner.query ts (pos + 1) = .ok (q, mid)) (hclose : ts.isKind mid .rightParen = true)
    (hend : ∀ t, ts.token? (mid + 1) = some t → continuesQuery t = false) :
    query inner ts pos = .ok (⟨[], ⟨.parenthesized q, ts.span pos (mid + 1)⟩, [], none, none,
      ts.span pos (mid + 1)⟩, mid + 1) := by
  have hnot : ∀ word, (∀ t : Token, t.kind = .keyword word → continuesQuery t = true) →
      ts.isKeyword (mid + 1) word = false := by
    intro word hword
    rw [Bool.eq_false_iff]
    intro h
    obtain ⟨t, ht, hkind⟩ := Terminals.isKind_iff.mp h
    have hcontinues := hword t hkind
    rw [hend t ht] at hcontinues
    cases hcontinues
  have hwith := isKeyword_of_isKind hparen (show TokenKind.leftParen ≠ .keyword .WITH by simp)
  have hoffset : ts.isWord (mid + 1) "OFFSET" = false := by
    unfold Terminals.isWord
    cases ht : ts.token? (mid + 1) with
    | none => rfl
    | some t =>
      have h := hend t ht
      unfold continuesQuery at h
      split at h <;> first | cases h | exact h
  have horder := hnot .ORDER fun t ht => by simp [continuesQuery, ht]
  have hoption := hnot .OPTION fun t ht => by simp [continuesQuery, ht]
  have hexpr := queryExpr_of_parenthesized hparen hq hclose (hnot .UNION fun t ht => by simp [continuesQuery, ht])
    (hnot .EXCEPT fun t ht => by simp [continuesQuery, ht]) (hnot .INTERSECT
      fun t ht => by simp [continuesQuery, ht])
  have hatOrder : atKeyword .ORDER ts (mid + 1) = .ok (false, mid + 1) := by rw [atKeyword, look, horder]
  rw [query, position, bind_look, bind_of_ok (listIf_of_not (consumeKeyword_of_not hwith)), bind_of_ok hexpr,
    bind_of_ok (listIf_of_not hatOrder), bind_of_ok (optionIf_of_not (consumeWord_of_not hoffset)),
    bind_of_ok (consumeKeyword_of_not hoption)]
  rfl

/-- An operator does not go on with a query. -/
theorem not_continuesQuery {t : Token} (hspelled : t.Spelled) (h : Rank.disjunction.continues t.kind = true) :
    continuesQuery t = false := by
  unfold continuesQuery
  split
  case h_6 =>
    cases hkind : t.kind with
    | keyword k => exact hspelled.not_isWord hkind (by decide)
    | identifier =>
      rw [hkind] at h
      cases h
    | _ => simp [Token.isWord, hkind]
  all_goals rename_i hkind; rw [hkind] at h; cases h

theorem primary_of_isKind {a : Expr × Nat} (h : disjunction inner ts pos = .ok a) {kind : TokenKind}
    (hkind : ts.isKind pos kind = true) (hsign : signOperator kind = none) (hnot : kind ≠ .keyword .NOT) :
    beginsPrimary kind = true ∧ ∃ a, primary inner ts pos = .ok a := by
  obtain ⟨t, ht, rfl⟩ := Terminals.isKind_iff.mp hkind
  exact Rank.primary_of_rank (r := .disjunction) ht hsign hnot h

theorem subquery_of_disjunction {a : Expr × Nat} (h : disjunction inner ts pos = .ok a)
    (hparen : ts.isKind pos .leftParen = true) (hstarts : ts.startsQuery (pos + 1) = true) :
    ∃ q mid, inner.query ts (pos + 1) = .ok (q, mid) ∧ ts.isKind mid .rightParen = true := by
  obtain ⟨-, a, ha⟩ := primary_of_isKind h hparen rfl (by simp)
  exact subquery_of_primary hparen hstarts ha

/-- An expression never begins with `SELECT` or `WITH`. -/
theorem paren_of_startsQuery {a : Expr × Nat} (h : disjunction inner ts pos = .ok a)
    (hstarts : ts.startsQuery pos = true) : ts.isKind pos .leftParen = true := by
  rcases startsQuery_begins hstarts with hparen | hselect | hwith
  · exact hparen
  · exact absurd (primary_of_isKind h hselect rfl (by simp)).1 (by decide)
  · exact absurd (primary_of_isKind h hwith rfl (by simp)).1 (by decide)

/-! ## Expressions -/

variable {l r : Terminal}

theorem opens_enclose (hl : l.token.kind = .leftParen) : (Terminals.enclose l ts r).isKind 0 .leftParen = true := by
  rw [Terminals.isKind, Terminals.token?_enclose_first]
  simp [hl]

theorem closes_enclose (hr : r.token.kind = .rightParen) :
    (Terminals.enclose l ts r).isKind (ts.size + 1) .rightParen = true := by
  rw [Terminals.isKind, Terminals.token?_enclose_last]
  simp [hr]

theorem endsAt_enclose (rank : Rank) : rank.EndsAt (Terminals.enclose l ts r) (ts.size + 2) :=
  .of_none (Terminals.token?_of_le (by simp))

/-- What follows the first query in parentheses, if anything does, is seen after it in parentheses again. -/
theorem token?_enclose_of_lt (hr : r.token.kind = .rightParen) {k : Nat} (h : k < ts.size) :
    (Terminals.enclose l ts r).token? (k + 1) = ts.token? k :=
  Excerpt.token?_eq (ρ := .enclosed hr) h

section
variable (hr : r.token.kind = .rightParen) {n k : Nat} {q : Query} (hparen : ts.isKind 0 .leftParen = true)
  (hq : (level n).query ts 1 = .ok (q, k)) (hclose : ts.isKind k .rightParen = true)
include hr hparen hq hclose

/-- A query in parentheses, in parentheses again. -/
theorem query_enclose (hend : ∀ t, (Terminals.enclose l ts r).token? (k + 2) = some t →
    continuesQuery t = false) :
    (level (n + 1)).query (Terminals.enclose l ts r) 1 =
      .ok (⟨[], ⟨.parenthesized q, ts.span 0 (k + 1)⟩, [], none, none, ts.span 0 (k + 1)⟩, k + 2) := by
  let ρ : Excerpt ts (Terminals.enclose l ts r) := .enclosed hr
  have hk := isKind_lt hclose
  have hq' : (level n).query (Terminals.enclose l ts r) 2 = .ok (q, k + 1) :=
    (((level_persists (ρ := ρ) (Nat.le_refl n)).query 1 ts.size).here (isKind_lt hparen) k q hq).same (by omega)
  have hparen' : (Terminals.enclose l ts r).isKind 1 .leftParen = true :=
    (ρ.isKind_inside (isKind_lt hparen) _).trans hparen
  have hclose' : (Terminals.enclose l ts r).isKind (k + 1) .rightParen = true :=
    (ρ.isKind_inside hk _).trans hclose
  have hspan : (Terminals.enclose l ts r).span 1 (k + 2) = ts.span 0 (k + 1) := ρ.span_eq (Nat.succ_pos k) hk
  have hquery := query_of_parenthesized hparen' hq' hclose' hend
  rw [hspan] at hquery
  exact hquery

/-- Where nothing follows the query the pair around it holds the query and no more. -/
theorem query_enclose_whole (hsize : k + 1 = ts.size) : ∃ q', q'.body.kind = .parenthesized q ∧
    (level (n + 1)).query (Terminals.enclose l ts r) 1 = .ok (q', ts.size + 1) := by
  rw [← hsize]
  refine ⟨_, rfl, query_enclose hr hparen hq hclose fun t ht => ?_⟩
  rw [show k + 2 = ts.size + 1 by omega, Terminals.token?_enclose_last] at ht
  cases ht
  simp [continuesQuery, hr, Token.isWord]

/-- Where anything but a clause of it follows the query, no parenthesis closes the pair around it. -/
theorem not_closes_enclose {t : Token} (ht : ts.token? (k + 1) = some t) (hnot : continuesQuery t = false)
    (hkind : t.kind ≠ .rightParen) {q' : Query} {k' : Nat}
    (hq' : (level (n + 1)).query (Terminals.enclose l ts r) 1 = .ok (q', k')) :
    (Terminals.enclose l ts r).isKind k' .rightParen = false := by
  have ht' := (token?_enclose_of_lt (l := l) hr (token?_isSome (by rw [ht]; rfl))).trans ht
  rw [query_enclose hr hparen hq hclose fun u hu => by cases ht'.symm.trans hu; exact hnot] at hq'
  cases hq'
  rw [isKind_of_token ht']
  exact beq_false_of_ne hkind

end

/-- An expression that goes on after its first primary expression is an operation, and an operator stands
there. -/
theorem operation_of_ne {e x : Expr} {last : Nat} {t : Token} (h : disjunction inner ts pos = .ok (e, last))
    (hfirst : primary inner ts pos = .ok (x, mid)) (hne : mid ≠ last) (ht : ts.token? mid = some t) :
    isOperation e.kind = true ∧ Rank.disjunction.continues t.kind = true := by
  constructor
  · rcases Rank.parser_ok (r := .disjunction) h with hprimary | hoperation
    · rw [hfirst] at hprimary
      cases hprimary
      exact absurd rfl hne
    · exact hoperation
  · by_contra hnot
    have hend : Rank.disjunction.EndsAt ts mid := by
      intro u hu
      rw [ht] at hu
      cases hu
      exact Bool.eq_false_iff.mpr hnot
    have hwhole := disjunction_of_primary hfirst hend
    rw [h] at hwhole
    cases hwhole
    exact hne rfl

section
variable (hl : l.token.kind = .leftParen) (hr : r.token.kind = .rightParen) {n : Nat} {e : Expr}
  (h : (level n).expression ts 0 = .ok (e, ts.size))
include hl hr h

theorem expression_enclose (hstarts : ts.startsQuery 0 = false) :
    (level (n + 1)).expression (Terminals.enclose l ts r) 0 =
      .ok (⟨.nested e, (Terminals.enclose l ts r).span 0 (ts.size + 2)⟩, ts.size + 2) := by
  let ρ : Excerpt ts (Terminals.enclose l ts r) := .enclosed hr
  have he : (level n).expression (Terminals.enclose l ts r) 1 = .ok (e, ts.size + 1) :=
    (((level_persists (ρ := ρ) (Nat.le_refl n)).expression 0 ts.size).here (Nat.zero_le _) ts.size e h).same
      (Nat.le_refl _)
  have hstarts' : (Terminals.enclose l ts r).startsQuery 1 = false :=
    (ρ.startsQuery_eq (Nat.zero_le _)).trans hstarts
  have hprimary := primary_of_nested (opens_enclose hl) hstarts' he (closes_enclose hr)
  exact disjunction_of_primary hprimary (endsAt_enclose _)

/-- An expression that begins with a query in parentheses can be put in parentheses only if it is no more
than that. -/
theorem expression_enclose_query (hspelled : ts.Spelled) (hstarts : ts.startsQuery 0 = true) :
    (∃ q q' span, e.kind = .subquery q ∧ q'.body.kind = .parenthesized q ∧
      (level (n + 1)).expression (Terminals.enclose l ts r) 0 = .ok (⟨.subquery q', span⟩, ts.size + 2)) ∨
    ((∀ q, e.kind ≠ .subquery q) ∧
      ∀ a, (level (n + 1)).expression (Terminals.enclose l ts r) 0 ≠ .ok a) := by
  obtain _ | n := n
  · exact absurd h failTooDeep_ne_ok
  have hexpr : disjunction (level n) ts 0 = .ok (e, ts.size) := h
  have hparen := paren_of_startsQuery hexpr hstarts
  have hinside := startsQuery_succ hparen hstarts
  obtain ⟨q, k, hq, hclose⟩ := subquery_of_disjunction hexpr hparen hinside
  have hfirst := primary_of_subquery hparen hinside hq hclose
  have hstarts' : (Terminals.enclose l ts r).startsQuery 1 = true :=
    (Excerpt.startsQuery_eq (ρ := .enclosed hr) (Nat.zero_le _)).trans hstarts
  rcases Nat.lt_or_eq_of_le (isKind_lt hclose) with hlt | hsize
  · -- something follows the query, and it is an operator
    obtain ⟨t, ht⟩ : ∃ t, ts.token? (k + 1) = some t := by simp [Terminals.token?, hlt]
    obtain ⟨hoperation, hcontinues⟩ := operation_of_ne hexpr hfirst (Nat.ne_of_lt hlt) ht
    refine .inr ⟨fun q' hkind => ?_, fun a ha => ?_⟩
    · rw [hkind] at hoperation
      cases hoperation
    · obtain ⟨q', k', hq', hclose'⟩ := subquery_of_disjunction ha (opens_enclose hl) hstarts'
      have hne : t.kind ≠ .rightParen := by
        intro hkind
        rw [hkind] at hcontinues
        cases hcontinues
      rw [not_closes_enclose hr hparen hq hclose ht (not_continuesQuery (hspelled _ t ht) hcontinues) hne hq']
        at hclose'
      cases hclose'
  · -- nothing follows the query
    have hwhole := disjunction_of_primary hfirst (.of_none (Terminals.token?_of_le (Nat.le_of_eq hsize.symm)))
    rw [hexpr] at hwhole
    simp only [Except.ok.injEq, Prod.mk.injEq] at hwhole
    obtain ⟨rfl, -⟩ := hwhole
    obtain ⟨q', hbody, hquery⟩ := query_enclose_whole (l := l) hr hparen hq hclose hsize
    have hprimary := primary_of_subquery (opens_enclose hl) hstarts' hquery (closes_enclose hr)
    exact .inl ⟨q, q', _, rfl, hbody, disjunction_of_primary hprimary (endsAt_enclose _)⟩

end

end

end Grammar

end TransactLint
