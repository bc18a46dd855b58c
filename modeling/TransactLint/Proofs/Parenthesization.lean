import TransactLint.Proofs.Enclosure

/-!
# Parentheses around an expression or a table source

An expression in parentheses is an expression again, and a table source a table source, except where the
parenthesis is taken to open a query. It is taken so by what follows the opening parentheses alone, so
whatever begins with a query in parentheses and goes on after it cannot be put in parentheses.
-/

namespace TransactLint

def ExprKind.isSubquery : ExprKind → Bool
  | .subquery _ => true
  | _ => false

def TableSourceKind.isBareDerived : TableSourceKind → Bool
  | .derived _ none [] => true
  | _ => false

theorem ExprKind.isSubquery_iff {kind : ExprKind} : kind.isSubquery = true ↔ ∃ q, kind = .subquery q := by
  cases kind <;> simp [isSubquery]

theorem TableSourceKind.isBareDerived_iff {kind : TableSourceKind} :
    kind.isBareDerived = true ↔ ∃ q, kind = .derived q none [] := by
  unfold isBareDerived
  split <;> simp_all

end TransactLint

namespace TransactLint.Grammar

open TransactLint.Parser

variable {ts : Terminals} {pos mid : Nat} {inner : Level}

/-! ## Sources in parentheses -/

section
variable (hparen : ts.isKind pos .leftParen = true)
include hparen

theorem factorWithin_of_paren (n : Nat) : factorWithin inner (n + 1) ts pos =
    spanned TableSource.mk (do
      let _ ← skip
      if ← look Terminals.startsQuery then derivedTable inner
      else parenthesizedSource inner (factorWithin inner n)) ts pos := by
  rw [factorWithin]
  unfold spanned
  rw [bind_of_ok (consume_of_isKind hparen), if_pos rfl, bind_of_ok (skip_of_lt (isKind_lt hparen))]

theorem tableFactor_of_derived {kind : TableSourceKind} (hstarts : ts.startsQuery (pos + 1) = true)
    (h : derivedTable inner ts (pos + 1) = .ok (kind, mid)) :
    tableFactor inner ts pos = .ok (⟨kind, ts.span pos mid⟩, mid) := by
  rw [tableFactor, factorWithin_of_paren hparen]
  refine spanned_of_ok ?_
  rw [bind_of_ok (skip_of_lt (isKind_lt hparen)), bind_look, hstarts]
  exact h

theorem tableFactor_of_source {s : TableSource} (hstarts : ts.startsQuery (pos + 1) = false)
    (h : joined inner (factorWithin inner (ts.size - pos)) ts (pos + 1) = .ok (s, mid))
    (hclose : ts.isKind mid .rightParen = true) :
    tableFactor inner ts pos = .ok (⟨.parenthesized s, ts.span pos (mid + 1)⟩, mid + 1) := by
  rw [tableFactor, factorWithin_of_paren hparen]
  refine spanned_of_ok ?_
  rw [bind_of_ok (skip_of_lt (isKind_lt hparen)), bind_look, hstarts, if_neg (by simp), parenthesizedSource,
    bind_of_ok h, bind_of_ok (expect_of_isKind hclose)]
  rfl

theorem derived_of_tableFactor {s : TableSource} (hstarts : ts.startsQuery (pos + 1) = true)
    (h : tableFactor inner ts pos = .ok (s, mid)) :
    ∃ kind, derivedTable inner ts (pos + 1) = .ok (kind, mid) ∧ s = ⟨kind, ts.span pos mid⟩ := by
  rw [tableFactor, factorWithin_of_paren hparen] at h
  obtain ⟨kind, hkind, rfl⟩ := spanned_ok h
  rw [bind_of_ok (skip_of_lt (isKind_lt hparen)), bind_look, hstarts] at hkind
  exact ⟨kind, hkind, rfl⟩

end

theorem objectName_of_keyword {word : Keyword} (h : ts.isKeyword pos word = true) {a : ObjectName × Nat} :
    objectName ts pos ≠ .ok a := by
  intro hname
  obtain ⟨t, ht, hkind⟩ := Terminals.isKind_iff.mp h
  obtain ⟨parts, hparts, -⟩ := spanned_ok hname
  have hvariable : ts.isKind pos .localVariable = false := by simp [Terminals.isKind, ht, hkind]
  have hident : ts.isIdentifier pos = false := by
    simp [Terminals.isIdentifier, ht, Token.isIdentifier, hkind, TokenKind.isIdentifier]
  rw [atKind, bind_look, hvariable, if_neg (by simp)] at hparts
  obtain ⟨first, mid, hfirst, -⟩ := bind_ok hparts
  rw [ident, bind_look, hident] at hfirst
  exact absurd hfirst failExpected_ne_ok

/-- A table is never named by `SELECT` or `WITH`. -/
theorem paren_of_tableFactor {a : TableSource × Nat} (h : tableFactor inner ts pos = .ok a)
    (hstarts : ts.startsQuery pos = true) : ts.isKind pos .leftParen = true := by
  by_contra hparen
  have hnot : ts.isKind pos .leftParen = false := Bool.eq_false_iff.mpr hparen
  rw [tableFactor, factorWithin] at h
  obtain ⟨kind, hkind, -⟩ := spanned_ok h
  rw [bind_of_ok (consume_of_not hnot), if_neg (by simp)] at hkind
  obtain ⟨name, mid, hname, -⟩ := bind_ok hkind
  rcases startsQuery_begins hstarts with hparen' | hselect | hwith
  · exact hparen hparen'
  · exact objectName_of_keyword hselect hname
  · exact objectName_of_keyword hwith hname

/-! ## Aliases and joins -/

theorem tableAlias_of_not (has : ts.isKeyword pos .AS = false) (hident : ts.isIdentifier pos = false) :
    tableAlias ts pos = .ok (none, pos) := by
  rw [tableAlias, bind_of_ok (consumeKeyword_of_not has), if_neg (by simp), bind_look,
    Terminals.isBareAlias, hident]
  rfl

theorem tableAlias_stays {pos' : Nat} (h : tableAlias ts pos = .ok (none, pos')) : pos' = pos := by
  rcases ifConsume_ok h with ⟨-, h⟩ | ⟨-, h⟩
  · obtain ⟨_, _, -, h⟩ := bind_ok h
    cases h
  · rw [bind_look] at h
    split at h
    · obtain ⟨_, _, -, h⟩ := bind_ok h
      cases h
    · cases h
      rfl

/-- Only after an alias come columns. -/
theorem columns_ok {aliased : Bool} {columns : List Ident} {pos' : Nat}
    (h : listIf (do pure (aliased && (← atKind .leftParen))) identList ts pos = .ok (columns, pos')) :
    (aliased = true ∧ ts.isKind pos .leftParen = true ∧ identList ts pos = .ok (columns, pos')) ∨
      ((aliased && ts.isKind pos .leftParen) = false ∧ columns = [] ∧ pos' = pos) := by
  have hcondition : (do pure (aliased && (← atKind .leftParen)) : Parser Bool) ts pos =
      .ok ((aliased && ts.isKind pos .leftParen), pos) := rfl
  rw [listIf, bind_of_ok hcondition] at h
  split at h
  · rename_i hboth
    obtain ⟨haliased, hparen⟩ := Bool.and_eq_true_iff.mp hboth
    exact .inl ⟨haliased, hparen, h⟩
  · rename_i hnot
    cases h
    exact .inr ⟨Bool.eq_false_iff.mpr hnot, rfl, rfl⟩

theorem derivedTable_of_none {q : Query} (hq : inner.query ts pos = .ok (q, mid))
    (hclose : ts.isKind mid .rightParen = true) (halias : tableAlias ts (mid + 1) = .ok (none, mid + 1)) :
    derivedTable inner ts pos = .ok (.derived q none [], mid + 1) := by
  rw [derivedTable, bind_of_ok hq, bind_of_ok (expect_of_isKind hclose), bind_of_ok halias]
  rfl

theorem derivedTable_ok {kind : TableSourceKind} {pos' : Nat} (h : derivedTable inner ts pos = .ok (kind, pos')) :
    ∃ q mid aliasName last columns, inner.query ts pos = .ok (q, mid) ∧ ts.isKind mid .rightParen = true ∧
      tableAlias ts (mid + 1) = .ok (aliasName, last) ∧ kind = .derived q aliasName columns ∧
      listIf (do pure (aliasName.isSome && (← atKind .leftParen))) identList ts last = .ok (columns, pos') := by
  obtain ⟨q, mid, hq, h⟩ := bind_ok h
  obtain ⟨_, _, hexpect, h⟩ := bind_ok h
  obtain ⟨hclose, rfl⟩ := expect_ok hexpect
  obtain ⟨aliasName, last, halias, h⟩ := bind_ok h
  obtain ⟨columns, after, hcolumns, h⟩ := bind_ok h
  cases h
  exact ⟨q, mid, aliasName, last, columns, hq, hclose, halias, rfl, hcolumns⟩

def joinWords : List Keyword := [.INNER, .LEFT, .RIGHT, .FULL, .JOIN, .CROSS, .OUTER]

theorem qualifiedJoin_of_not (h : ∀ word ∈ joinWords, ts.isKeyword pos word = false) :
    qualifiedJoin ts pos = .ok (none, pos) := by
  have hkind : joinKind ts pos = .ok (none, pos) := by
    rw [joinKind, bind_of_ok (consumeKeyword_of_not (h _ (by decide))), if_neg (by simp),
      bind_of_ok (consumeKeyword_of_not (h _ (by decide))), if_neg (by simp),
      bind_of_ok (consumeKeyword_of_not (h _ (by decide))), if_neg (by simp),
      bind_of_ok (consumeKeyword_of_not (h _ (by decide))), if_neg (by simp), atKeyword, bind_look, h _ (by decide)]
    rfl
  rw [qualifiedJoin, bind_of_ok hkind]
  rfl

theorem joinStep_of_not (h : ∀ word ∈ joinWords, ts.isKeyword pos word = false) (factor : Parser TableSource)
    (start : Nat) (left : TableSource) : joinStep inner factor start left ts pos = .ok (none, pos) := by
  have hjoin : unqualifiedJoin ts pos = .ok (none, pos) := by
    rw [unqualifiedJoin, bind_of_ok (consumeKeyword_of_not (h _ (by decide))), if_neg (by simp), atKeywordWord,
      bind_look, h _ (by decide), Bool.false_and]
    rfl
  rw [joinStep, bind_of_ok (qualifiedJoin_of_not h)]
  dsimp only
  rw [bind_of_ok hjoin]
  rfl

theorem joinKind_stays {pos' : Nat} (h : joinKind ts pos = .ok (none, pos')) : pos' = pos := by
  have houter : ∀ {join : QualifiedJoin} {start : Nat}, (some <$> outerJoin join) ts start ≠ .ok (none, pos') :=
    map_some_ne_none
  rcases ifConsume_ok h with ⟨-, h⟩ | ⟨-, h⟩
  · cases h
  rcases ifConsume_ok h with ⟨-, h⟩ | ⟨-, h⟩
  · exact absurd h houter
  rcases ifConsume_ok h with ⟨-, h⟩ | ⟨-, h⟩
  · exact absurd h houter
  rcases ifConsume_ok h with ⟨-, h⟩ | ⟨-, h⟩
  · exact absurd h houter
  rw [atKeyword, bind_look] at h
  split at h <;> cases h
  rfl

theorem qualifiedJoin_stays {pos' : Nat} (h : qualifiedJoin ts pos = .ok (none, pos')) : pos' = pos := by
  obtain ⟨kind?, mid, hkind, h⟩ := bind_ok h
  cases kind? with
  | some kind =>
    dsimp only at h
    rw [bind_look] at h
    split at h
    · obtain ⟨_, _, -, h⟩ := bind_ok h
      obtain ⟨_, _, -, h⟩ := bind_ok h
      cases h
    · obtain ⟨_, _, -, h⟩ := bind_ok h
      cases h
  | none =>
    cases h
    exact joinKind_stays hkind

theorem unqualifiedJoin_stays {pos' : Nat} (h : unqualifiedJoin ts pos = .ok (none, pos')) : pos' = pos := by
  rcases ifConsume_ok h with ⟨-, h⟩ | ⟨-, h⟩
  · rcases ifConsume_ok h with ⟨-, h⟩ | ⟨-, h⟩
    · cases h
    · obtain ⟨_, _, -, h⟩ := bind_ok h
      cases h
  · rw [atKeywordWord, bind_look] at h
    split at h
    · obtain ⟨_, _, -, h⟩ := bind_ok h
      cases h
    · cases h
      rfl

def isJoin : TableSourceKind → Bool
  | .qualifiedJoin _ _ _ _ | .unqualifiedJoin _ _ _ => true
  | _ => false

/-- A round of joins that finds none reads nothing, and any other gives a join. -/
theorem joinStep_ok {factor : Parser TableSource} {start : Nat} {left : TableSource} {s? : Option TableSource}
    {pos' : Nat} (h : joinStep inner factor start left ts pos = .ok (s?, pos')) :
    (s? = none ∧ pos' = pos) ∨ ∃ s, s? = some s ∧ isJoin s.kind = true := by
  obtain ⟨join?, mid, hqualified, hrest⟩ := bind_ok h
  cases join? with
  | some join =>
    obtain ⟨right, _, -, hrest⟩ := bind_ok hrest
    obtain ⟨_, _, -, hrest⟩ := bind_ok hrest
    obtain ⟨condition, _, -, hrest⟩ := bind_ok hrest
    cases hrest
    exact .inr ⟨_, rfl, rfl⟩
  | none =>
    obtain ⟨join?, last, hunqualified, hend⟩ := bind_ok hrest
    cases join? with
    | some join =>
      obtain ⟨right, _, -, hend⟩ := bind_ok hend
      cases hend
      exact .inr ⟨_, rfl, rfl⟩
    | none =>
      cases hend
      exact .inl ⟨rfl, (unqualifiedJoin_stays hunqualified).trans (qualifiedJoin_stays hqualified)⟩

theorem joined_ok {factor : Parser TableSource} {s : TableSource} {pos' : Nat}
    (h : joined inner factor ts pos = .ok (s, pos')) :
    factor ts pos = .ok (s, pos') ∨ isJoin s.kind = true := by
  rw [joined, position, bind_look] at h
  obtain ⟨first, mid, hfirst, h⟩ := bind_ok h
  rw [iterate_eq] at h
  rcases rounds_ok h with ⟨rfl, hend | hend⟩ | ⟨left, before, after, hround⟩
  · omega
  · rcases joinStep_ok hend with ⟨-, rfl⟩ | ⟨s, hs, -⟩
    · exact .inl hfirst
    · cases hs
  · rcases joinStep_ok hround with ⟨hs, -⟩ | ⟨s', hs, hjoin⟩
    · cases hs
    · cases hs
      exact .inr hjoin

theorem joined_of_not (inner : Level) {factor : Parser TableSource} {s : TableSource}
    (hfactor : factor ts pos = .ok (s, mid))
    (h : ∀ word ∈ joinWords, ts.isKeyword mid word = false) : joined inner factor ts pos = .ok (s, mid) := by
  rw [joined, position, bind_look, bind_of_ok hfactor]
  exact iterate_of_none (joinStep_of_not h factor pos s)

theorem factor_of_joined {factor : Parser TableSource} {a : TableSource × Nat}
    (h : joined inner factor ts pos = .ok a) :
    ∃ a, factor ts pos = .ok a := by
  rw [joined, position, bind_look] at h
  obtain ⟨first, mid, hfirst, -⟩ := bind_ok h
  exact ⟨_, hfirst⟩

/-! ## A derived table, and what follows it -/

section
variable {s : TableSource} (h : tableSource inner ts pos = .ok (s, ts.size)) (hstarts : ts.startsQuery pos = true)
include h hstarts

/-- A source that is taken to begin with a query begins with a derived table. -/
theorem derived_of_tableSource : ts.isKind pos .leftParen = true ∧ ts.startsQuery (pos + 1) = true ∧
    ∃ q k aliasName last columns mid, inner.query ts (pos + 1) = .ok (q, k) ∧ ts.isKind k .rightParen = true ∧
      tableAlias ts (k + 1) = .ok (aliasName, last) ∧
      listIf (do pure (aliasName.isSome && (← atKind .leftParen))) identList ts last = .ok (columns, mid) ∧
      tableFactor inner ts pos = .ok (⟨.derived q aliasName columns, ts.span pos mid⟩, mid) := by
  obtain ⟨⟨first, mid⟩, hfirst⟩ := factor_of_joined h
  have hparen := paren_of_tableFactor hfirst hstarts
  have hinside := startsQuery_succ hparen hstarts
  obtain ⟨kind, hderived, rfl⟩ := derived_of_tableFactor hparen hinside hfirst
  obtain ⟨q, k, aliasName, last, columns, hq, hclose, halias, rfl, hcolumns⟩ := derivedTable_ok hderived
  exact ⟨hparen, hinside, q, k, aliasName, last, columns, mid, hq, hclose, halias, hcolumns, hfirst⟩

/-- What follows a derived table in a source is an alias or a join. -/
theorem follows_derived {q : Query} {k : Nat} (hq : inner.query ts (pos + 1) = .ok (q, k))
    (hclose : ts.isKind k .rightParen = true) (hlt : k + 1 < ts.size) :
    ts.isKeyword (k + 1) .AS = true ∨ ts.isIdentifier (k + 1) = true ∨
      ∃ word ∈ joinWords, ts.isKeyword (k + 1) word = true := by
  by_contra hnot
  simp only [not_or, Bool.not_eq_true, not_exists, not_and] at hnot
  obtain ⟨hparen, hinside, -⟩ := derived_of_tableSource h hstarts
  have hderived := derivedTable_of_none hq hclose (tableAlias_of_not hnot.1 hnot.2.1)
  have hwhole := joined_of_not inner (tableFactor_of_derived hparen hinside hderived) hnot.2.2
  rw [tableSource] at h
  rw [h] at hwhole
  simp only [Except.ok.injEq, Prod.mk.injEq] at hwhole
  omega

end

/-- After a query in parentheses `OFFSET` begins a clause: a number of rows and the word for them. -/
theorem offset_of_query {q : Query} {a : Query × Nat} (hparen : ts.isKind pos .leftParen = true)
    (hq : inner.query ts (pos + 1) = .ok (q, mid)) (hclose : ts.isKind mid .rightParen = true)
    (hident : ts.isKind (mid + 1) .identifier = true) (hoffset : ts.isWord (mid + 1) "OFFSET" = true)
    (h : query inner ts pos = .ok a) :
    ∃ count last, inner.expression ts (mid + 2) = .ok (count, last) ∧
      (ts.isWord last "ROWS" = true ∨ ts.isWord last "ROW" = true) := by
  have hexpr := queryExpr_of_parenthesized hparen hq hclose (isKeyword_of_isKind hident (by simp))
    (isKeyword_of_isKind hident (by simp)) (isKeyword_of_isKind hident (by simp))
  have horder : atKeyword .ORDER ts (mid + 1) = .ok (false, mid + 1) := by
    rw [atKeyword, look, isKeyword_of_isKind hident (by simp)]
  rw [query, position, bind_look, bind_of_ok (listIf_of_not (consumeKeyword_of_not
    (isKeyword_of_isKind hparen (by simp)))), bind_of_ok hexpr, bind_of_ok (listIf_of_not horder)] at h
  obtain ⟨page, _, hpage, -⟩ := bind_ok h
  rw [optionIf, bind_of_ok (consumeWord_of_isWord hoffset), if_pos rfl] at hpage
  obtain ⟨_, _, hclause, -⟩ := bind_ok hpage
  obtain ⟨count, last, hcount, hclause⟩ := bind_ok hclause
  obtain ⟨_, _, hrows, -⟩ := bind_ok hclause
  exact ⟨count, last, hcount, expectEither_ok hrows⟩

theorem expression_ok {n : Nat} {a : Expr × Nat} (h : (level n).expression ts pos = .ok a) :
    ∃ m, n = m + 1 ∧ disjunction (level m) ts pos = .ok a := by
  cases n with
  | zero => exact absurd h failTooDeep_ne_ok
  | succ m => exact ⟨m, rfl, h⟩

theorem tableAlias_of_identifier {t : Token} (ht : ts.token? pos = some t) (hkind : t.kind = .identifier)
    (hgo : t.isWord "GO" = false) : ∃ name, tableAlias ts pos = .ok (some name, pos + 1) := by
  have hident : t.isIdentifier = true := by rw [Token.isIdentifier, hkind]; rfl
  have has : ts.isKeyword pos .AS = false := by
    rw [Terminals.isKeyword, isKind_of_token ht, hkind]
    rfl
  have hbare : ts.isBareAlias pos = true := by
    simp [Terminals.isBareAlias, Terminals.isIdentifier, Terminals.isSeparator, ht, hident, hgo]
  refine ⟨⟨t.value, quoteOf t, ts.span pos (pos + 1)⟩, ?_⟩
  rw [tableAlias, bind_of_ok (consumeKeyword_of_not has), if_neg (by simp), bind_look, hbare, if_pos rfl]
  exact (bind_of_ok (ident_of_token ht hident)).trans rfl

/-- `LEFT` and `RIGHT` begin a call only before a parenthesis, where they begin no join. -/
theorem joined_of_paren {factor : Parser TableSource} {s : TableSource} {a : TableSource × Nat} {word : Keyword}
    (hfactor : factor ts pos = .ok (s, mid)) (hword : word = .LEFT ∨ word = .RIGHT)
    (hmid : ts.isKeyword mid word = true) (hparen : ts.isKind (mid + 1) .leftParen = true) :
    joined inner factor ts pos ≠ .ok a := by
  intro h
  have hnot : ∀ word, ts.isKeyword (mid + 1) word = false := fun word => isKeyword_of_isKind hparen (by simp)
  have hhint : joinHints.any (ts.isWord (mid + 1)) = false := by
    obtain ⟨t, ht, hkind⟩ := Terminals.isKind_iff.mp hparen
    simp [joinHints, Terminals.isWord, ht, Token.isWord, hkind]
  have houter : ∀ join, (some <$> outerJoin join) ts (mid + 1) = .ok (some join, mid + 1) := by
    intro join
    have houter : outerJoin join ts (mid + 1) = .ok (join, mid + 1) := by
      rw [outerJoin, bind_of_ok (consumeKeyword_of_not (hnot _))]
      rfl
    exact (bind_of_ok houter).trans rfl
  have hkind : ∃ join, joinKind ts mid = .ok (some join, mid + 1) := by
    rcases hword with rfl | rfl
    · refine ⟨.leftOuter, ?_⟩
      rw [joinKind, bind_of_ok (consumeKeyword_of_not (isKeyword_of_isKind hmid (by simp))), if_neg (by simp),
        bind_of_ok (consumeKeyword_of_isKeyword hmid)]
      exact houter _
    · refine ⟨.rightOuter, ?_⟩
      rw [joinKind, bind_of_ok (consumeKeyword_of_not (isKeyword_of_isKind hmid (by simp))), if_neg (by simp),
        bind_of_ok (consumeKeyword_of_not (isKeyword_of_isKind hmid (by simp))), if_neg (by simp),
        bind_of_ok (consumeKeyword_of_isKeyword hmid)]
      exact houter _
  obtain ⟨join, hjoin⟩ := hkind
  -- once the side has been read `JOIN` must follow, and a parenthesis does
  rw [joined, position, bind_look, bind_of_ok hfactor] at h
  obtain ⟨r, hstep⟩ := step_of_iterate h
  obtain ⟨_, _, hqualified, -⟩ := bind_ok hstep
  rw [qualifiedJoin, bind_of_ok hjoin] at hqualified
  dsimp only at hqualified
  rw [bind_look, hhint, if_neg (by simp)] at hqualified
  obtain ⟨_, _, hexpect, -⟩ := bind_ok hqualified
  have hcontra := (expect_ok hexpect).1
  rw [← Terminals.isKeyword, hnot] at hcontra
  cases hcontra

theorem paren_of_keywordCall {a : Expr × Nat} {word : Keyword} (hword : word = .LEFT ∨ word = .RIGHT)
    (hpos : ts.isKeyword pos word = true) (h : primary inner ts pos = .ok a) :
    ts.isKind (pos + 1) .leftParen = true := by
  obtain ⟨t, ht, hkind⟩ := Terminals.isKind_iff.mp hpos
  obtain ⟨kind, hcall, -⟩ := spanned_ok h
  rw [current, bind_look, ht] at hcall
  have hcall : keywordCall inner ts pos = .ok (kind, a.2) := by
    rcases hword with rfl | rfl <;> simpa only [primaryKind, hkind] using hcall
  by_contra hnot
  rw [keywordCall, nextIs, bind_look, Bool.eq_false_iff.mpr hnot] at hcall
  exact absurd hcall failExpected_ne_ok

/-- A list of columns begins with a name, after which it ends or goes on with a comma. -/
theorem identList_ok {columns : List Ident} {pos' : Nat} (h : identList ts pos = .ok (columns, pos')) :
    ts.isKind pos .leftParen = true ∧ ts.isIdentifier (pos + 1) = true ∧
      (ts.isKind (pos + 2) .comma = true ∨ ts.isKind (pos + 2) .rightParen = true ∧ pos' = pos + 3) := by
  obtain ⟨_, _, hopen, h⟩ := bind_ok h
  obtain ⟨hparen, rfl⟩ := expect_ok hopen
  obtain ⟨names, mid, hnames, h⟩ := bind_ok h
  obtain ⟨first, next, hfirst, hrest⟩ := bind_ok hnames
  have hident : ts.isIdentifier (pos + 1) = true := by
    by_contra hnot
    rw [ident, bind_look, Bool.eq_false_iff.mpr hnot] at hfirst
    exact absurd hfirst failExpected_ne_ok
  obtain ⟨t, ht, htoken⟩ : ∃ t, ts.token? (pos + 1) = some t ∧ t.isIdentifier = true := by
    unfold Terminals.isIdentifier at hident
    split at hident
    · exact ⟨_, ‹_›, hident⟩
    · cases hident
  rw [ident_of_token ht htoken] at hfirst
  cases hfirst
  refine ⟨hparen, hident, ?_⟩
  by_cases hcomma : ts.isKind (pos + 2) .comma = true
  · exact .inl hcomma
  · rw [bind_of_ok (many_of_none (optionIf_of_not (consume_of_not (Bool.eq_false_iff.mpr hcomma))))] at hrest
    cases hrest
    obtain ⟨_, _, hexpect, h⟩ := bind_ok h
    obtain ⟨hclose, rfl⟩ := expect_ok hexpect
    cases h
    exact .inr ⟨hclose, rfl⟩

/-- A list of columns is an expression only if it has one column. -/
theorem primary_of_columns {n : Nat} {a : Expr × Nat} (h : disjunction (level n) ts pos = .ok a)
    (hparen : ts.isKind pos .leftParen = true) (hident : ts.isIdentifier (pos + 1) = true)
    (hrest : ts.isKind (pos + 2) .comma = true ∨ ts.isKind (pos + 2) .rightParen = true) :
    ts.isKind (pos + 2) .rightParen = true ∧ ∃ x, primary (level n) ts pos = .ok (x, pos + 3) := by
  obtain ⟨t, ht, htoken⟩ := Terminals.isIdentifier_iff.mp hident
  have hstarts := startsQuery_of_identifier ht htoken
  obtain ⟨-, _, hprimary⟩ := primary_of_isKind h hparen rfl (by simp)
  obtain ⟨e, k, he, hclose⟩ := nested_of_primary hparen hstarts hprimary
  obtain ⟨n, rfl, hinside⟩ := expression_ok he
  obtain ⟨stop, hstop, hends, hperiod, hleft⟩ : ∃ kind, ts.isKind (pos + 2) kind = true ∧
      Rank.disjunction.continues kind = false ∧ kind ≠ .period ∧ kind ≠ .leftParen := by
    rcases hrest with hcomma | hright
    · exact ⟨_, hcomma, rfl, by simp, by simp⟩
    · exact ⟨_, hright, rfl, by simp, by simp⟩
  -- the expression inside is the first column, so it ends where that ends
  have hparts : ReadsAll nextPart ts (pos + 2) [] (pos + 2) := rfl
  have hname := objectName_of_parts ht htoken hparts (not_isKind_of_isKind hstop hperiod)
  have hnot := not_isKind_of_isKind hstop hleft
  have hcolumn := primary_of_column (level n) ht htoken hname hnot hnot
  have hwhole := disjunction_of_primary hcolumn (Rank.endsAt_of_isKind hstop hends)
  rw [hinside] at hwhole
  cases hwhole
  exact ⟨hclose, _, primary_of_nested hparen hstarts he hclose⟩

/-! ## An alias `OFFSET` -/

section
variable {l r : Terminal} (hr : r.token.kind = .rightParen) (hspelled : ts.Spelled)
include hr hspelled

/-- After a source comes the closing parenthesis or a join, and neither goes on with an expression. -/
theorem after_source (h : mid = ts.size ∨ ∃ word ∈ joinWords, ts.isKeyword mid word = true) :
    Rank.disjunction.EndsAt (Terminals.enclose l ts r) (mid + 1) ∧
      ∀ word : String, Keyword.ofWord? word.toList = none →
        (Terminals.enclose l ts r).isWord (mid + 1) word = false := by
  rcases h with rfl | ⟨join, hjoin, hmid⟩
  · have htoken : (Terminals.enclose l ts r).token? (ts.size + 1) = some r.token := Terminals.token?_enclose_last
    refine ⟨fun t ht => ?_, fun word _ => ?_⟩
    · rw [htoken] at ht
      cases ht
      rw [hr]
      rfl
    · simp [Terminals.isWord, htoken, Token.isWord, hr]
  · obtain ⟨u, hu, hkind⟩ := Terminals.isKind_iff.mp hmid
    have htoken := (token?_enclose_of_lt (l := l) hr (isKind_lt hmid)).trans hu
    refine ⟨fun t ht => ?_, fun word hword => ?_⟩
    · rw [htoken] at ht
      cases ht
      rw [hkind]
      simp only [joinWords, List.mem_cons, List.not_mem_nil, or_false] at hjoin
      rcases hjoin with rfl | rfl | rfl | rfl | rfl | rfl | rfl <;> rfl
    · rw [Terminals.isWord, htoken]
      exact (hspelled mid u hu).not_isWord hkind hword

variable {n : Nat} {s first : TableSource} {columns : List Ident} {p m last : Nat} {count : Expr}
  (h : tableSource (level n) ts 0 = .ok (s, ts.size)) (hfirst : tableFactor (level n) ts 0 = .ok (first, m))
include h hfirst

omit hr hspelled in
theorem ends_or_joins : m = ts.size ∨ ∃ word ∈ joinWords, ts.isKeyword m word = true := by
  by_contra hnot
  simp only [not_or, not_exists, not_and, Bool.not_eq_true] at hnot
  have hwhole := joined_of_not (level n) hfirst hnot.2
  rw [tableSource] at h
  rw [h] at hwhole
  simp only [Except.ok.injEq, Prod.mk.injEq] at hwhole
  exact hnot.1 hwhole.2.symm

omit hspelled in
/-- No expression begins where a source ends: `LEFT` and `RIGHT` would have to be functions, and then the
join would not have been read. -/
theorem not_expression_after_source {n' : Nat} {a : Expr × Nat} :
    disjunction (level n') (Terminals.enclose l ts r) (m + 1) ≠ .ok a := by
  intro hexpr
  let ρ : Excerpt ts (Terminals.enclose l ts r) := .enclosed hr
  rcases ends_or_joins h hfirst with rfl | ⟨join, hjoin, hmid⟩
  · exact absurd (primary_of_isKind hexpr (closes_enclose hr) rfl (by simp)).1 (by decide)
  · have hmid' : (Terminals.enclose l ts r).isKeyword (m + 1) join = true :=
      (ρ.isKind_inside (isKind_lt hmid) _).trans hmid
    have hne : TokenKind.keyword join ≠ .keyword .NOT := by
      rintro ⟨rfl⟩
      exact absurd hjoin (by decide)
    obtain ⟨hbegins, a, hprimary⟩ := primary_of_isKind hexpr hmid' rfl hne
    have hside : join = .LEFT ∨ join = .RIGHT := by
      simp only [joinWords, List.mem_cons, List.not_mem_nil, or_false] at hjoin
      rcases hjoin with rfl | rfl | rfl | rfl | rfl | rfl | rfl <;>
        first | exact .inl rfl | exact .inr rfl | cases hbegins
    have hcall := paren_of_keywordCall hside hmid' hprimary
    have hparen' : ts.isKind (m + 1) .leftParen = true := by
      rw [← hcall]
      exact (ρ.isKind_eq (isKind_lt hmid) (by decide)).symm
    exact joined_of_paren hfirst hside hmid hparen' h

/-- What may follow an alias, columns or a join, is no number of rows. -/
theorem not_rows_of_alias
    (hcolumns : listIf (do pure (true && (← atKind .leftParen))) identList ts p = .ok (columns, m))
    (hcount : (level n).expression (Terminals.enclose l ts r) (p + 1) = .ok (count, last)) {word : String}
    (hword : Keyword.ofWord? word.toList = none) : (Terminals.enclose l ts r).isWord last word = false := by
  obtain ⟨n, rfl, hexpr⟩ := expression_ok hcount
  let ρ : Excerpt ts (Terminals.enclose l ts r) := .enclosed hr
  rcases columns_ok hcolumns with ⟨-, hparen, hlist⟩ | ⟨hparen, rfl, rfl⟩
  · -- one column in parentheses is an expression, but no word for rows follows it
    have hafter := after_source (l := l) hr hspelled (ends_or_joins h hfirst)
    obtain ⟨-, hident, hrest⟩ := identList_ok hlist
    have hkind : ∀ kind, ts.isKind (p + 2) kind = true →
        (Terminals.enclose l ts r).isKind (p + 3) kind = true :=
      fun kind hkind => (ρ.isKind_inside (isKind_lt hkind) kind).trans hkind
    have hparen' : (Terminals.enclose l ts r).isKind (p + 1) .leftParen = true :=
      (ρ.isKind_inside (isKind_lt hparen) _).trans hparen
    have hident' : (Terminals.enclose l ts r).isIdentifier (p + 2) = true :=
      (ρ.isIdentifier_eq (Terminals.isIdentifier_lt hident)).trans hident
    obtain ⟨hclose, x, hnested⟩ := primary_of_columns hexpr hparen' hident'
      (hrest.imp (hkind _) fun hright => hkind _ hright.1)
    have hm : m = p + 3 := by
      rcases hrest with hcomma | ⟨-, hm⟩
      · rw [not_isKind_of_isKind (hkind _ hcomma) (by simp)] at hclose
        cases hclose
      · exact hm
    rw [show p + 1 + 3 = m + 1 by omega] at hnested
    have hlast := disjunction_of_primary hnested hafter.1
    rw [hexpr] at hlast
    cases hlast
    exact hafter.2 word hword
  · exact absurd hexpr (not_expression_after_source hr h hfirst)

/-- An alias `OFFSET` would begin a clause of the query before it. -/
theorem query_enclose_offset {t : Token} {q : Query} {k : Nat} {aliasName : Option Ident}
    (hparen : ts.isKind 0 .leftParen = true) (hq : (level n).query ts 1 = .ok (q, k))
    (hclose : ts.isKind k .rightParen = true)
    (ht : ts.token? (k + 1) = some t) (hkind : t.kind = .identifier) (hoffset : t.isWord "OFFSET" = true)
    (halias : tableAlias ts (k + 1) = .ok (aliasName, p))
    (hcolumns : listIf (do pure (aliasName.isSome && (← atKind .leftParen))) identList ts p = .ok (columns, m))
    {a : Query × Nat} : (level (n + 1)).query (Terminals.enclose l ts r) 1 ≠ .ok a := by
  intro hquery
  let ρ : Excerpt ts (Terminals.enclose l ts r) := .enclosed hr
  have ht' := (token?_enclose_of_lt (l := l) hr (token?_isSome (by rw [ht]; rfl))).trans ht
  have hinner : (level n).query (Terminals.enclose l ts r) 2 = .ok (q, k + 1) :=
    (((level_persists (ρ := ρ) (Nat.le_refl n)).query 1 ts.size).here (isKind_lt hparen) k q hq).same
      (Nat.le_of_lt (isKind_lt hclose))
  have hword : (Terminals.enclose l ts r).isWord (k + 2) "OFFSET" = true := by
    rw [Terminals.isWord, ht', ← hoffset]
  have hident : (Terminals.enclose l ts r).isKind (k + 2) .identifier = true := by
    rw [isKind_of_token ht', hkind]
    rfl
  obtain ⟨count, last, hcount, hrows⟩ := offset_of_query ((ρ.isKind_inside (isKind_lt hparen) _).trans hparen)
    hinner ((ρ.isKind_inside (isKind_lt hclose) _).trans hclose) hident hword hquery
  -- as an alias the word is not followed by a number of rows
  have hgo : t.isWord "GO" = false := Token.not_isWord_of_isWord hoffset (by decide)
  obtain ⟨name, hname⟩ := tableAlias_of_identifier ht hkind hgo
  rw [hname] at halias
  cases halias
  have hnot : ∀ word, Keyword.ofWord? word.toList = none →
      (Terminals.enclose l ts r).isWord last word = false :=
    fun word => not_rows_of_alias hr hspelled h hfirst hcolumns hcount
  rw [hnot _ (by decide), hnot _ (by decide)] at hrows
  simp at hrows

end

/-! ## Table sources -/

section
variable {l r : Terminal} (hl : l.token.kind = .leftParen) (hr : r.token.kind = .rightParen) {n : Nat}
  {s : TableSource} (h : tableSource (level n) ts 0 = .ok (s, ts.size))
include hl hr h

theorem tableFactor_enclose (hstarts : ts.startsQuery 0 = false) :
    tableFactor (level (n + 1)) (Terminals.enclose l ts r) 0 =
      .ok (⟨.parenthesized s, (Terminals.enclose l ts r).span 0 (ts.size + 2)⟩, ts.size + 2) := by
  let ρ : Excerpt ts (Terminals.enclose l ts r) := .enclosed hr
  have hlevel : (level n).Persists ρ (level (n + 1)) := level_persists (Nat.le_succ n)
  have hfactor : Persists ρ 0 ts.size (tableFactor (level n)) (factorWithin (level (n + 1)) (ts.size + 2))
      fun _ => true :=
    fun pos _ hpos => tableFactor_persistsAt hlevel (by omega) hpos
  have hsource : joined (level (n + 1)) (factorWithin (level (n + 1)) (ts.size + 2)) (Terminals.enclose l ts r) 1 =
      .ok (s, ts.size + 1) :=
    (Persists.here (joined_persists hlevel hfactor) (Nat.zero_le _) ts.size s h : ρ.Kept
      _ _ _ (fun _ => true) _ _).same
      (Nat.le_refl _)
  have hstarts' : (Terminals.enclose l ts r).startsQuery 1 = false :=
    (ρ.startsQuery_eq (Nat.zero_le _)).trans hstarts
  exact tableFactor_of_source (opens_enclose hl) hstarts' (by simpa using hsource) (closes_enclose hr)

omit hl hr h in
/-- What follows a derived table goes on with a query only if it is `OFFSET`. -/
theorem not_continuesQuery_of_follows {t : Token} (ht : ts.token? pos = some t) (hspelled : t.Spelled)
    (hfollows : ts.isKeyword pos .AS = true ∨ ts.isIdentifier pos = true ∨
      ∃ word ∈ joinWords, ts.isKeyword pos word = true)
    (hoffset : t.kind = .identifier → t.isWord "OFFSET" = false) :
    continuesQuery t = false ∧ t.kind ≠ .rightParen := by
  have hkeyword : ∀ word, ts.isKeyword pos word = true → t.kind = .keyword word := by
    intro word hword
    rwa [Terminals.isKeyword, isKind_of_token ht, beq_iff_eq] at hword
  have hword : ∀ word, t.kind = .keyword word → t.isWord "OFFSET" = false :=
    fun word hkind => hspelled.not_isWord hkind (by decide)
  rcases hfollows with has | hident | ⟨word, hmem, hjoin⟩
  · have hkind := hkeyword _ has
    simp [continuesQuery, hkind, hword _ hkind]
  · obtain ⟨u, hu, hident⟩ := Terminals.isIdentifier_iff.mp hident
    rw [ht] at hu
    cases hu
    unfold Token.isIdentifier TokenKind.isIdentifier at hident
    split at hident
    · rename_i hkind
      simp [continuesQuery, hkind, hoffset hkind]
    · rename_i hkind
      simp [continuesQuery, hkind, Token.isWord]
    · cases hident
  · have hkind := hkeyword _ hjoin
    simp only [joinWords, List.mem_cons, List.not_mem_nil, or_false] at hmem
    rcases hmem with rfl | rfl | rfl | rfl | rfl | rfl | rfl <;> simp [continuesQuery, hkind, hword _ hkind]

/-- A source that begins with a query in parentheses can be put in parentheses only if it is no more than
that. -/
theorem tableFactor_enclose_query (hspelled : ts.Spelled) (hstarts : ts.startsQuery 0 = true) :
    (∃ q q' span, s.kind = .derived q none [] ∧ q'.body.kind = .parenthesized q ∧
      tableFactor (level (n + 1)) (Terminals.enclose l ts r) 0 = .ok (⟨.derived q' none [], span⟩,
        ts.size + 2)) ∨
    ((∀ q, s.kind ≠ .derived q none []) ∧
      ∀ a, tableFactor (level (n + 1)) (Terminals.enclose l ts r) 0 ≠ .ok a) := by
  obtain ⟨hparen, hinside, q, k, aliasName, last, columns, mid, hq, hclose, halias, hcolumns, hfirst⟩ :=
    derived_of_tableSource h hstarts
  have hstarts' : (Terminals.enclose l ts r).startsQuery 1 = true :=
    (Excerpt.startsQuery_eq (ρ := .enclosed hr) (Nat.zero_le _)).trans hstarts
  rcases Nat.lt_or_eq_of_le (isKind_lt hclose) with hlt | hend
  · -- an alias or a join follows the query
    obtain ⟨t, ht⟩ : ∃ t, ts.token? (k + 1) = some t := by simp [Terminals.token?, hlt]
    refine .inr ⟨fun q' hkind => ?_, fun a ha => ?_⟩
    · rcases joined_ok h with hwhole | hjoin
      · rw [hfirst] at hwhole
        cases hwhole
        cases hkind
        have hlast := tableAlias_stays halias
        rcases columns_ok hcolumns with ⟨halias, -⟩ | ⟨-, -, hmid⟩
        · cases halias
        · omega
      · rw [hkind] at hjoin
        cases hjoin
    · obtain ⟨kind, hderived, -⟩ := derived_of_tableFactor (opens_enclose hl) hstarts' ha
      obtain ⟨q', k', -, -, -, hq', hclose', -⟩ := derivedTable_ok hderived
      by_cases hoffset : t.kind = .identifier ∧ t.isWord "OFFSET" = true
      · exact query_enclose_offset hr hspelled h hfirst hparen hq hclose ht hoffset.1 hoffset.2 halias hcolumns hq'
      · have hnot := not_continuesQuery_of_follows ht (hspelled _ t ht) (follows_derived h hstarts hq hclose hlt)
          fun hkind => Bool.eq_false_iff.mpr fun hword => hoffset ⟨hkind, hword⟩
        rw [not_closes_enclose hr hparen hq hclose ht hnot.1 hnot.2 hq'] at hclose'
        cases hclose'
  · -- nothing follows the query
    have hsize : ts.size ≤ k + 1 := Nat.le_of_eq hend.symm
    have halias' := tableAlias_of_not (Terminals.isKind_of_le hsize (.keyword .AS))
      (Terminals.isIdentifier_of_le hsize)
    have hfirst' := tableFactor_of_derived hparen hinside (derivedTable_of_none hq hclose halias')
    have hwhole := joined_of_not (level n) hfirst' fun word _ => Terminals.isKind_of_le hsize _
    rw [tableSource] at h
    rw [h] at hwhole
    simp only [Except.ok.injEq, Prod.mk.injEq] at hwhole
    obtain ⟨rfl, -⟩ := hwhole
    obtain ⟨q', hbody, hquery⟩ := query_enclose_whole (l := l) hr hparen hq hclose hend
    have hsize' : (Terminals.enclose l ts r).size ≤ ts.size + 2 := Nat.le_of_eq Terminals.size_enclose
    have hnone := tableAlias_of_not (Terminals.isKind_of_le hsize' (.keyword .AS))
      (Terminals.isIdentifier_of_le hsize')
    have hderived := derivedTable_of_none hquery (closes_enclose hr) hnone
    exact .inl ⟨q, q', _, rfl, hbody, tableFactor_of_derived (opens_enclose hl) hstarts' hderived⟩

end

/-- An expression or a table source in parentheses is accepted exactly if it does not begin with a query
in parentheses, or is that query and no more. The parenthesis then holds what it would be alone, or is one
more pair around the query. -/
theorem enclosed_iff {l r : Terminal} {n : Nat} (hl : l.token.kind = .leftParen) (hr : r.token.kind = .rightParen)
    (hspelled : ts.Spelled) :
    (∀ e, (level n).expression ts 0 = .ok (e, ts.size) →
      ((∃ e', (level (n + 1)).expression (Terminals.enclose l ts r) 0 = .ok (e', ts.size + 2)) ↔
        (ts.startsQuery 0 = true → ∃ q, e.kind = .subquery q)) ∧
      ∀ e', (level (n + 1)).expression (Terminals.enclose l ts r) 0 = .ok (e', ts.size + 2) →
        e'.kind = .nested e ∨
        ∃ q q', e.kind = .subquery q ∧ e'.kind = .subquery q' ∧ q'.body.kind = .parenthesized q) ∧
    ∀ s, tableSource (level n) ts 0 = .ok (s, ts.size) →
      ((∃ s', tableFactor (level (n + 1)) (Terminals.enclose l ts r) 0 = .ok (s', ts.size + 2)) ↔
        (ts.startsQuery 0 = true → ∃ q, s.kind = .derived q none [])) ∧
      ∀ s', tableFactor (level (n + 1)) (Terminals.enclose l ts r) 0 = .ok (s', ts.size + 2) →
        s'.kind = .parenthesized s ∨
        ∃ q q', s.kind = .derived q none [] ∧ s'.kind = .derived q' none [] ∧
          q'.body.kind = .parenthesized q := by
  refine ⟨fun e h => ?_, fun s h => ?_⟩
  · by_cases hstarts : ts.startsQuery 0 = true
    · rcases expression_enclose_query hl hr h hspelled hstarts
        with ⟨q, q', span, hkind, hbody, haccepts⟩ | ⟨hkind, hrejects⟩
      · refine ⟨⟨fun _ _ => ⟨q, hkind⟩, fun _ => ⟨_, haccepts⟩⟩,
          fun e' he' => .inr ⟨q, q', hkind, ?_, hbody⟩⟩
        cases haccepts.symm.trans he'
        rfl
      · refine ⟨⟨fun ⟨e', he'⟩ => absurd he' (hrejects _), fun hquery => ?_⟩,
          fun e' he' => absurd he' (hrejects _)⟩
        obtain ⟨q, hq⟩ := hquery hstarts
        exact absurd hq (hkind q)
    · have haccepts := expression_enclose hl hr h (Bool.eq_false_iff.mpr hstarts)
      refine ⟨⟨fun _ hquery => absurd hquery hstarts, fun _ => ⟨_, haccepts⟩⟩, fun e' he' => .inl ?_⟩
      cases haccepts.symm.trans he'
      rfl
  · by_cases hstarts : ts.startsQuery 0 = true
    · rcases tableFactor_enclose_query hl hr h hspelled hstarts with
        ⟨q, q', span, hkind, hbody, haccepts⟩ | ⟨hkind, hrejects⟩
      · refine ⟨⟨fun _ _ => ⟨q, hkind⟩, fun _ => ⟨_, haccepts⟩⟩,
          fun s' hs' => .inr ⟨q, q', hkind, ?_, hbody⟩⟩
        cases haccepts.symm.trans hs'
        rfl
      · refine ⟨⟨fun ⟨s', hs'⟩ => absurd hs' (hrejects _), fun hquery => ?_⟩,
          fun s' hs' => absurd hs' (hrejects _)⟩
        obtain ⟨q, hq⟩ := hquery hstarts
        exact absurd hq (hkind q)
    · have haccepts := tableFactor_enclose hl hr h (Bool.eq_false_iff.mpr hstarts)
      refine ⟨⟨fun _ hquery => absurd hquery hstarts, fun _ => ⟨_, haccepts⟩⟩, fun s' hs' => .inl ?_⟩
      cases haccepts.symm.trans hs'
      rfl

/-- A query in parentheses is an expression and a table source, and so it is in another pair of them. -/
theorem enclosed_iff_query :
    ∃ l r ts e s, l.token.kind = .leftParen ∧ r.token.kind = .rightParen ∧ Terminals.Spelled ts ∧
      (level 3).expression ts 0 = .ok (e, ts.size) ∧ tableSource (level 3) ts 0 = .ok (s, ts.size) ∧
      ts.startsQuery 0 = true ∧
      (∃ e', (level 4).expression (Terminals.enclose l ts r) 0 = .ok (e', ts.size + 2)) ∧
      ∃ s', tableFactor (level 4) (Terminals.enclose l ts r) 0 = .ok (s', ts.size + 2) := by
  obtain ⟨tokens, htokens, l, -, r, -, hl, hr, hstarts, ⟨e, k⟩, he, ⟨s, k'⟩, hs, rfl, rfl,
      hquery, hderived⟩ :
      ∃ tokens ∈ (tokenize "(SELECT 1)").toOption, ∃ l ∈ (Terminals.ofTokens tokens)[0]?,
        ∃ r ∈ (Terminals.ofTokens tokens)[3]?, l.token.kind = .leftParen ∧ r.token.kind = .rightParen ∧
        (Terminals.ofTokens tokens).startsQuery 0 = true ∧
        ∃ e ∈ ((level 3).expression (.ofTokens tokens) 0).toOption,
        ∃ s ∈ (tableSource (level 3) (.ofTokens tokens) 0).toOption,
          e.2 = (Terminals.ofTokens tokens).size ∧ s.2 = (Terminals.ofTokens tokens).size ∧
          e.1.kind.isSubquery = true ∧ s.1.kind.isBareDerived = true := by
    decide +kernel
  have hspelled := Terminals.spelled_of_tokenize (eq_ok_of_mem_toOption htokens)
  have he := eq_ok_of_mem_toOption he
  have hs := eq_ok_of_mem_toOption hs
  obtain ⟨hexpressions, hsources⟩ := enclosed_iff (n := 3) hl hr hspelled
  refine ⟨l, r, _, e, s, hl, hr, hspelled, he, hs, hstarts, (hexpressions e he).1.mpr fun _ => ?_,
    (hsources s hs).1.mpr fun _ => ?_⟩
  · exact ExprKind.isSubquery_iff.mp hquery
  · exact TableSourceKind.isBareDerived_iff.mp hderived

/-- A sum and a join that begin with a query in parentheses are accepted, and are not once they are put in
parentheses themselves, with all of the nesting still left. -/
theorem query_first_not_enclosed :
    (∃ tokens ∈ (tokenize "(SELECT 1) + 1").toOption, ∃ tokens' ∈ (tokenize "((SELECT 1) + 1)").toOption,
      ((level nestingLimit).expression (.ofTokens tokens) 0).toOption.map Prod.snd =
        some (Terminals.ofTokens tokens).size ∧
      ((level nestingLimit).expression (.ofTokens tokens') 0).toOption.isNone = true) ∧
    ∃ tokens ∈ (tokenize "(SELECT 1 AS a) AS x CROSS JOIN t").toOption,
    ∃ tokens' ∈ (tokenize "((SELECT 1 AS a) AS x CROSS JOIN t)").toOption,
      (tableSource (level nestingLimit) (.ofTokens tokens) 0).toOption.map Prod.snd =
        some (Terminals.ofTokens tokens).size ∧
      (tableFactor (level nestingLimit) (.ofTokens tokens') 0).toOption.isNone = true := by
  decide +kernel

end TransactLint.Grammar
