import TransactLint.Proofs.Form.Expression
import TransactLint.Proofs.Layout.Query

/-!
# The form of table sources and queries
-/

namespace TransactLint.Grammar

open TransactLint.Parser
open TransactLint.Node (formed_of_parts formed_succ_of_parts)

variable {ts : Terminals} {inner : Level} {k : Nat} (hinner : inner.Formed ts k)
include hinner

/-! ## Table sources -/

theorem derivedTable_formed : Yields ts (derivedTable inner) (TableSourceKind.Formed ts (k + 1)) := by
  intro pos kind pos' h span
  obtain ⟨n, rfl⟩ := hinner.origin
  obtain ⟨q, mid, hquery, hrest⟩ := bind_ok h
  obtain ⟨_, _, _, hrest⟩ := bind_ok hrest
  obtain ⟨aliasName, _, _, hrest⟩ := bind_ok hrest
  obtain ⟨columns, _, _, hrest⟩ := bind_ok hrest
  cases hrest
  have hq := hinner.query pos q mid hquery
  refine formed_succ_of_parts (n := .tableSource ⟨.derived q aliasName columns, span⟩) ⟨n, pos,
    pos', h⟩ hq.pos ?_
  obtain ⟨k, rfl⟩ : ∃ m, k = m + 1 := ⟨k - 1, by have := hq.pos; omega⟩
  simp [Node.parts, TableSourceKind.parts, or_imp, forall_and, hq]

theorem tableFunction_formed (name : ObjectName) :
    Yields ts (tableFunction inner name) (TableSourceKind.Formed ts (k + 1)) := by
  refine .after fun _ => .after fun _ => (Yields.listIf (expressionList_formed hinner)).bind fun l hl => ?_
  refine .after fun _ => .after fun aliasName => .pure fun span => formed_of_parts trivial rfl k.succ_pos ?_
  simp only [Node.parts, TableSourceKind.parts, List.forall_mem_append, List.forall_mem_cons, List.forall_mem_map]
  exact ⟨⟨Node.formed_objectName name, hl⟩, fun x _ => Node.formed_ident x⟩

theorem namedSource_formed : Yields ts (namedSource inner) (TableSourceKind.Formed ts (k + 1)) := by
  intro pos kind pos' h span
  obtain ⟨n, rfl⟩ := hinner.origin
  obtain ⟨name, mid, _, hrest⟩ := bind_ok h
  rw [atKind, bind_look] at hrest
  split at hrest
  · exact tableFunction_formed hinner name mid kind pos' hrest span
  · obtain ⟨aliasName, _, _, hrest⟩ := bind_ok hrest
    obtain ⟨hints, _, _, hrest⟩ := bind_ok hrest
    cases hrest
    refine formed_of_parts (n := .tableSource ⟨.named name aliasName hints, span⟩) ⟨n, pos, pos',
      h⟩ rfl k.succ_pos ?_
    simp [Node.parts, TableSourceKind.parts, or_imp, forall_and]

/-! ## Joins -/

structure FormsSource (ts : Terminals) (k : Nat) (factor : Parser TableSource) : Prop where
  reads : Reads ts factor fun s => .node (.tableSource s)
  formed : Yields ts factor fun s => (Node.tableSource s).Formed ts k
  span : ∀ pos s pos', factor ts pos = .ok (s, pos') → pos < ts.size ∧ s.span = ts.span pos pos'

/-- What the rounds of joins keep: the source so far takes up all from `start` to `pos`. -/
structure JoinsUpTo (ts : Terminals) (k start : Nat) (s : TableSource) (pos : Nat) : Prop where
  fits : (Layout.node (.tableSource s)).Fits ts start pos
  formed : (Node.tableSource s).Formed ts k
  span : s.span = ts.span start pos

section
variable {factor : Parser TableSource} (hfactor : FormsSource ts (k + 1) factor)
include hfactor

theorem joinStep_keeps {start pos pos' : Nat} {left s : TableSource} (hleft : JoinsUpTo ts (k + 1) start left pos)
    (h : joinStep inner factor start left ts pos = .ok (some s, pos')) : JoinsUpTo ts (k + 1) start s pos' := by
  have hfits := joinStep_lays hinner.reads hfactor.reads start left pos pos' (some s) hleft.fits h
  have hpos := hleft.fits.le.2
  obtain ⟨join?, m, hjoin, h⟩ := bind_ok h
  have hwords := (qualifiedJoin_reads pos pos m join? (.none (Nat.le_refl _) hpos) hjoin).le
  cases join? with
  | some join =>
    obtain ⟨right, b, hright, h⟩ := bind_ok h
    obtain ⟨_, c, hon, h⟩ := bind_ok h
    obtain ⟨condition, _, hcondition, h⟩ := bind_ok h
    cases h
    have hrightFits := hfactor.reads m m b right (.none (Nat.le_refl _) hwords.2) hright
    have honFits := expectKeyword_reads .ON b b c () (.none (Nat.le_refl _) hrightFits.le.2) hon
    have hconditionFits := hinner.reads.expression c c pos' condition (.none (Nat.le_refl _) honFits.le.2)
      hcondition
    obtain ⟨i, j, hi, _, hstands⟩ := hconditionFits.stands_of_mem (List.mem_singleton.mpr rfl)
    -- the words stand between the sources, and the condition behind `ON`
    have hproper : join.Proper ts left right condition start pos m b :=
      { lt := hleft.fits.lt rfl
        left := hleft.span
        words := hjoin
        le := ⟨hwords.1, hrightFits.lt rfl, hrightFits.le.2⟩
        right := (hfactor.span m right b hright).2
        condition := ⟨i, j, Nat.le_trans honFits.le.1 hi, hstands⟩ }
    refine ⟨hfits, formed_of_parts ⟨_, _, _, _, hproper⟩ rfl k.succ_pos ?_, rfl⟩
    have hformed := hfactor.formed m right b hright
    have hoperand := hinner.operand c condition pos' hcondition
    simp [Node.parts, TableSourceKind.parts, hleft.formed, hformed, hoperand]
  | none =>
    obtain ⟨join?, m', _, h⟩ := bind_ok h
    cases join? with
    | some join =>
      obtain ⟨right, _, hright, h⟩ := bind_ok h
      cases h
      refine ⟨hfits, formed_of_parts trivial rfl k.succ_pos ?_, rfl⟩
      have hformed := hfactor.formed m' right pos' hright
      simp [Node.parts, TableSourceKind.parts, hleft.formed, hformed]
    | none => cases h

theorem joined_formed : Yields ts (joined inner factor) fun s => (Node.tableSource s).Formed ts (k + 1) := by
  intro pos s pos' h
  rw [joined, position, bind_look] at h
  obtain ⟨first, mid, hfirst, h⟩ := bind_ok h
  obtain ⟨hpos, hspan⟩ := hfactor.span pos first mid hfirst
  have hfits := hfactor.reads pos pos mid first (.none (Nat.le_refl _) (Nat.le_of_lt hpos)) hfirst
  have hone : JoinsUpTo ts (k + 1) pos first mid := ⟨hfits, hfactor.formed pos first mid hfirst, hspan⟩
  obtain ⟨_, hjoined⟩ := iterate_keeps (fun _ _ _ _ hleft => joinStep_keeps hinner hfactor hleft) hone h
  exact hjoined.formed

theorem parenthesizedSource_formed :
    Yields ts (parenthesizedSource inner factor) (TableSourceKind.Formed ts (k + 1)) := by
  refine (joined_formed hinner hfactor).bind fun s hs => .after fun _ => .pure fun span => ?_
  refine ⟨Node.below_parenthesized hs.below, Node.proper_of_parts trivial ?_⟩
  simpa [Node.parts, TableSourceKind.parts] using hs.proper

end

omit hinner in
theorem namedSource_lt {pos : Nat} {r : TableSourceKind × Nat} (h : namedSource inner ts pos = .ok r) :
    pos < ts.size := by
  obtain ⟨name, _, hname, -⟩ := bind_ok h
  exact objectName_lt hname

omit hinner in
theorem factorWithin_span {n pos pos' : Nat} {s : TableSource} (h : factorWithin inner n ts pos = .ok (s, pos')) :
    pos < ts.size ∧ s.span = ts.span pos pos' := by
  cases n with
  | zero =>
    obtain ⟨kind, hkind, rfl⟩ := spanned_ok h
    exact ⟨namedSource_lt hkind, rfl⟩
  | succ n =>
    obtain ⟨kind, hkind, rfl⟩ := spanned_ok h
    rcases ifConsume_ok hkind with ⟨hparen, -⟩ | ⟨-, hkind⟩
    · exact ⟨isKind_lt hparen, rfl⟩
    · exact ⟨namedSource_lt hkind, rfl⟩

/-- Induction on the parentheses that are left. -/
theorem factorWithin_formed : ∀ n, FormsSource ts (k + 1) (factorWithin inner n)
  | 0 =>
    { reads := factorWithin_reads hinner.reads 0
      formed := .spanned (namedSource_formed hinner) fun _ span h => h span
      span := fun _ _ _ => factorWithin_span }
  | n + 1 =>
    { reads := factorWithin_reads hinner.reads (n + 1)
      formed := by
        refine .spanned (K := TableSourceKind.Formed ts (k + 1)) ?_ fun _ span h => h span
        refine .after fun _ => .ite (.after fun _ => .ite (derivedTable_formed hinner) ?_)
          (namedSource_formed hinner)
        exact parenthesizedSource_formed hinner (factorWithin_formed n)
      span := fun _ _ _ => factorWithin_span }

theorem tableFactor_formed : FormsSource ts (k + 1) (tableFactor inner) :=
  { reads := tableFactor_reads hinner.reads
    formed := fun pos => (factorWithin_formed hinner _).formed pos
    span := fun pos _ _ h => (factorWithin_formed hinner _).span pos _ _ h }

theorem tableSources_formed :
    Yields ts (tableSources inner) fun l => ∀ s ∈ l, (Node.tableSource s).Formed ts (k + 1) :=
  .commaSeparated (joined_formed hinner (tableFactor_formed hinner))

/-! ## Queries -/

theorem whereClause_formed :
    Yields ts (whereClause inner) fun x? => ∀ x ∈ x?, (Node.whereClause x).Formed ts (k + 1) := by
  refine .optionIf (.spanned (.after fun _ => hinner.operand) fun e span he => ?_)
  exact formed_of_parts trivial rfl k.succ_pos (by simpa [Node.parts] using he)

theorem topCount_formed : Yields ts (topCount inner) fun e => (Node.expr e).Formed ts (k + 1) :=
  .after fun _ => .ite (hinner.operand.bind fun _ he => .after fun _ => .pure he)
    ((primary_formed hinner).imp fun _ h => h.node)

theorem optionalTop_formed :
    Yields ts (optionalTop inner) fun x? => ∀ x ∈ x?, (Node.topClause x).Formed ts (k + 1) := by
  refine .optionIf (.spanned (K := fun x => (Node.expr x.1).Formed ts (k + 1)) ?_ fun x span hx => ?_)
  · have hrest : ∀ e percent withTies, (Node.expr e).Formed ts (k + 1) →
        Yields ts (pure (e, percent, withTies)) fun x : Expr × Bool × Bool => (Node.expr x.1).Formed ts (k + 1) :=
      fun _ _ _ he => .pure he
    refine .after fun _ => (topCount_formed hinner).bind fun e he => .after fun percent => .after fun withTies => ?_
    exact .ite (.after fun _ => hrest e percent withTies he) (hrest e percent withTies he)
  · exact formed_of_parts trivial rfl k.succ_pos (by simpa [Node.parts] using hx)

theorem selectElement_formed :
    Yields ts (selectElement inner) fun x => (Node.selectElement x).Formed ts (k + 1) := by
  have hparts : Yields ts (selectElement inner) fun x => ∀ c ∈ x.kind.parts, c.Formed ts (k + 1) := by
    refine .spanned (K := fun kind => ∀ c ∈ kind.parts, c.Formed ts (k + 1)) ?_ fun _ _ h => h
    refine .after fun _ => .ite (.pure (by simp [SelectElementKind.parts])) (.after fun _ => .ite ?_ ?_)
    · exact .after fun _ => .after fun _ => .after fun _ => .pure (by simp [SelectElementKind.parts])
    refine .after fun _ => .ite ?_ (.after fun _ => .ite ?_ ?_)
    · refine .after fun _ => .after fun _ => hinner.operand.bind fun e he => .pure ?_
      simp [SelectElementKind.parts, he]
    · refine .after fun _ => .after fun _ => hinner.operand.bind fun e he => .pure ?_
      simp [SelectElementKind.parts, he]
    · refine hinner.operand.bind fun e he => .after fun _ => .pure ?_
      simp [SelectElementKind.parts, he]
  intro pos x pos' h
  obtain ⟨n, rfl⟩ := hinner.origin
  exact formed_of_parts (n := .selectElement x) ⟨n, pos, pos', h⟩ rfl k.succ_pos (hparts pos x pos' h)

theorem specification_formed :
    Yields ts (specification inner) fun x => (Node.specification x).Formed ts (k + 1) := by
  have hrest : ∀ start distinct, Yields ts (do
      let top ← optionalTop inner
      let selectList ← commaSeparated (selectElement inner)
      let target ← optionIf (consumeKeyword .INTO) objectName
      let sources ← listIf (consumeKeyword .FROM) (tableSources inner)
      let filter ← whereClause inner
      let groups ← groupBy inner
      let having ← optionIf (consumeKeyword .HAVING) inner.expression
      let span ← spanFrom start
      pure (⟨distinct, top, selectList, target, sources, filter, groups, having, span⟩ : QuerySpecification))
      fun x => (Node.specification x).Formed ts (k + 1) := by
    intro start distinct
    refine (optionalTop_formed hinner).bind fun top htop => ?_
    refine (Yields.commaSeparated (selectElement_formed hinner)).bind fun selectList hselect => .after
      fun target => ?_
    refine (Yields.listIf (tableSources_formed hinner)).bind fun sources hsources => ?_
    refine (whereClause_formed hinner).bind fun filter hfilter => ?_
    refine (Yields.listIf (expressionList_formed hinner)).bind fun groups hgroups => ?_
    refine (Yields.optionIf hinner.operand).bind fun having hhaving => .after fun span => .pure ?_
    refine formed_of_parts trivial rfl k.succ_pos ?_
    simp only [Node.parts, List.forall_mem_append, List.forall_mem_map, Option.mem_toList]
    exact ⟨⟨⟨⟨⟨⟨htop, hselect⟩, fun x _ => Node.formed_objectName x⟩, hsources⟩, hfilter⟩,
      hgroups⟩, hhaving⟩
  refine .after fun start => .after fun _ => .after fun distinct => ?_
  exact .ite (.after fun _ => hrest start distinct) (.after fun _ => hrest start distinct)

theorem queryTerm_formed : Yields ts (queryTerm inner) fun x => (Node.queryExpr x).Formed ts (k + 1) := by
  refine .spanned (K := fun kind => ∀ span, (Node.queryExpr ⟨kind, span⟩).Formed ts (k + 1)) ?_
    fun _ span h => h span
  refine .after fun _ => .ite ?_ (.after fun _ => .ite (.map ?_) .failExpected)
  · refine hinner.query.bind fun q hq => .after fun _ => .pure fun span => formed_succ_of_parts trivial hq.pos ?_
    simpa [Node.parts, QueryExprKind.parts] using hq
  · refine (specification_formed hinner).imp fun x hx span => formed_of_parts trivial rfl k.succ_pos ?_
    simpa [Node.parts, QueryExprKind.parts] using hx

theorem queryExpr_formed : Yields ts (queryExpr inner) fun x => (Node.queryExpr x).Formed ts (k + 1) := by
  refine .leftChain (O := fun _ => True) (queryTerm_formed hinner) (fun _ _ _ _ _ _ => trivial) (fun _ h => h)
    fun op left right span _ hleft hright => ?_
  exact formed_of_parts trivial rfl k.succ_pos (by simp [Node.parts, QueryExprKind.parts, hleft, hright])

theorem commonTable_formed : Yields ts (commonTable inner) fun x => (Node.commonTable x).Formed ts (k + 1) := by
  refine .spanned (K := fun x => (Node.query x.2.2).Formed ts (k + 1)) ?_ fun x span hx => ?_
  · refine .after fun _ => .after fun _ => .after fun _ => .after fun _ => hinner.query.bind fun q hq => ?_
    exact .after fun _ => .pure hq.succ
  · exact formed_of_parts trivial rfl k.succ_pos (by simp [Node.parts, or_imp, forall_and, hx])

theorem offsetClause_formed : Yields ts (offsetClause inner) fun x =>
    (Node.expr x.1).Formed ts (k + 1) ∧ ∀ e ∈ x.2, (Node.expr e).Formed ts (k + 1) := by
  refine hinner.operand.bind fun offset hoffset => .after fun _ => ?_
  refine (Yields.optionIf (.after fun _ => hinner.operand.bind fun e he => ?_)).bind fun fetch hfetch =>
    .pure ⟨hoffset, hfetch⟩
  exact .after fun _ => .after fun _ => .pure he

theorem query_formed : Yields ts (query inner) fun q => (Node.query q).Formed ts (k + 1) := by
  refine .after fun start => (Yields.listIf (.commaSeparated (commonTable_formed hinner))).bind
    fun tables htables => ?_
  refine (queryExpr_formed hinner).bind fun body hbody => (Yields.listIf (orderBy_formed hinner)).bind
    fun order horder => ?_
  refine (Yields.optionIf (offsetClause_formed hinner)).bind fun page hpage => .after fun _ => ?_
  have hnode : ∀ span, (Node.query ⟨tables, body, order, page.map Prod.fst, page.bind Prod.snd, span⟩).Formed
      ts (k + 1) := by
    intro span
    refine formed_of_parts trivial rfl k.succ_pos ?_
    simp only [Node.parts, List.forall_mem_append, List.forall_mem_cons, List.forall_mem_map, Option.mem_toList]
    refine ⟨⟨⟨htables, hbody, horder⟩, ?_⟩, ?_⟩
    · cases page with
      | none => rintro _ ⟨⟩
      | some x =>
        rintro _ ⟨rfl⟩
        exact (hpage x rfl).1
    · cases page with
      | none => rintro _ ⟨⟩
      | some x => exact (hpage x rfl).2
  exact .ite (.after fun _ => .after fun span => .pure (hnode span)) (.after fun span => .pure (hnode span))

end TransactLint.Grammar
