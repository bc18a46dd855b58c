import TransactLint.Proofs.Gap
import TransactLint.Proofs.Relocation.Feature
import TransactLint.Proofs.Relocation.Node
import TransactLint.Proofs.ScopedWalk
import TransactLint.Proofs.TableLedger

/-!
# Rules at other places

On two documents whose trees differ only in their places, every rule reports the same violations, at
corresponding terminals.
-/

namespace TransactLint

theorem forall₂_filterMap_map {α α' β β' : Type} {R : β → β' → Prop} {f : α → Option β}
    {f' : α' → Option β'}
    {g : α → α'} : ∀ {as : List α}, (∀ a ∈ as, Option.Rel R (f a) (f' (g a))) →
      List.Forall₂ R (as.filterMap f) ((as.map g).filterMap f')
  | [], _ => .nil
  | a :: as, h => by
    have hrest : List.Forall₂ R (as.filterMap f) ((as.map g).filterMap f') :=
      forall₂_filterMap_map fun b hb => h b (List.mem_cons_of_mem _ hb)
    rw [List.map_cons, List.filterMap_cons, List.filterMap_cons]
    have hfirst := h a List.mem_cons_self
    generalize f a = b?, f' (g a) = b?' at hfirst
    cases hfirst with
    | none => exact hrest
    | some hb => exact .cons hb hrest

theorem forall₂_find? {α β : Type} {R : α → β → Prop} {p : α → Bool} {q : β → Bool} {as : List α}
    {bs : List β} (hpq : ∀ a b, R a b → q b = p a) (h : List.Forall₂ R as bs) :
    Option.Rel R (as.find? p) (bs.find? q) := by
  induction h with
  | nil => exact .none
  | @cons a b _ _ hab _ ih =>
    rw [List.find?_cons, List.find?_cons, hpq a b hab]
    cases p a with
    | true => exact .some hab
    | false => exact ih

theorem rel_isSome {α β : Type} {R : α → β → Prop} {a? : Option α} {b? : Option β}
    (h : Option.Rel R a? b?) :
    b?.isSome = a?.isSome := by
  cases h <;> rfl

namespace Document

variable {sql sql' : String} {d d' : Document} (h : parse sql = .ok d) (h' : parse sql' = .ok d')
  (ρ : Relocation d.terminals d'.terminals)

/-! ## Gaps -/

def Corresponding (d d' : Document) (shift : Nat) (t t' : Token) : Prop :=
  ∃ pos, d.terminals.token? pos = some t ∧ d'.terminals.token? (pos + shift) = some t'

theorem within_corresponding (a b : Nat) :
    List.Forall₂ (d.Corresponding d' ρ.shift) (d.terminals.within a b)
      (d'.terminals.within (a + ρ.shift) (b + ρ.shift)) := by
  have hsize := ρ.size_eq
  rw [List.forall₂_iff_get]
  unfold Terminals.within
  refine ⟨?_, fun i hi hi' => ⟨a + i, ?_, ?_⟩⟩
  · simp only [List.length_map, List.length_take, List.length_drop, Array.length_toList]
    omega
  · simp only [List.length_map, List.length_take, List.length_drop, Array.length_toList] at hi
    simp [Terminals.token?, show a + i < d.terminals.size by omega]
  · simp only [List.length_map, List.length_take, List.length_drop, Array.length_toList] at hi'
    simp [Terminals.token?, Nat.add_right_comm a i, show a + ρ.shift + i < d'.terminals.size by omega]

theorem find?_within (a b : Nat) (kind : TokenKind) :
    Option.Rel (d.Corresponding d' ρ.shift) ((d.terminals.within a b).find? fun t => t.kind = kind)
      ((d'.terminals.within (a + ρ.shift) (b + ρ.shift)).find? fun t => t.kind = kind) := by
  refine forall₂_find? (fun t t' hcorresponding => ?_) (within_corresponding ρ a b)
  obtain ⟨pos, ht, ht'⟩ := hcorresponding
  obtain ⟨u, hu, halike⟩ := ρ.token ht
  rw [ht'] at hu
  cases hu
  rw [halike.kind]

include h h'

/-- Corresponding gaps hold the same words. -/
theorem gap_relocate {m n : Node} {i j a b : Nat} (hm : Stands d.terminals m i j) (hn : Stands d.terminals n a b) :
    (Gap.between? m.span n.span = none ∧
      Gap.between? (m.relocate ρ.move).span (n.relocate ρ.move).span = none) ∨
    ∃ g g', Gap.between? m.span n.span = some g ∧
      Gap.between? (m.relocate ρ.move).span (n.relocate ρ.move).span = some g' ∧
      ∀ word, Option.Rel (d.Corresponding d' ρ.shift) (g.find? (.keyword word) d.tokens)
        (g'.find? (.keyword word) d'.tokens) := by
  rcases gap_cases h hm hn with ⟨hlt, hnone⟩ | ⟨hle, g, hg, hfind⟩ <;>
    rcases gap_cases h' (hm.relocate ρ) (hn.relocate ρ) with ⟨hlt', hnone'⟩ | ⟨hle', g', hg', hfind'⟩
  · exact .inl ⟨hnone, hnone'⟩
  · omega
  · omega
  · refine .inr ⟨g, g', hg, hg', fun word => ?_⟩
    rw [hfind (.keyword word) rfl, hfind' (.keyword word) rfl]
    exact find?_within ρ j a (.keyword word)

theorem keywordBetween?_relocate {m n : Node} {i j a b : Nat} (hm : Stands d.terminals m i j)
    (hn : Stands d.terminals n a b) (word : Keyword) :
    keywordBetween? d'.tokens (m.relocate ρ.move).span (n.relocate ρ.move).span word =
      keywordBetween? d.tokens m.span n.span word := by
  unfold keywordBetween?
  rcases gap_relocate h h' ρ hm hn with ⟨hnone, hnone'⟩ | ⟨g, g', hg, hg', hfind⟩
  · rw [hnone, hnone']
    rfl
  · rw [hg, hg']
    simp only [Option.map_some, Gap.contains, rel_isSome (hfind word)]

end Document

/-! ## Aliases -/

structure Node.Aliases (aliased? : Node → Option (Span × Ident)) : Prop where
  relocate : ∀ (F : Span → Span) (n : Node),
    aliased? (n.relocate F) = (aliased? n).map fun x => (F x.1, mapSpans F x.2)
  parts : ∀ {n : Node} {x : Span × Ident}, aliased? n = some x → (∃ m ∈ n.parts, m.span = x.1) ∧
    .ident x.2 ∈ n.parts

theorem Node.columnAlias?_aliases : Aliases columnAlias? where
  relocate F n := by
    cases n with
    | selectElement x =>
      obtain ⟨kind, span⟩ := x
      cases kind with
      | expression e aliasName =>
        obtain ⟨kind, span⟩ := e
        cases aliasName <;> rfl
      | _ => rfl
    | _ => rfl
  parts {n x} hx := by
    unfold columnAlias? at hx
    split at hx
    · cases hx
      exact ⟨⟨_, List.mem_cons_self, rfl⟩, List.mem_cons_of_mem _ List.mem_cons_self⟩
    · cases hx

theorem Node.tableAlias?_aliases : Aliases tableAlias? where
  relocate F n := by
    cases n with
    | tableSource x =>
      obtain ⟨kind, span⟩ := x
      cases kind with
      | named name aliasName hints => cases aliasName <;> rfl
      | derived q aliasName columns =>
        cases q
        cases aliasName <;> rfl
      | _ => rfl
    | _ => rfl
  parts {n x} hx := by
    unfold tableAlias? at hx
    split at hx
    · cases hx
      exact ⟨⟨_, List.mem_cons_self, rfl⟩, List.mem_cons_of_mem _ List.mem_cons_self⟩
    · cases hx
      exact ⟨⟨_, List.mem_cons_self, rfl⟩, List.mem_cons_of_mem _ List.mem_cons_self⟩
    · cases hx

namespace Document

variable {sql sql' : String} {d d' : Document} (h : parse sql = .ok d) (h' : parse sql' = .ok d')
  (ρ : Relocation d.terminals d'.terminals) (hscript : d'.script = mapSpans ρ.move d.script)
include h h' hscript

theorem bareAliases_relocate {aliased? : Node → Option (Span × Ident)} (haliased : Node.Aliases aliased?) :
    List.Forall₂ (d.terminals.SamePlace d'.terminals ρ.shift) (d.bareAliases aliased?)
      (d'.bareAliases aliased?) := by
  unfold bareAliases
  rw [nodes_relocate h h' ρ hscript]
  refine forall₂_filterMap_map fun n hn => ?_
  have hn := Node.mem_preorder.mp hn
  rw [haliased.relocate]
  cases hx : aliased? n with
  | none => exact .none
  | some x =>
    obtain ⟨named, aliasName⟩ := x
    obtain ⟨⟨m, hm, hspan⟩, hident⟩ := haliased.parts hx
    obtain ⟨_, _, hmstands⟩ := stands_of_mem_parts h hn hm
    obtain ⟨_, _, hstands⟩ := stands_of_mem_parts h hn hident
    have hgap : keywordBetween? d'.tokens (ρ.move named) (ρ.move aliasName.span) .AS =
        keywordBetween? d.tokens named aliasName.span .AS := by
      have hbetween := keywordBetween?_relocate h h' ρ hmstands hstands .AS
      rwa [Node.span_relocate, Node.span_relocate, hspan] at hbetween
    simp only [Option.bind_some, Option.map_some]
    change Option.Rel _ _
      (if keywordBetween? d'.tokens (ρ.move named) (ρ.move aliasName.span) .AS = some false then
        some (ρ.move aliasName.span).start else none)
    rw [hgap]
    split
    · exact .some (hstands.sameSpan ρ (terminals_ordered h) (terminals_ordered h')).samePlace
    · exact .none

/-! ## Joins -/

theorem bareJoins_relocate :
    List.Forall₂ (d.terminals.SamePlace d'.terminals ρ.shift) d.bareJoins d'.bareJoins := by
  unfold bareJoins
  rw [nodes_relocate h h' ρ hscript]
  refine forall₂_filterMap_map fun n hn => ?_
  have hn := Node.mem_preorder.mp hn
  cases n with
  | tableSource x =>
    obtain ⟨kind, span⟩ := x
    cases kind with
    | qualifiedJoin join first second condition =>
      obtain ⟨_, _, hfirst⟩ := stands_of_mem_parts h hn (m := .tableSource first) List.mem_cons_self
      obtain ⟨_, _, hsecond⟩ := stands_of_mem_parts h hn (m := .tableSource second)
        (List.mem_cons_of_mem _ List.mem_cons_self)
      have hplace := samePlace h h' ρ hn nofun
      change Option.Rel _ ((Gap.between? (Node.tableSource first).span (Node.tableSource second).span).bind _)
        ((Gap.between? ((Node.tableSource first).relocate ρ.move).span
          ((Node.tableSource second).relocate ρ.move).span).bind _)
      rcases gap_relocate h h' ρ hfirst hsecond with ⟨hnone, hnone'⟩ | ⟨g, g', hg, hg', hfind⟩
      · rw [hnone, hnone']
        exact .none
      · rw [hg, hg']
        have hcontains : g'.contains (.keyword join.explicitWord) d'.tokens =
            g.contains (.keyword join.explicitWord) d.tokens := rel_isSome (hfind join.explicitWord)
        simp only [Option.bind_some, hcontains]
        by_cases hword : g.contains (.keyword join.explicitWord) d.tokens = true
        · rw [if_pos hword, if_pos hword]
          exact .none
        · rw [if_neg hword, if_neg hword]
          have hjoin := hfind .JOIN
          generalize g.find? (.keyword .JOIN) d.tokens = t?, g'.find? (.keyword .JOIN) d'.tokens = t?' at hjoin
          cases hjoin with
          | none => exact .some hplace
          | some hcorresponding =>
            obtain ⟨pos, ht, ht'⟩ := hcorresponding
            exact .some ⟨pos, _, _, ht, ht', rfl, rfl⟩
    | _ => exact .none
  | _ => exact .none

/-! ## Guarded conversions -/

omit hscript in
theorem find?_relocate {f : Node → Option Expr}
    (hf : ∀ m : Node, f (m.relocate ρ.move) = (f m).map (mapSpans ρ.move)) {n : Node} (hn : d.root.Reaches n) :
    (n.relocate ρ.move).find? f = (n.find? f).map (mapSpans ρ.move) := by
  rw [Node.find?_eq, Node.find?_eq, preorder_relocate h h' ρ hn, List.findSome?_map, List.map_findSome?]
  exact congrArg (List.findSome? · n.preorder) (funext hf)

omit hscript in
theorem guardedKey?_relocate {e : Expr} (he : d.root.Reaches (.expr e)) :
    (mapSpans ρ.move e).guardedKey? = e.guardedKey? := by
  unfold Expr.guardedKey?
  refine (congrArg (Option.bind · Expr.key?) (find?_relocate h h' ρ (fun m => ?_) he)).trans ?_
  · cases m with
    | expr inner => exact inner.guardArgument?_mapSpans ρ.move
    | _ => rfl
  · rw [Option.bind_map]
    exact congrArg _ (funext (Expr.key?_mapSpans ρ.move))

omit hscript in
theorem convertsGuarded_relocate {w : WhenClause} (hw : d.root.Reaches (.whenClause w)) :
    (mapSpans ρ.move w).convertsGuarded = w.convertsGuarded := by
  obtain ⟨condition, result, span⟩ := w
  have hcondition : d.root.Reaches (.expr condition) := hw.child (Node.mem_children.mpr List.mem_cons_self)
  change ((mapSpans ρ.move condition).guardedKey?.any fun key => (mapSpans ρ.move result).convertsKey key) = _
  rw [guardedKey?_relocate h h' ρ hcondition]
  exact congrArg (Option.any · _) (funext (Expr.convertsKey_mapSpans ρ.move result))

theorem guardedConversions_relocate :
    List.Forall₂ (d.terminals.SamePlace d'.terminals ρ.shift) d.guardedConversions d'.guardedConversions := by
  unfold guardedConversions
  rw [nodes_relocate h h' ρ hscript]
  refine forall₂_filterMap_map fun n hn => ?_
  have hn := Node.mem_preorder.mp hn
  cases n with
  | expr e =>
    obtain ⟨kind, span⟩ := e
    cases kind with
    | choice operand branches otherwise =>
      cases operand with
      | some operand => exact .none
      | none =>
        have hplace := samePlace h h' ρ hn nofun
        have hguarded : (WhenClause.relocateList ρ.move branches).any WhenClause.convertsGuarded =
            branches.any WhenClause.convertsGuarded := by
          rw [WhenClause.relocateList_eq, mapSpans_list, List.any_map]
          rw [Bool.eq_iff_iff, List.any_eq_true, List.any_eq_true]
          refine exists_congr fun w => and_congr_right fun hw => ?_
          have hw : d.root.Reaches (.whenClause w) :=
            hn.child (Node.mem_children.mpr
              (List.mem_append_left _ (List.mem_append_right _ (List.mem_map_of_mem hw))))
          rw [Function.comp_apply, convertsGuarded_relocate h h' ρ hw]
        change Option.Rel _ (if branches.any WhenClause.convertsGuarded then some span.start else none)
          (if (WhenClause.relocateList ρ.move branches).any WhenClause.convertsGuarded then
            some (ρ.move span).start else none)
        rw [hguarded]
        by_cases hany : branches.any WhenClause.convertsGuarded = true
        · rw [if_pos hany, if_pos hany]
          exact .some hplace
        · rw [if_neg hany, if_neg hany]
          exact .none
    | _ => exact .none
  | _ => exact .none

end Document

/-! ## Concatenations -/

theorem Expr.span_mapSpans (F : Span → Span) (e : Expr) : (mapSpans F e).span = F e.span :=
  Node.span_relocate F (.expr e)

namespace Chain

theorem outermostFrom_sublist (es : List Expr) (enclosing : Option Span) :
    (outermostFrom enclosing es).Sublist es := by
  induction es generalizing enclosing with
  | nil => exact .slnil
  | cons e es ih =>
    unfold outermostFrom
    split
    · exact (ih _).cons_cons e
    · exact (ih _).cons e

/-- The same expressions are kept where the same spans contain one another. -/
theorem outermostFrom_mapSpans (F : Span → Span) (es : List Expr) (enclosing : Option Span)
    (henclosing : ∀ s ∈ enclosing, ∀ e ∈ es, (F s).strictlyContains (F e.span) = s.strictlyContains e.span)
    (hes : ∀ e ∈ es, ∀ e' ∈ es, (F e.span).strictlyContains (F e'.span) = e.span.strictlyContains e'.span) :
    outermostFrom (enclosing.map F) (mapSpans F es) = mapSpans F (outermostFrom enclosing es) := by
  induction es generalizing enclosing with
  | nil => rfl
  | cons e es ih =>
    have hrest : ∀ e ∈ es, ∀ e' ∈ es,
        (F e.span).strictlyContains (F e'.span) = e.span.strictlyContains e'.span :=
      fun e he e' he' => hes e (List.mem_cons_of_mem _ he) e' (List.mem_cons_of_mem _ he')
    have hkept : (mapSpans F e).span.isOutermost (enclosing.map F).toList = e.span.isOutermost
        enclosing.toList := by
      rw [Expr.span_mapSpans]
      cases enclosing with
      | none => rfl
      | some s => simp [Span.isOutermost, henclosing s rfl e List.mem_cons_self]
    change (if (mapSpans F e).span.isOutermost (enclosing.map F).toList then
        mapSpans F e :: outermostFrom (some (mapSpans F e).span) (mapSpans F es)
      else outermostFrom (enclosing.map F) (mapSpans F es)) =
      mapSpans F (if e.span.isOutermost enclosing.toList then e :: outermostFrom (some e.span) es
        else outermostFrom enclosing es)
    rw [hkept, Expr.span_mapSpans]
    split
    · -- `e` is kept, and is the span that the next ones are compared with
      refine congrArg (mapSpans F e :: ·) (ih (some e.span) ?_ hrest)
      rintro s ⟨⟩ e' he'
      exact hes e List.mem_cons_self e' (List.mem_cons_of_mem _ he')
    · exact ih enclosing (fun s hs e' he' => henclosing s hs e' (List.mem_cons_of_mem _ he')) hrest

end Chain

namespace Document

variable {sql sql' : String} {d d' : Document} (h : parse sql = .ok d) (h' : parse sql' = .ok d')
  (ρ : Relocation d.terminals d'.terminals) (hscript : d'.script = mapSpans ρ.move d.script)
include h h' hscript

theorem outermost_relocate (op : BinaryOperator) :
    Chain.outermostFrom none (d'.nodes.filterMap (Chain.topOf? op)) =
      mapSpans ρ.move (Chain.outermostFrom none (d.nodes.filterMap (Chain.topOf? op))) := by
  have ho := terminals_ordered h
  have ho' := terminals_ordered h'
  have htops : d'.nodes.filterMap (Chain.topOf? op) = mapSpans ρ.move (d.nodes.filterMap (Chain.topOf? op)) := by
    rw [nodes_relocate h h' ρ hscript, List.filterMap_map, mapSpans_list, List.map_filterMap]
    exact congrArg (List.filterMap · d.nodes) (funext (Chain.topOf?_relocate ρ.move op))
  rw [htops]
  refine Chain.outermostFrom_mapSpans ρ.move _ none nofun fun e he e' he' => ?_
  obtain ⟨n, hn, htop⟩ := List.mem_filterMap.mp he
  obtain ⟨n', hn', htop'⟩ := List.mem_filterMap.mp he'
  obtain ⟨_, _, hstands⟩ := stands_of_topOf? h op (Node.mem_preorder.mp hn) htop
  obtain ⟨_, _, hstands'⟩ := stands_of_topOf? h op (Node.mem_preorder.mp hn') htop'
  have hcontains := hstands.strictlyContains_relocate ρ ho ho' hstands'
  rwa [Node.span_relocate, Node.span_relocate, Chain.topOf?_span htop, Chain.topOf?_span htop'] at hcontains

theorem concatenations_relocate {p : Chain → Bool} (hp : Chain.Placeless p) :
    List.Forall₂ (d.terminals.SamePlace d'.terminals ρ.shift) (d.concatenations p) (d'.concatenations p) := by
  unfold concatenations chains Chain.outermost
  rw [outermost_relocate h h' ρ hscript]
  have hsublist := Chain.outermostFrom_sublist (d.nodes.filterMap (Chain.topOf? .add)) none
  generalize Chain.outermostFrom none (d.nodes.filterMap (Chain.topOf? .add)) = es at hsublist
  have hkept : p ∘ Chain.ofExpr .add ∘ mapSpans ρ.move = p ∘ Chain.ofExpr .add := by
    funext e
    rw [Function.comp_apply, Function.comp_apply, Chain.ofExpr_mapSpans]
    exact hp ρ.move _ _
  rw [mapSpans_list, List.map_map, List.filter_map, List.filter_map, hkept, List.map_map, List.map_map,
    List.forall₂_map_left_iff, List.forall₂_map_right_iff, List.forall₂_same]
  intro e he
  obtain ⟨n, hn, htop⟩ := List.mem_filterMap.mp (hsublist.subset (List.mem_filter.mp he).1)
  have hn := Node.mem_preorder.mp hn
  rw [(Chain.topOf?_eq_some htop).1] at hn
  have hplace := samePlace h h' ρ hn nofun
  rw [Node.span_relocate] at hplace
  rw [Function.comp_apply, Function.comp_apply, Function.comp_apply, Chain.ofExpr_mapSpans]
  exact hplace

/-! ## Tables -/

omit hscript in
theorem location_relocate {name : ObjectName} (hname : d.root.Reaches (.objectName name)) :
    d.terminals.SamePlace d'.terminals ρ.shift name.location (mapSpans ρ.move name).location := by
  unfold ObjectName.location
  rw [base?_mapSpans]
  cases hbase : name.base? with
  | none => exact samePlace h h' ρ hname nofun
  | some base =>
    have hmem : Node.ident base ∈ (Node.objectName name).parts :=
      List.mem_map_of_mem (List.mem_of_getLast? hbase)
    exact samePlace h h' ρ (hname.child (Node.mem_children.mpr hmem)) nofun

theorem unsatisfied_relocate {satisfied? : StatementKind → Option TableKey}
    (hplaceless : StatementKind.Placeless satisfied?) :
    List.Forall₂ (d.terminals.SamePlace d'.terminals ρ.shift) (TableLedger.ofDocument satisfied? d).unsatisfied
      (TableLedger.ofDocument satisfied? d').unsatisfied := by
  have hsatisfied : Node.satisfied? satisfied? ∘ Node.relocate ρ.move = Node.satisfied? satisfied? := by
    funext n
    cases n with
    | statement s =>
      obtain ⟨kind, span⟩ := s
      exact hplaceless ρ.move kind
    | _ => rfl
  rw [unsatisfied_eq h, unsatisfied_eq h', nodes_relocate h h' ρ hscript,
    List.filterMap_map (g := Node.satisfied? _), hsatisfied, List.filter_filterMap, List.filter_filterMap,
    List.map_filterMap, List.map_filterMap]
  generalize d.nodes.filterMap (Node.satisfied? satisfied?) = keys
  refine forall₂_filterMap_map fun n hn => ?_
  have hn := Node.mem_preorder.mp hn
  cases n with
  | statement s =>
    obtain ⟨kind, span⟩ := s
    cases kind with
    | createTable name t =>
      have hname : d.root.Reaches (.objectName name) := hn.child (Node.mem_children.mpr List.mem_cons_self)
      have hplace := location_relocate h h' ρ hname
      change Option.Rel _ (((TableKey.ofName? name).map fun key => (key, name.location)).filter _ |>.map Prod.snd)
        (((TableKey.ofName? (mapSpans ρ.move name)).map fun key =>
          (key, (mapSpans ρ.move name).location)).filter _ |>.map Prod.snd)
      rw [ofName?_mapSpans]
      cases TableKey.ofName? name with
      | none => exact .none
      | some key =>
        simp only [Option.map_some, Option.filter_some]
        by_cases hkey : (!keys.contains key) = true
        · rw [if_pos hkey, if_pos hkey]
          exact .some hplace
        · rw [if_neg hkey, if_neg hkey]
          exact .none
    | _ => exact .none
  | _ => exact .none

/-! ## Predicates -/

omit hscript in
theorem convertedPredicate?_relocate {n : Node} (hn : d.root.Reaches n) :
    Option.Rel (d.terminals.SamePlace d'.terminals ρ.shift) n.convertedPredicate?
      (n.relocate ρ.move).convertedPredicate? := by
  cases n with
  | expr e =>
    change Option.Rel _ (if e.comparesConverted then some e.span.start else none)
      (if (mapSpans ρ.move e).comparesConverted then some (mapSpans ρ.move e).span.start else none)
    rw [Expr.comparesConverted_mapSpans]
    split
    · exact .some (samePlace h h' ρ hn nofun)
    · exact .none
  | _ => exact .none

theorem convertedPredicates_relocate :
    List.Forall₂ (d.terminals.SamePlace d'.terminals ρ.shift) d.convertedPredicates d'.convertedPredicates := by
  have hscopes :
      (fun x : Node.Occurrence => x.ancestors.any Node.opensPredicates) ∘ Node.Occurrence.relocate ρ.move =
        fun x => x.ancestors.any Node.opensPredicates := by
    funext x
    rw [Function.comp_apply, Node.Occurrence.relocate, List.any_map]
    exact congrArg x.ancestors.any (funext (Node.opensPredicates_relocate ρ.move))
  rw [convertedPredicates_eq, convertedPredicates_eq, occurrences_relocate h h' ρ hscript,
    List.filter_map, hscopes]
  refine forall₂_filterMap_map fun x hx => ?_
  exact convertedPredicate?_relocate h h' ρ (Node.reaches_of_mem_occurrencesBelow (List.mem_filter.mp hx).1)

/-! ## All rules -/

theorem locations_relocate (rule : Rule) :
    List.Forall₂ (d.terminals.SamePlace d'.terminals ρ.shift) (rule.locations d) (rule.locations d') := by
  cases rule with
  | heapTable => exact unsatisfied_relocate h h' ρ hscript TableRequirement.clustered_placeless.satisfied?
  | rowIdentity => exact unsatisfied_relocate h h' ρ hscript TableRequirement.identified_placeless.satisfied?
  | tableDescription => exact unsatisfied_relocate h h' ρ hscript StatementKind.described?_placeless
  | separatedConcatenation => exact concatenations_relocate h h' ρ hscript Chain.isSeparated_placeless
  | nullReplacingConcatenation => exact concatenations_relocate h h' ρ hscript Chain.replacesNull_placeless
  | convertingConcatenation => exact concatenations_relocate h h' ρ hscript Chain.convertsOperand_placeless
  | columnAlias => exact bareAliases_relocate h h' ρ hscript Node.columnAlias?_aliases
  | tableAlias => exact bareAliases_relocate h h' ρ hscript Node.tableAlias?_aliases
  | joinType => exact bareJoins_relocate h h' ρ hscript
  | guardedConversion => exact guardedConversions_relocate h h' ρ hscript
  | predicateConversion => exact convertedPredicates_relocate h h' ρ hscript

end Document

end TransactLint
