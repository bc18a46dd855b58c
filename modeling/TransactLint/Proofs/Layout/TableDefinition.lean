import TransactLint.Grammar.TableDefinition
import TransactLint.Proofs.Layout.Expression

/-!
# Layout of table definitions
-/

namespace TransactLint.Grammar

open TransactLint.Parser

variable {ts : Terminals}

theorem notForReplication_reads : Reads ts notForReplication fun _ => .none := by
  intro start
  refine (consumePair_reads _ _).then fun b => .ite (fun _ => ?_) fun _ => .pure (.of_eq rfl (by simp))
  exact (expectWord_reads _).then fun _ => .pure (.of_eq rfl (by simp))

theorem clusteredOption_reads : Reads ts clusteredOption fun _ => .none := by
  intro start
  refine (consumeKeyword_reads _).then fun b => .ite (fun _ => .pure (.of_eq rfl (by simp))) fun _ => ?_
  refine (consumeKeyword_reads _).then fun b => .ite (fun _ => ?_) fun _ => ?_ <;>
    exact .pure (.of_eq rfl (by simp))

/-! ## Storage options -/

theorem storageOption_reads : Reads ts storageOption fun _ => .none := by
  intro start
  refine .look fun b => .ite (fun _ => ?_) fun _ => ?_
  · refine skip_reads.then fun _ => skipParenthesized_reads.then fun _ => ?_
    exact .pure (.of_eq rfl (by simp))
  refine .look fun b => .ite (fun _ => ?_) fun _ => ?_
  · refine skipTwo_reads.then fun _ => (expect_reads _).then fun _ => skip_reads.then fun _ => ?_
    exact .pure (.of_eq rfl (by simp))
  refine .look fun b => .ite (fun _ => ?_) fun _ => ?_
  · refine skip_reads.then fun _ => anyIdent_reads.then fun _ => .look fun b => .ite (fun _ => ?_) fun _ => ?_
    · exact skipParenthesized_reads.then fun _ => .pure ⟨by simp, by simp⟩
    · exact .pure ⟨by simp, by simp⟩
  refine .look fun b => .ite (fun _ => ?_) fun _ => .pure (.of_eq rfl (by simp))
  exact skip_reads.then fun _ => anyIdent_reads.then fun _ => .pure ⟨by simp, by simp⟩

theorem storageOptions_reads : Reads ts storageOptions fun _ => .none :=
  Reads.repeatWhile storageOption_reads

/-! ## Indexes -/

theorem indexColumn_reads : Reads ts indexColumn fun x => .node (.indexColumn x) := by
  refine Reads.spanned (f := fun x => .node (.ident x.1)) (fun start => ?_) (fun _ _ => rfl) fun _ _ => .refl _
  refine ident_reads.then fun name => sortDirection_reads.then fun direction => ?_
  exact .pure (.of_eq rfl (by simp))

theorem indexColumns_reads : Reads ts indexColumns fun xs => ⟨true, xs.map .indexColumn⟩ := by
  intro start
  refine (expect_reads _).then fun _ => (Reads.commaNodes indexColumn_reads).then fun columns => ?_
  exact (expect_reads _).then fun _ => .pure (.of_eq (by simp) (by simp))

section
variable {inner : Level} (h : inner.Reads ts)
include h

theorem indexBody_reads : Reads ts (indexBody inner) fun x =>
    .ofNodes (x.1.map .indexColumn ++ x.2.1.map .ident ++ x.2.2.toList.map .expr) := by
  intro start
  refine (Reads.listNodes .look indexColumns_reads).then fun columns => ?_
  refine (Reads.listNodes (consumeWord_reads _) identList_reads).then fun included => ?_
  refine (Reads.optionNode (consumeKeyword_reads _) h.expression).then fun filter => ?_
  exact storageOptions_reads.then fun _ => .pure (.of_eq (by simp) (by simp))

theorem indexDefinition_reads : Reads ts (indexDefinition inner) fun x => .node (.index x) := by
  refine .position fun start => (expectKeyword_reads _).then fun _ => ident_reads.then fun name => ?_
  refine (consumeKeyword_reads _).then fun unique => clusteredOption_reads.then fun clustered => ?_
  refine (consumeWord_reads _).then fun columnstore => (indexBody_reads h).then fun body => ?_
  exact Lays.close (fun _ => rfl) fun _ => .of_eq (by simp [Node.constituents, Node.parts]) (by simp)

end

/-! ## Constraints -/

theorem uniqueBody_reads (primaryKey : Bool) : Reads ts (uniqueBody primaryKey) fun k => .ofNodes k.parts := by
  intro start
  refine clusteredOption_reads.then fun clustered => (consumeWord_reads _).then fun _ => ?_
  refine (Reads.listNodes .look indexColumns_reads).then fun columns => ?_
  exact storageOptions_reads.then fun _ => .pure (.of_eq (by simp [ConstraintKind.parts]) (by simp))

theorem referentialAction_reads : Reads ts referentialAction fun _ => .none := by
  intro start
  refine (consumeKeyword_reads _).then fun b => .ite (fun _ => .pure (.of_eq rfl (by simp))) fun _ => ?_
  refine (consumeWord_reads _).then fun b => .ite (fun _ => ?_) fun _ => ?_
  · exact (expectWord_reads _).lays.entails (.refl _) fun _ => .of_eq rfl (by simp)
  refine (expectKeyword_reads _).then fun _ => (consumeKeyword_reads _).then fun b => ?_
  refine .ite (fun _ => .pure (.of_eq rfl (by simp))) fun _ => ?_
  exact (expectKeyword_reads _).lays.entails (.refl _) fun _ => .of_eq rfl (by simp)

theorem referenceOption_reads : Reads ts referenceOption fun _ => .none := by
  intro start
  refine .look fun b => .ite (fun _ => ?_) fun _ => notForReplication_reads start
  refine skipTwo_reads.then fun _ => referentialAction_reads.then fun _ => ?_
  exact .pure (.of_eq rfl (by simp))

/-- The columns of the key have been read. -/
theorem references_lays (columns : List Ident) {L : Layout} (hL : L.nodes = columns.map .ident) (start : Nat) :
    Lays ts start L (references columns) fun k => ⟨true, k.parts⟩ := by
  refine (expectKeyword_reads _).then fun _ => objectName_reads.then fun target => ?_
  refine (Reads.listNodes .look identList_reads).then fun targetColumns => ?_
  refine (Reads.repeatWhile referenceOption_reads).then fun _ => ?_
  exact .pure (.of_eq (by simp [ConstraintKind.parts, hL]) (by simp))

variable {inner : Level} (h : inner.Reads ts)
include h

theorem checkBody_reads : Reads ts (checkBody inner) fun k => .ofNodes k.parts := by
  intro start
  refine notForReplication_reads.then fun _ => (expect_reads _).then fun _ => ?_
  refine h.expression.then fun condition => (expect_reads _).then fun _ => ?_
  exact .pure (.of_eq (by simp [ConstraintKind.parts]) (by simp))

theorem defaultBody_reads : Reads ts (defaultBody inner) fun k => .ofNodes k.parts := by
  intro start
  refine h.expression.then fun value => ?_
  refine (Reads.optionNode (consumeKeyword_reads _) ident_reads).then fun column => ?_
  exact .pure (.of_eq (by simp [ConstraintKind.parts]) (by simp))

/-- A constraint begins with a word that has been read. -/
theorem constraintKind_reads : Reads ts (constraintKind inner) fun k? =>
    ⟨k?.isSome, k?.toList.flatMap ConstraintKind.parts⟩ := by
  intro start
  have hsome : ∀ {p : Parser ConstraintKind} (L : Layout), L.nodes = [] → L.moved = true →
      Reads ts p (fun k => .ofNodes k.parts) → Lays ts start L (some <$> p) fun k? =>
        ⟨k?.isSome, k?.toList.flatMap ConstraintKind.parts⟩ := by
    intro p L hL hm hp
    exact Lays.map (hp.lays.entails (.refl _) fun k => .of_eq (by simp [hL]) (by simp [hm]))
  refine (consumeKeyword_reads _).then fun b => .ite (fun hb => ?_) fun _ => ?_
  · exact (expectKeyword_reads _).then fun _ => hsome _ rfl (by simp) (uniqueBody_reads true)
  refine (consumeKeyword_reads _).then fun b => .ite (fun hb => ?_) fun _ => ?_
  · exact hsome _ rfl (by simp [hb]) (uniqueBody_reads false)
  refine (consumeKeyword_reads _).then fun b => .ite (fun hb => ?_) fun _ => ?_
  · refine (expectKeyword_reads _).then fun _ => identList_reads.then fun columns => ?_
    refine Lays.map ((references_lays columns (by simp) start).entails (.refl _) fun k => ?_)
    exact .of_eq (by simp) (by simp)
  refine .look fun b => .ite (fun hb => ?_) fun _ => ?_
  · refine Lays.map ((references_lays [] (by simp) start).entails (.refl _) fun k => ?_)
    exact .of_eq (by simp) (by simp)
  refine (consumeKeyword_reads _).then fun b => .ite (fun hb => ?_) fun _ => ?_
  · exact hsome _ rfl (by simp [hb]) (checkBody_reads h)
  refine (consumeKeyword_reads _).then fun b => .ite (fun hb => ?_) fun _ => ?_
  · exact hsome _ rfl (by simp [hb]) (defaultBody_reads h)
  · exact .pure (.of_eq rfl (by simp))

theorem constraint_reads : Reads ts (constraint inner) fun c? => .ofNodes (c?.toList.map .constraint) := by
  refine .position fun start => ?_
  refine (Reads.optionNode (consumeKeyword_reads _) ident_reads).then fun name => ?_
  refine (constraintKind_reads h).then fun kind? => ?_
  cases kind? with
  | some kind =>
    refine .closeAs (fun s => .constraint ⟨name, kind, s⟩) (fun _ => rfl) (fun s => ?_) fun s => ?_
    · exact .of_eq (by simp [Node.constituents, Node.parts]) (by simp)
    · exact .of_eq rfl (by simp)
  | none =>
    refine .ite (fun _ => .failExpected) fun _ => ?_
    exact .pure ⟨by simp, by simp⟩

/-! ## Columns -/

def ColumnOptions.nodes (found : ColumnOptions) : List Node :=
  found.constraints.map .constraint ++ found.index.toList.map .index

omit h in
theorem ignoredColumnWord_reads : Reads ts ignoredColumnWord fun _ => .none := by
  intro start
  refine (consumeKeyword_reads _).then fun b => .ite (fun _ => .pure (.of_eq rfl (by simp))) fun _ => ?_
  refine (consumeWord_reads _).then fun b => .ite (fun _ => .pure (.of_eq rfl (by simp))) fun _ => ?_
  refine (consumeWord_reads _).then fun b => .ite (fun _ => .pure (.of_eq rfl (by simp))) fun _ => ?_
  exact (consumeWord_reads _).lays.entails (.refl _) fun _ => .of_eq rfl (by simp)

/-- An option adds at most one node; an index that is replaced is forgotten. -/
theorem columnOption_lays (L : Layout) (start : Nat) (found : ColumnOptions) :
    Lays ts start (L ++ .ofNodes found.nodes) (columnOption inner found)
      fun found? => L ++ .ofNodes (found?.getD found).nodes := by
  have hkeep : ∀ (K : Layout), K.nodes = [] →
      (L ++ .ofNodes found.nodes ++ K).Entails (L ++ .ofNodes found.nodes) := fun K hK =>
    .of_eq (by simp [hK]) (by simp +contextual)
  refine (consumeKeyword_reads _).then fun b => .ite (fun _ => .pure (hkeep _ rfl)) fun _ => ?_
  refine .weaken (hkeep _ rfl) ?_
  refine (consumePair_reads _ _).then fun b => .ite (fun _ => .pure (hkeep _ rfl)) fun _ => ?_
  refine .weaken (hkeep _ rfl) ?_
  refine notForReplication_reads.then fun b => .ite (fun _ => .pure (hkeep _ rfl)) fun _ => ?_
  refine .weaken (hkeep _ rfl) ?_
  refine (consumeKeyword_reads _).then fun b => .weaken (hkeep _ rfl) (.ite (fun _ => ?_) fun _ => ?_)
  · refine .look fun b => .ite (fun _ => ?_) fun _ => .pure (.refl _)
    exact skipParenthesized_reads.then fun _ => .pure (hkeep _ rfl)
  refine (consumeKeyword_reads _).then fun b => .weaken (hkeep _ rfl) (.ite (fun _ => ?_) fun _ => ?_)
  · refine ident_reads.then fun _ => .pure ⟨?_, by simp +contextual⟩
    exact (List.sublist_append_left ..).subperm
  refine ignoredColumnWord_reads.then fun b => .ite (fun _ => .pure (hkeep _ rfl)) fun _ => ?_
  refine .weaken (hkeep _ rfl) (.look fun b => .ite (fun _ => ?_) fun _ => ?_)
  · -- an index read before is given up for this one
    refine (indexDefinition_reads h).then fun index => .pure ⟨?_, by simp +contextual⟩
    refine List.Sublist.subperm ?_
    simp [ColumnOptions.nodes]
  · refine (constraint_reads h).then fun c? => ?_
    cases c? with
    | none => exact .pure (hkeep _ rfl)
    | some c =>
      refine .pure (.of_perm ?_ (by simp +contextual))
      have hlast := (List.perm_append_singleton (Node.constraint c) found.nodes).symm.append_left L.nodes
      simpa [ColumnOptions.nodes] using hlast

theorem columnType_reads : Reads ts (columnType inner) fun x =>
    .ofNodes (x.1.toList.map .dataType ++ x.2.toList.map .expr) := by
  intro start
  refine (consumeKeyword_reads _).then fun b => .ite (fun _ => ?_) fun _ => ?_
  · refine h.expression.then fun expr => (consumeWord_reads _).then fun _ => ?_
    exact .pure (.of_eq (by simp) (by simp))
  · exact dataType_reads.then fun type => .pure (.of_eq (by simp) (by simp))

theorem columnDefinition_reads : Reads ts (columnDefinition inner) fun x => .node (.column x) := by
  refine .position fun start => ident_reads.then fun name => (columnType_reads h).then fun x => ?_
  obtain ⟨type, computed⟩ := x
  refine Lays.bind (.weaken ?_ (Lays.iterate (columnOption_lays h (.node (.ident name) ++
    .ofNodes (type.toList.map .dataType ++ computed.toList.map .expr)) start) .none)) fun options => ?_
  · exact .of_eq (by simp [ColumnOptions.nodes, ColumnOptions.none]) (by simp)
  refine Lays.close (fun _ => rfl) fun _ => .of_perm ?_ (by simp)
  have hreverse := List.reverse_perm (options.constraints.map Node.constraint)
  simp only [Node.constituents, Node.parts, ColumnOptions.nodes, List.map_reverse, Layout.append_nodes,
    Layout.node_nodes, Layout.ofNodes_nodes, List.append_assoc, List.cons_append, List.nil_append]
  exact (((hreverse.append_right _).append_left _).append_left _).cons _

/-! ## Tables -/

def TableElement.node : TableElement → Node
  | .column x => .column x
  | .constraint x => .constraint x
  | .index x => .index x

theorem tableElement_reads : Reads ts (tableElement inner) fun x => .node x.node := by
  intro start
  refine .look fun b => .ite (fun _ => ?_) fun _ => ?_
  · exact Lays.map ((indexDefinition_reads h) start)
  refine (constraint_reads h).then fun c? => ?_
  cases c? with
  | none => exact Lays.map ((columnDefinition_reads h).lays.entails (.refl _) fun _ => .of_eq rfl id)
  | some c => exact .pure ⟨by rfl, by simp⟩

theorem tableElements_reads : Reads ts (tableElements inner) fun xs => ⟨true, xs.map TableElement.node⟩ :=
  Reads.commaNodes (tableElement_reads h)

omit h in
/-- The definition has the elements as parts, sorted by kind. -/
theorem parts_definitionOf (span : Span) : ∀ elements : List TableElement,
    (Node.tableDefinition (definitionOf elements span)).parts.Perm (elements.map TableElement.node)
  | [] => .refl _
  | x :: xs => by
    have ih := parts_definitionOf span xs
    cases x with
    | column c => exact ih.cons _
    | constraint c => exact (List.perm_middle.append_right _).trans (ih.cons _)
    | index i => exact List.perm_middle.trans (ih.cons _)

theorem tableDefinition_reads : Reads ts (tableDefinition inner) fun x => .node (.tableDefinition x) := by
  refine Reads.spanned (f := fun xs => ⟨true, xs.map TableElement.node⟩) (fun start => ?_) (fun _ _ => rfl)
    fun xs s => .of_perm (parts_definitionOf s xs) id
  refine (expect_reads _).then fun _ => (tableElements_reads h).then fun elements => ?_
  exact (expect_reads _).then fun _ => .pure (.of_eq (by simp) (by simp))

end TransactLint.Grammar
