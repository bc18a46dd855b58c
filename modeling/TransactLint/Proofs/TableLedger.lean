import TransactLint.Proofs.LedgerEntries
import TransactLint.Proofs.Nesting
import TransactLint.Rule.TableRequirement

/-!
# Ledgers of documents

The ledger of a document holds the tables that its statements create, by place, and those that they
satisfy. No `CREATE TABLE` lies inside another, so the places increase along the document, and the
definitions that remain are in the order of their statements.
-/

namespace TransactLint

/-! ## Below names and table definitions -/

namespace Node

/-- Whether the node is neither a statement nor a definition, but a name, an expression, a query or a part of one.
-/
def isDefinitionFree : Node → Bool
  | .query _ | .commonTable _ | .queryExpr _ | .specification _ | .topClause _ | .selectElement _
  | .whereClause _ | .orderItem _ | .tableSource _ | .expr _ | .whenClause _ | .window _ | .indexColumn _
  | .objectName _ | .ident _ | .dataType _ => true
  | _ => false

theorem isDefinitionFree_of_mem_parts {n m : Node} (hn : n.isDefinitionFree = true) (hm : m ∈ n.parts) :
    m.isDefinitionFree = true := by
  have hall : n.parts.all isDefinitionFree = true := by
    cases n with
    | queryExpr x => obtain ⟨k, s⟩ := x; cases k <;> simp [parts, QueryExprKind.parts, isDefinitionFree]
    | selectElement x => obtain ⟨k, s⟩ := x; cases k <;> simp [parts, SelectElementKind.parts, isDefinitionFree]
    | tableSource x => obtain ⟨k, s⟩ := x; cases k <;> simp [parts, TableSourceKind.parts, isDefinitionFree]
    | expr x => obtain ⟨k, s⟩ := x; cases k <;> simp [parts, ExprKind.parts, isDefinitionFree]
    | _ => first
      | cases hn; done
      | simp [parts, isDefinitionFree]
  exact List.all_eq_true.mp hall m hm

theorem Reaches.isDefinitionFree {n m : Node} (h : n.Reaches m) (hn : n.isDefinitionFree = true) :
    m.isDefinitionFree = true := by
  induction h with
  | refl => exact hn
  | child _ hc ih => exact isDefinitionFree_of_mem_parts ih (mem_children.mp hc)

end Node

namespace TableDefinition

def allIndexes (t : TableDefinition) : List IndexDefinition :=
  t.indexes ++ t.columns.flatMap fun c => c.index.toList

def allConstraints (t : TableDefinition) : List ConstraintDefinition :=
  t.constraints ++ t.columns.flatMap fun c => c.constraints

/-- The nodes of a table definition: itself, its columns, its indexes and constraints, and no further definitions.
-/
inductive Holds (t : TableDefinition) : Node → Prop
  | self : Holds t (.tableDefinition t)
  | column {c : ColumnDefinition} (hc : c ∈ t.columns) : Holds t (.column c)
  | index {i : IndexDefinition} (hi : i ∈ t.allIndexes) : Holds t (.index i)
  | constraint {k : ConstraintDefinition} (hk : k ∈ t.allConstraints) : Holds t (.constraint k)
  | definitionFree {n : Node} (hn : n.isDefinitionFree = true) : Holds t n

theorem Holds.part {t : TableDefinition} {n m : Node} (hn : t.Holds n) (hm : m ∈ n.parts) : t.Holds m := by
  cases hn with
  | self =>
    simp only [Node.parts, List.mem_append, List.mem_map] at hm
    rcases hm with (⟨c, hc, rfl⟩ | ⟨k, hk, rfl⟩) | ⟨i, hi, rfl⟩
    · exact .column hc
    · exact .constraint (List.mem_append_left _ hk)
    · exact .index (List.mem_append_left _ hi)
  | @column c hc =>
    simp only [Node.parts, List.cons_append, List.mem_cons, List.mem_append, List.mem_map] at hm
    rcases hm with rfl | ((⟨x, _, rfl⟩ | ⟨x, _, rfl⟩) | ⟨k, hk, rfl⟩) | ⟨i, hi, rfl⟩
    · exact .definitionFree rfl
    · exact .definitionFree rfl
    · exact .definitionFree rfl
    · exact .constraint (List.mem_append_right _ (List.mem_flatMap.mpr ⟨c, hc, hk⟩))
    · exact .index (List.mem_append_right _ (List.mem_flatMap.mpr ⟨c, hc, hi⟩))
  | @index i hi =>
    have hall : (Node.index i).parts.all Node.isDefinitionFree = true := by simp [Node.parts, Node.isDefinitionFree]
    exact .definitionFree (List.all_eq_true.mp hall m hm)
  | @constraint k hk =>
    have hall : (Node.constraint k).parts.all Node.isDefinitionFree = true := by
      obtain ⟨name, kind, span⟩ := k
      cases kind <;> simp [Node.parts, ConstraintKind.parts, Node.isDefinitionFree]
    exact .definitionFree (List.all_eq_true.mp hall m hm)
  | definitionFree hn => exact .definitionFree (Node.isDefinitionFree_of_mem_parts hn hm)

theorem holds_of_reaches {t : TableDefinition} {n : Node} (h : (Node.tableDefinition t).Reaches n) : t.Holds n := by
  induction h with
  | refl => exact .self
  | child _ hc ih => exact ih.part (Node.mem_children.mp hc)

section
variable {t : TableDefinition}

theorem reaches_column {c : ColumnDefinition} (hc : c ∈ t.columns) :
    (Node.tableDefinition t).Reaches (.column c) :=
  .child .refl (Node.mem_children.mpr (by simp [Node.parts, hc]))

theorem reaches_index {i : IndexDefinition} : (Node.tableDefinition t).Reaches (.index i) ↔
    i ∈ t.allIndexes := by
  refine ⟨fun h => ?_, fun h => ?_⟩
  · cases holds_of_reaches h with
    | index hi => exact hi
    | definitionFree hn => cases hn
  · rcases List.mem_append.mp h with hi | hi
    · exact .child .refl (Node.mem_children.mpr (by simp [Node.parts, hi]))
    · obtain ⟨c, hc, hi⟩ := List.mem_flatMap.mp hi
      refine .child (reaches_column hc) (Node.mem_children.mpr ?_)
      exact List.mem_append_right _ (List.mem_map_of_mem hi)

theorem reaches_constraint {k : ConstraintDefinition} :
    (Node.tableDefinition t).Reaches (.constraint k) ↔ k ∈ t.allConstraints := by
  refine ⟨fun h => ?_, fun h => ?_⟩
  · cases holds_of_reaches h with
    | constraint hk => exact hk
    | definitionFree hn => cases hn
  · rcases List.mem_append.mp h with hk | hk
    · exact .child .refl (Node.mem_children.mpr (by simp [Node.parts, hk]))
    · obtain ⟨c, hc, hk⟩ := List.mem_flatMap.mp hk
      refine .child (reaches_column hc) (Node.mem_children.mpr ?_)
      exact List.mem_append_left _ (List.mem_append_right _ (List.mem_map_of_mem hk))

theorem not_reaches_statement {s : Statement} : ¬ (Node.tableDefinition t).Reaches (.statement s) := by
  intro h
  cases holds_of_reaches h with
  | definitionFree hn => cases hn

end

end TableDefinition

/-! ## Tables that statements create -/

def Node.created? : Node → Option (TableKey × Location)
  | .statement s => s.kind.created?
  | _ => none

def Node.satisfied? (satisfied? : StatementKind → Option TableKey) : Node → Option TableKey
  | .statement s => satisfied? s.kind
  | _ => none

def Node.createTable? : Node → Option ObjectName
  | .statement ⟨.createTable name _, _⟩ => some name
  | _ => none

theorem Node.created?_eq_bind (n : Node) : n.created? =
    n.createTable?.bind fun name => (TableKey.ofName? name).map fun key => (key, name.location) := by
  cases n with
  | statement s =>
    obtain ⟨kind, span⟩ := s
    cases kind <;> rfl
  | _ => rfl

theorem Node.createTable?_eq_some {n : Node} {name : ObjectName} (h : n.createTable? = some name) :
    ∃ t span, n = .statement ⟨.createTable name t, span⟩ := by
  unfold createTable? at h
  split at h <;> cases h
  exact ⟨_, _, rfl⟩

theorem Node.created?_eq_some {n : Node} {x : TableKey × Location} (h : n.created? = some x) :
    ∃ name t span, n = .statement ⟨.createTable name t, span⟩ ∧ TableKey.ofName? name = some x.1 ∧
      x.2 = name.location := by
  rw [created?_eq_bind] at h
  obtain ⟨name, hname, hx⟩ := Option.bind_eq_some_iff.mp h
  obtain ⟨key, hkey, rfl⟩ := Option.map_eq_some_iff.mp hx
  obtain ⟨t, span, rfl⟩ := createTable?_eq_some hname
  exact ⟨name, t, span, rfl, hkey, rfl⟩

/-- A table is reported at a node of the statement that creates it. -/
theorem Node.reaches_location (name : ObjectName) (t : TableDefinition) (span : Span) :
    ∃ m, (Node.statement ⟨.createTable name t, span⟩).Reaches m ∧ m.span.start = name.location := by
  have hname : (Node.statement ⟨.createTable name t, span⟩).Reaches (.objectName name) :=
    .child .refl (mem_children.mpr List.mem_cons_self)
  unfold ObjectName.location
  split
  · rename_i base hbase
    refine ⟨.ident base, .child hname (mem_children.mpr ?_), rfl⟩
    exact List.mem_map_of_mem (List.mem_of_getLast? hbase)
  · exact ⟨.objectName name, hname, rfl⟩

theorem Node.not_createTable_above_statement {name : ObjectName} {t : TableDefinition} {span : Span}
    {s : Statement} :
    ¬ (Node.statement ⟨.createTable name t, span⟩).Above (.statement s) := by
  rintro ⟨c, hc, hreach⟩
  have hparts : c ∈ [Node.objectName name, .tableDefinition t] := mem_children.mp hc
  rcases List.mem_pair.mp hparts with rfl | rfl
  · exact absurd (hreach.isDefinitionFree rfl) nofun
  · exact TableDefinition.not_reaches_statement hreach

namespace Document

variable {sql : String} {d : Document} (h : parse sql = .ok d)
include h

/-- The tables that a document creates are named at places that increase. -/
theorem createTable_pairwise :
    (d.nodes.filterMap Node.createTable?).Pairwise fun x y => x.location < y.location := by
  have ho := terminals_ordered h
  rw [nodes, ← Node.map_node_occurrences, List.filterMap_map, List.pairwise_filterMap]
  refine (occurrences_pairwise h).imp_of_mem fun {x y} hx hy hxy name hname name' hname' => ?_
  obtain ⟨t, span, hxn⟩ := Node.createTable?_eq_some hname
  obtain ⟨t', span', hyn⟩ := Node.createTable?_eq_some hname'
  have hreach := Node.reaches_of_mem_occurrencesBelow hx
  have hreach' := Node.reaches_of_mem_occurrencesBelow hy
  rcases hxy with hmem | hstop
  · -- no table is created inside the statement that creates one
    rcases Node.above_of_mem_ancestors hy hmem with hnil | ⟨_, habove⟩
    · cases hnil
    · rw [hxn, hyn] at habove
      exact absurd habove Node.not_createTable_above_statement
  · rw [hxn] at hreach hstop
    rw [hyn] at hreach' hstop
    obtain ⟨m, hm, hstart⟩ := Node.reaches_location name t span
    obtain ⟨m', hm', hstart'⟩ := Node.reaches_location name' t' span'
    obtain ⟨_, _, hstands⟩ := stands_of_ne_script h hreach nofun
    obtain ⟨_, _, hstands'⟩ := stands_of_ne_script h hreach' nofun
    obtain ⟨_, _, _, _, hmstands⟩ := hstands.reaches ho hm
    obtain ⟨_, _, _, _, hmstands'⟩ := hstands'.reaches ho hm'
    have hbytes := hstands.bytes_of_reaches ho hm
    have hbytes' := hstands'.bytes_of_reaches ho hm'
    have hlt := hmstands.offset_lt_stop ho
    rw [← hstart, ← hstart']
    exact hmstands.start_lt ho hmstands' (by omega)

/-- The tables that a document creates are reported at places that increase. -/
theorem created_pairwise : (d.nodes.filterMap Node.created?).Pairwise fun x y => x.2 < y.2 := by
  have hcreated : d.nodes.filterMap Node.created? = (d.nodes.filterMap Node.createTable?).filterMap fun name =>
      (TableKey.ofName? name).map fun key => (key, name.location) := by
    rw [List.filterMap_filterMap]
    exact List.filterMap_congr fun n _ => n.created?_eq_bind
  rw [hcreated, List.pairwise_filterMap]
  refine (createTable_pairwise h).imp fun hlt x hx y hy => ?_
  obtain ⟨_, _, rfl⟩ := Option.map_eq_some_iff.mp hx
  obtain ⟨_, _, rfl⟩ := Option.map_eq_some_iff.mp hy
  exact hlt

end Document

/-! ## Ledgers -/

namespace TableLedger

variable (satisfied? : StatementKind → Option TableKey)

def entries (n : Node) : List Entry :=
  (n.satisfied? satisfied?).toList.map .satisfaction ++ n.created?.toList.map fun d => .definition d.1 d.2

theorem record_eq (ledger : TableLedger) (n : Node) :
    record satisfied? ledger n = (entries satisfied? n).foldl enter ledger := by
  cases n with
  | statement s =>
    obtain ⟨kind, span⟩ := s
    simp only [record, entries, Node.created?, Node.satisfied?]
    cases satisfied? kind <;> cases kind.created? <;> rfl
  | _ => rfl

theorem ofDocument_eq (d : Document) :
    ofDocument satisfied? d = ofEntries (d.nodes.flatMap (entries satisfied?)) := by
  rw [ofEntries, List.foldl_flatMap, ofDocument]
  exact congrArg (fun step => d.nodes.foldl step empty) (funext fun ledger => funext fun n =>
    record_eq satisfied? ledger n)

theorem defined?_entries (ns : List Node) :
    (ns.flatMap (entries satisfied?)).filterMap Entry.defined? = ns.filterMap Node.created? := by
  have hdefined : ∀ n, (entries satisfied? n).filterMap Entry.defined? = n.created?.toList := by
    intro n
    rw [entries]
    cases n.satisfied? satisfied? <;> cases n.created? <;> rfl
  rw [List.filterMap_flatMap, List.filterMap_eq_flatMap_toList]
  exact congrArg (ns.flatMap ·) (funext hdefined)

theorem satisfaction_mem_entries {ns : List Node} {key : TableKey} :
    .satisfaction key ∈ ns.flatMap (entries satisfied?) ↔
      key ∈ ns.filterMap (Node.satisfied? satisfied?) := by
  simp [entries, List.mem_flatMap, List.mem_filterMap]

end TableLedger

/-- The definitions that remain are those of tables that no statement satisfies, in document order. -/
theorem Document.unsatisfied_eq {sql : String} {d : Document} (h : parse sql = .ok d)
    (satisfied? : StatementKind → Option TableKey) :
    (TableLedger.ofDocument satisfied? d).unsatisfied =
      ((d.nodes.filterMap Node.created?).filter fun x =>
        !(d.nodes.filterMap (Node.satisfied? satisfied?)).contains x.1).map Prod.snd := by
  refine List.Perm.eq_of_pairwise' (r := fun a b : Location => a ≤ b) (TableLedger.unsatisfied_sorted _) ?_ ?_
  · exact List.pairwise_map.mpr (((created_pairwise h).filter _).imp Location.le_of_lt)
  · rw [TableLedger.ofDocument_eq]
    have hperm := TableLedger.unsatisfied_perm (d.nodes.flatMap (TableLedger.entries satisfied?))
    simpa only [TableLedger.Entry.places, TableLedger.defined?_entries, TableLedger.satisfaction_mem_entries,
      List.contains_eq_mem, decide_not] using hperm

theorem Document.unsatisfied_pairwise {sql : String} {d : Document} (h : parse sql = .ok d)
    (satisfied? : StatementKind → Option TableKey) :
    (TableLedger.ofDocument satisfied? d).unsatisfied.Pairwise (· < ·) := by
  rw [unsatisfied_eq h]
  exact List.pairwise_map.mpr ((created_pairwise h).filter _)

end TransactLint
