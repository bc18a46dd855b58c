import TransactLint.Rule
import TransactLint.Proofs.TableLedger

/-!
# Tables that do not meet a requirement

The two rules that require an index or a constraint of every table report exactly the tables that no
statement of the document makes meet the requirement, wherever that statement is.
-/

namespace TransactLint

namespace TableRequirement

variable (r : TableRequirement)

def accepts : Node → Bool
  | .index i => r.index i
  | .constraint k => r.constraint k
  | _ => false

/-- A statement of the document makes the table with this key meet the requirement. -/
inductive Satisfied (d : Document) (key : TableKey) : Prop
  | createTable {name : ObjectName} {t : TableDefinition} {span : Span} {m : Node}
      (hs : .statement ⟨.createTable name t, span⟩ ∈ d.nodes) (hkey : TableKey.ofName? name = some key)
      (hm : m ∈ (Node.tableDefinition t).preorder) (haccepts : r.accepts m = true) : Satisfied d key
  | alterTable {name : ObjectName} {t : TableDefinition} {span : Span} {m : Node}
      (hs : .statement ⟨.alterTable name (.add t), span⟩ ∈ d.nodes) (hkey : TableKey.ofName? name = some key)
      (hm : m ∈ (Node.tableDefinition t).preorder) (haccepts : r.accepts m = true) : Satisfied d key
  | createIndex {i : CreateIndex} {span : Span} (hs : .statement ⟨.createIndex i, span⟩ ∈ d.nodes)
      (hkey : TableKey.ofName? i.table = some key) (haccepts : r.createIndex i = true) : Satisfied d key

/-- The parts that are looked at are all that could meet the requirement. -/
theorem definition_iff (t : TableDefinition) :
    r.definition t = true ↔ ∃ m ∈ (Node.tableDefinition t).preorder, r.accepts m = true := by
  have hdefinition : r.definition t = true ↔
      (∃ i ∈ t.allIndexes, r.index i = true) ∨ ∃ k ∈ t.allConstraints, r.constraint k = true := by
    simp only [definition, column, TableDefinition.allIndexes, TableDefinition.allConstraints,
      Bool.or_eq_true, List.any_eq_true, Option.any_eq_true, List.mem_append, List.mem_flatMap,
      Option.mem_toList]
    grind
  rw [hdefinition]
  constructor
  · rintro (⟨i, hi, haccepts⟩ | ⟨k, hk, haccepts⟩)
    · exact ⟨.index i, Node.mem_preorder.mpr (TableDefinition.reaches_index.mpr hi), haccepts⟩
    · exact ⟨.constraint k, Node.mem_preorder.mpr (TableDefinition.reaches_constraint.mpr hk), haccepts⟩
  · rintro ⟨m, hm, haccepts⟩
    rw [Node.mem_preorder] at hm
    cases m with
    | index i => exact .inl ⟨i, TableDefinition.reaches_index.mp hm, haccepts⟩
    | constraint k => exact .inr ⟨k, TableDefinition.reaches_constraint.mp hm, haccepts⟩
    | _ => cases haccepts

theorem satisfied_iff (d : Document) (key : TableKey) :
    key ∈ d.nodes.filterMap (Node.satisfied? r.satisfied?) ↔ r.Satisfied d key := by
  rw [List.mem_filterMap]
  constructor
  · rintro ⟨n, hn, hkey⟩
    unfold Node.satisfied? at hkey
    split at hkey
    · rename_i s
      obtain ⟨kind, span⟩ := s
      unfold satisfied? at hkey
      split at hkey
      · rename_i name t hkind
        cases hkind
        obtain ⟨hdefinition, hkey⟩ := Option.ite_none_right_eq_some.mp hkey
        obtain ⟨m, hm, haccepts⟩ := (r.definition_iff t).mp hdefinition
        exact .createTable hn hkey hm haccepts
      · rename_i name t hkind
        cases hkind
        obtain ⟨hdefinition, hkey⟩ := Option.ite_none_right_eq_some.mp hkey
        obtain ⟨m, hm, haccepts⟩ := (r.definition_iff t).mp hdefinition
        exact .alterTable hn hkey hm haccepts
      · rename_i i hkind
        cases hkind
        obtain ⟨haccepts, hkey⟩ := Option.ite_none_right_eq_some.mp hkey
        exact .createIndex hn hkey haccepts
      · cases hkey
    · cases hkey
  · intro hs
    cases hs with
    | createTable hs hkey hm haccepts =>
      refine ⟨_, hs, ?_⟩
      simp only [Node.satisfied?, satisfied?, (r.definition_iff _).mpr ⟨_, hm, haccepts⟩, if_true, hkey]
    | alterTable hs hkey hm haccepts =>
      refine ⟨_, hs, ?_⟩
      simp only [Node.satisfied?, satisfied?, (r.definition_iff _).mpr ⟨_, hm, haccepts⟩, if_true, hkey]
    | createIndex hs hkey haccepts =>
      refine ⟨_, hs, ?_⟩
      simp only [Node.satisfied?, satisfied?, haccepts, if_true, hkey]

end TableRequirement

/-! ## The rules -/

theorem TableKey.base?_of_ofName? {name : ObjectName} {key : TableKey} (h : ofName? name = some key) :
    ∃ base, name.base? = some base ∧ name.location = base.span.start := by
  unfold ofName? at h
  split at h
  · cases h
  · rename_i base hbase
    exact ⟨base, hbase, by rw [ObjectName.location, hbase]⟩

open Classical in
theorem TableRequirement.locations_eq {sql : String} {d : Document} (h : Document.parse sql = .ok d)
    (r : TableRequirement) : r.locations d = ((d.nodes.filterMap Node.createTable?).filter fun name =>
      ∃ key, TableKey.ofName? name = some key ∧ ¬ r.Satisfied d key).map ObjectName.location := by
  rw [locations, Document.unsatisfied_eq h, List.filter_filterMap, List.map_filterMap,
    List.filter_filterMap, List.map_filterMap]
  refine List.filterMap_congr fun n _ => ?_
  rw [Node.created?_eq_bind]
  cases n.createTable? with
  | none => rfl
  | some name =>
    cases hkey : TableKey.ofName? name with
    | none => simp [Option.filter, hkey]
    | some key =>
      have hsatisfied : (d.nodes.filterMap (Node.satisfied? r.satisfied?)).contains key =
          decide (r.Satisfied d key) := by
        rw [Bool.eq_iff_iff, List.contains_iff_mem, r.satisfied_iff, decide_eq_true_iff]
      simp only [Option.bind_some, Option.map_some, Option.filter_some, hkey, hsatisfied]
      by_cases hs : r.Satisfied d key <;> simp [hs]

open Classical in
/-- A table that is satisfied is not reported. -/
theorem TableRequirement.not_mem_locations {sql : String} {d : Document} (h : Document.parse sql = .ok d)
    (r : TableRequirement) {name : ObjectName} (hname : name ∈ d.nodes.filterMap Node.createTable?)
    (hsatisfied : ∀ key, TableKey.ofName? name = some key → r.Satisfied d key) :
    name.location ∉ r.locations d := by
  rw [r.locations_eq h, List.mem_map]
  rintro ⟨other, hother, hlocation⟩
  obtain ⟨hother, hreported⟩ := List.mem_filter.mp hother
  obtain ⟨key, hkey, hnot⟩ := of_decide_eq_true hreported
  have hplaces : ((d.nodes.filterMap Node.createTable?).map ObjectName.location).Nodup := by
    refine List.pairwise_map.mpr ((Document.createTable_pairwise h).imp fun {x y} hlt heq => ?_)
    rw [heq] at hlt
    exact Location.lt_irrefl _ hlt
  obtain rfl := List.inj_on_of_nodup_map hplaces hother hname hlocation
  exact hnot (hsatisfied key hkey)

namespace Document

open Classical in
/-- Each rule reports one violation for each `CREATE TABLE` of a table that nothing in the document
satisfies, at the last part of its name and in document order. -/
theorem unsatisfied_tables {sql : String} {d : Document} (h : parse sql = .ok d)
    {rule : Rule} {r : TableRequirement}
    (hrule : (rule, r) ∈ [(Rule.heapTable, TableRequirement.clustered), (.rowIdentity, .identified)]) :
    let tables := (d.nodes.filterMap Node.createTable?).filter fun name =>
      ∃ key, TableKey.ofName? name = some key ∧ ¬ r.Satisfied d key
    rule.violations d = tables.map (fun name => rule.violationAt name.location) ∧
      (∀ name ∈ tables, ∃ base, name.base? = some base ∧ name.location = base.span.start) ∧
      (rule.violations d).Pairwise fun v w => v.location < w.location := by
  intro tables
  have hlocations : rule.locations d = r.locations d := by
    rcases List.mem_pair.mp hrule with hr | hr <;> cases hr <;> rfl
  refine ⟨?_, fun name hname => ?_, ?_⟩
  · rw [Rule.violations, hlocations, r.locations_eq h, List.map_map]
    rfl
  · obtain ⟨key, hkey, _⟩ := of_decide_eq_true (List.mem_filter.mp hname).2
    exact TableKey.base?_of_ofName? hkey
  · rw [Rule.violations, hlocations]
    exact List.pairwise_map.mpr (unsatisfied_pairwise h r.satisfied?)

open Classical in
/-- The first table has its index from a later statement, the second has none. -/
theorem unsatisfied_tables_index :
    let sql := "CREATE TABLE a (x INT)\nCREATE TABLE dbo.b (y INT)\nCREATE CLUSTERED INDEX i ON A (x)"
    ∃ d, parse sql = .ok d ∧
      (Rule.heapTable, TableRequirement.clustered) ∈
        [(Rule.heapTable, TableRequirement.clustered), (.rowIdentity, .identified)] ∧
      (Rule.heapTable.violations d).map Violation.location = [⟨2, 18⟩] ∧
      Rule.heapTable.violations d = ((d.nodes.filterMap Node.createTable?).filter fun name =>
        ∃ key, TableKey.ofName? name = some key ∧ ¬ TableRequirement.clustered.Satisfied d key).map
          fun name => Rule.heapTable.violationAt name.location := by
  intro sql
  obtain ⟨d, hd, hplaces⟩ : ∃ d ∈ (parse sql).toOption,
      (Rule.heapTable.violations d).map Violation.location = [⟨2, 18⟩] := by
    decide +kernel
  have hd := eq_ok_of_mem_toOption hd
  have hrule : (Rule.heapTable, TableRequirement.clustered) ∈
      [(Rule.heapTable, TableRequirement.clustered), (.rowIdentity, .identified)] := List.mem_cons_self
  exact ⟨d, hd, hrule, hplaces, (unsatisfied_tables hd hrule).1⟩

end Document

end TransactLint
