import TransactLint.Proofs.Relocation.Tree
import TransactLint.Proofs.Traversal
import TransactLint.Rule

/-!
# Features that do not depend on places

What the rules ask of expressions, names and table definitions is the same whatever their spans are.
-/

namespace TransactLint

variable (F : Span → Span)

/-! ## Subtrees -/

namespace Node

theorem reaches_relocate {n m' : Node} : (n.relocate F).Reaches m' ↔ ∃ m, n.Reaches m ∧
    m.relocate F = m' := by
  constructor
  · intro h
    induction h with
    | refl => exact ⟨n, .refl, rfl⟩
    | child _ hc ih =>
      obtain ⟨m, hm, rfl⟩ := ih
      rw [mem_children, parts_relocate] at hc
      obtain ⟨part, hpart, rfl⟩ := List.mem_map.mp hc
      exact ⟨part, .child hm (mem_children.mpr hpart), rfl⟩
  · rintro ⟨m, hm, rfl⟩
    induction hm with
    | refl => exact .refl
    | child _ hc ih =>
      refine .child ih (mem_children.mpr ?_)
      rw [parts_relocate]
      exact List.mem_map_of_mem (mem_children.mp hc)

theorem any_relocate {p : Node → Bool} (hp : ∀ m : Node, p (m.relocate F) = p m) (n : Node) :
    (n.relocate F).any p = n.any p := by
  rw [any_eq, any_eq, Bool.eq_iff_iff]
  simp only [List.any_eq_true, mem_preorder, reaches_relocate]
  constructor
  · rintro ⟨_, ⟨m, hm, rfl⟩, hpm⟩
    exact ⟨m, hm, hp m ▸ hpm⟩
  · rintro ⟨m, hm, hpm⟩
    exact ⟨m.relocate F, ⟨m, hm, rfl⟩, (hp m).trans hpm⟩

end Node

/-! ## Names -/

theorem base?_mapSpans (name : ObjectName) : (mapSpans F name).base? = name.base?.map (mapSpans F) :=
  List.getLast?_map ..

theorem values_mapSpans (names : List Ident) : (mapSpans F names).map Ident.value = names.map Ident.value :=
  List.map_map ..

theorem simple_mapSpans (name : ObjectName) : (mapSpans F name).simple = name.simple := by
  rw [ObjectName.simple, base?_mapSpans, ObjectName.simple]
  cases name.base? <;> rfl

theorem ofName?_mapSpans (name : ObjectName) : TableKey.ofName? (mapSpans F name) = TableKey.ofName? name := by
  have hvalues : (mapSpans F name).parts.map Ident.value = name.parts.map Ident.value :=
    values_mapSpans F name.parts
  rw [TableKey.ofName?, base?_mapSpans, hvalues, TableKey.ofName?]
  cases name.base? <;> rfl

/-! ## Expressions -/

namespace Expr

theorem unwrap_mapSpans (e : Expr) : (mapSpans F e).unwrap = mapSpans F e.unwrap := by
  fun_induction unwrap e with
  | case1 inner span ih => exact ih
  | case2 e hne =>
    obtain ⟨kind, span⟩ := e
    cases kind with
    | nested inner => exact absurd rfl (hne inner span)
    | _ => rfl

theorem stringValue?_mapSpans (e : Expr) : (mapSpans F e).stringValue? = e.stringValue? := by
  obtain ⟨kind, span⟩ := e
  cases kind <;> rfl

theorem isString_mapSpans (e : Expr) : (mapSpans F e).isString = e.isString := by
  rw [isString, unwrap_mapSpans, stringValue?_mapSpans, isString]

theorem sides?_mapSpans (op : BinaryOperator) (e : Expr) : (mapSpans F e).sides? op = mapSpans F (e.sides? op) := by
  unfold sides?
  rw [unwrap_mapSpans]
  obtain ⟨kind, span⟩ := e.unwrap
  cases kind with
  | binary found left right =>
    change (if found = op then some (mapSpans F left, mapSpans F right) else none) =
      mapSpans F (if found = op then some (left, right) else none)
    rw [apply_ite (mapSpans F)]
    rfl
  | _ => rfl

theorem operandsFrom_mapSpans (op : BinaryOperator) (pending found : List Expr) :
    operandsFrom op (mapSpans F pending) (mapSpans F found) = mapSpans F (operandsFrom op pending found) := by
  fun_induction operandsFrom op pending found with
  | case1 found =>
    rw [mapSpans_list, mapSpans_list, mapSpans_list, List.map_nil, operandsFrom, List.map_reverse]
  | case2 e pending found left right hsides ih =>
    have hmapped : (mapSpans F e).sides? op = some (mapSpans F left, mapSpans F right) := by
      rw [sides?_mapSpans, hsides]
      rfl
    exact (operandsFrom_of_some hmapped _ _).trans ih
  | case3 e pending found hsides ih =>
    have hmapped : (mapSpans F e).sides? op = none := by
      rw [sides?_mapSpans, hsides]
      rfl
    exact (operandsFrom_of_none hmapped _ _).trans ih

theorem operands_mapSpans (op : BinaryOperator) (e : Expr) :
    (mapSpans F e).operands op = mapSpans F (e.operands op) :=
  operandsFrom_mapSpans F op [e] []

theorem anyWithin_mapSpans {p : Expr → Bool} (hp : ∀ e : Expr, p (mapSpans F e) = p e) (e : Expr) :
    (mapSpans F e).anyWithin p = e.anyWithin p := by
  refine Node.any_relocate F (fun m => ?_) (.expr e)
  cases m with
  | expr e => exact hp e
  | _ => rfl

theorem containsString_mapSpans (e : Expr) : (mapSpans F e).containsString = e.containsString :=
  anyWithin_mapSpans F (fun e => congrArg Option.isSome (stringValue?_mapSpans F e)) e

theorem containsCall_mapSpans (functions : List String) (e : Expr) :
    (mapSpans F e).containsCall functions = e.containsCall functions := by
  refine anyWithin_mapSpans F (fun e => ?_) e
  obtain ⟨kind, span⟩ := e
  cases kind with
  | call name distinct arguments group window =>
    exact congrArg (fun s : String => functions.any fun f => Text.sameIgnoringCase f.toList s.toList)
      (simple_mapSpans F name)
  | _ => rfl

theorem containsConversion_mapSpans (e : Expr) : (mapSpans F e).containsConversion = e.containsConversion := by
  refine anyWithin_mapSpans F (fun e => ?_) e
  obtain ⟨kind, span⟩ := e
  cases kind <;> rfl

theorem containsColumn_mapSpans (e : Expr) : (mapSpans F e).containsColumn = e.containsColumn := by
  refine anyWithin_mapSpans F (fun e => ?_) e
  obtain ⟨kind, span⟩ := e
  cases kind <;> rfl

theorem key?_mapSpans (e : Expr) : (mapSpans F e).key? = e.key? := by
  rw [key?, unwrap_mapSpans, key?]
  obtain ⟨kind, span⟩ := e.unwrap
  cases kind with
  | column parts =>
    exact congrArg (fun values => key?.nonempty (".".intercalate values)) (values_mapSpans F parts)
  | _ => rfl

theorem guardArgument?_mapSpans (e : Expr) :
    (mapSpans F e).guardArgument? = e.guardArgument?.map (mapSpans F) := by
  obtain ⟨kind, span⟩ := e
  cases kind with
  | call name distinct arguments group window =>
    rcases arguments with _ | ⟨first, _ | ⟨second, rest⟩⟩
    · rfl
    · change (if guardFunctions.any (fun f => Text.sameIgnoringCase f.toList (mapSpans F name).simple.toList) then
          some (mapSpans F first) else none) = _
      rw [simple_mapSpans, guardArgument?]
      split <;> rfl
    · rfl
  | _ => rfl

theorem conversion?_mapSpans (e : Expr) :
    (mapSpans F e).conversion? = e.conversion?.map fun (function, operand) => (function, mapSpans F operand) := by
  rw [conversion?, unwrap_mapSpans, conversion?]
  obtain ⟨kind, span⟩ := e.unwrap
  cases kind <;> rfl

theorem convertsKey_mapSpans (e : Expr) (key : String) : (mapSpans F e).convertsKey key = e.convertsKey key := by
  rw [convertsKey, conversion?_mapSpans, convertsKey]
  cases e.conversion? with
  | none => rfl
  | some x =>
    change (!x.1.isTry && (mapSpans F x.2).key? == some key) = _
    rw [key?_mapSpans]
    rfl

theorem convertsColumn_mapSpans (e : Expr) : (mapSpans F e).convertsColumn = e.convertsColumn := by
  rw [convertsColumn, conversion?_mapSpans, convertsColumn]
  cases e.conversion? with
  | none => rfl
  | some x => exact containsColumn_mapSpans F x.2

theorem comparesConverted_mapSpans (e : Expr) : (mapSpans F e).comparesConverted = e.comparesConverted := by
  obtain ⟨kind, span⟩ := e
  cases kind with
  | binary op left right =>
    change (op.isComparison && ((mapSpans F left).convertsColumn || (mapSpans F right).convertsColumn)) = _
    rw [convertsColumn_mapSpans, convertsColumn_mapSpans]
    rfl
  | like operand pattern escape negated =>
    change ((mapSpans F operand).convertsColumn || (mapSpans F pattern).convertsColumn) = _
    rw [convertsColumn_mapSpans, convertsColumn_mapSpans]
    rfl
  | inList operand list negated => exact convertsColumn_mapSpans F operand
  | inSubquery operand query negated => exact convertsColumn_mapSpans F operand
  | between operand low high negated =>
    change ((mapSpans F operand).convertsColumn || (mapSpans F low).convertsColumn ||
      (mapSpans F high).convertsColumn) = _
    rw [convertsColumn_mapSpans, convertsColumn_mapSpans, convertsColumn_mapSpans]
    rfl
  | _ => rfl

end Expr

theorem Node.opensPredicates_relocate (n : Node) : (n.relocate F).opensPredicates = n.opensPredicates := by
  cases n with
  | tableSource x =>
    obtain ⟨kind, span⟩ := x
    cases kind <;> rfl
  | _ => rfl

/-! ## Chains -/

namespace Chain

theorem topOf?_relocate (op : BinaryOperator) (n : Node) :
    topOf? op (n.relocate F) = (topOf? op n).map (mapSpans F) := by
  cases n with
  | expr e =>
    obtain ⟨kind, span⟩ := e
    cases kind with
    | binary found left right =>
      change (if found = op then _ else _) = _
      rw [topOf?]
      split <;> rfl
    | _ => rfl
  | _ => rfl

theorem ofExpr_mapSpans (op : BinaryOperator) (e : Expr) :
    ofExpr op (mapSpans F e) = ⟨mapSpans F (e.operands op), F e.span⟩ := by
  rw [ofExpr, Expr.operands_mapSpans]
  obtain ⟨kind, span⟩ := e
  rfl

def Placeless (p : Chain → Bool) : Prop :=
  ∀ (F : Span → Span) (operands : List Expr) (span : Span),
    p ⟨mapSpans F operands, F span⟩ = p ⟨operands, span⟩

theorem any_mapSpans {p : Expr → Bool} (hp : ∀ e : Expr, p (mapSpans F e) = p e) (es : List Expr) :
    (mapSpans F es).any p = es.any p := by
  rw [mapSpans_list, List.any_map]
  exact congrArg (List.any es) (funext hp)

mutual

theorem evens_map {α β : Type} (f : α → β) : ∀ as : List α, evens (as.map f) = (evens as).map f
  | [] => rfl
  | a :: as => congrArg (f a :: ·) (odds_map f as)

theorem odds_map {α β : Type} (f : α → β) : ∀ as : List α, odds (as.map f) = (odds as).map f
  | [] => rfl
  | _ :: as => evens_map f as

end

theorem separator?_mapSpans (operands : List Expr) : separator? (mapSpans F operands) = separator? operands := by
  have hvalue : ∀ e : Expr, (mapSpans F e).unwrap.stringValue? = e.unwrap.stringValue? := fun e => by
    rw [Expr.unwrap_mapSpans, Expr.stringValue?_mapSpans]
  simp only [separator?, mapSpans_list, List.length_map, odds_map, evens_map, List.head?_map, Option.bind_map,
    List.all_map, List.any_map, Function.comp_def, hvalue, Expr.containsCall_mapSpans]

theorem isSeparated_placeless : Placeless isSeparated :=
  fun F operands _ => congrArg Option.isSome (separator?_mapSpans F operands)

theorem replacesNull_placeless : Placeless replacesNull := by
  intro F operands span
  simp only [replacesNull, isSeparated_placeless F operands span, any_mapSpans F (Expr.containsString_mapSpans F),
    any_mapSpans F (Expr.containsCall_mapSpans F nullHandling)]

theorem convertsOperand_placeless : Placeless convertsOperand := by
  intro F operands span
  have hconverts := any_mapSpans F (p := fun e => e.containsCall ["ISNULL"] || e.containsConversion)
    (fun e => by rw [Expr.containsCall_mapSpans, Expr.containsConversion_mapSpans]) operands
  simp only [convertsOperand, any_mapSpans F (Expr.isString_mapSpans F), hconverts]

end Chain

/-! ## Tables -/

def StatementKind.Placeless (satisfied? : StatementKind → Option TableKey) : Prop :=
  ∀ (F : Span → Span) (kind : StatementKind), satisfied? (mapSpans F kind) = satisfied? kind

namespace TableRequirement

structure Placeless (r : TableRequirement) : Prop where
  index : ∀ (F : Span → Span) (i : IndexDefinition), r.index (mapSpans F i) = r.index i
  constraint : ∀ (F : Span → Span) (c : ConstraintDefinition), r.constraint (mapSpans F c) = r.constraint c
  createIndex : ∀ (F : Span → Span) (i : CreateIndex), r.createIndex (mapSpans F i) = r.createIndex i

theorem clustered_placeless : clustered.Placeless where
  index _ _ := rfl
  constraint F c := by
    obtain ⟨name, kind, span⟩ := c
    cases kind <;> rfl
  createIndex _ _ := rfl

theorem identified_placeless : identified.Placeless where
  index _ _ := rfl
  constraint F c := by
    obtain ⟨name, kind, span⟩ := c
    cases kind <;> rfl
  createIndex _ _ := rfl

variable {r : TableRequirement} (hr : r.Placeless)
include hr

theorem Placeless.definition (t : TableDefinition) : r.definition (mapSpans F t) = r.definition t := by
  have hindex : r.index ∘ mapSpans F = r.index := funext (hr.index F)
  have hconstraint : r.constraint ∘ mapSpans F = r.constraint := funext (hr.constraint F)
  have hcolumn : r.column ∘ mapSpans F = r.column := by
    funext c
    change ((c.index.map (mapSpans F)).any r.index || (c.constraints.map (mapSpans F)).any r.constraint) = _
    simp only [Option.any_map, hr.index, List.any_map, hconstraint]
    rfl
  change ((t.indexes.map (mapSpans F)).any r.index || (t.constraints.map (mapSpans F)).any r.constraint ||
    (t.columns.map (mapSpans F)).any r.column) = _
  rw [List.any_map, List.any_map, List.any_map, hindex, hconstraint, hcolumn]
  rfl

theorem Placeless.satisfied? : StatementKind.Placeless r.satisfied? := by
  intro F kind
  cases kind with
  | createTable name t =>
    change (if r.definition (mapSpans F t) then TableKey.ofName? (mapSpans F name) else none) = _
    rw [hr.definition, ofName?_mapSpans]
    rfl
  | alterTable name action =>
    cases action with
    | add t =>
      change (if r.definition (mapSpans F t) then TableKey.ofName? (mapSpans F name) else none) = _
      rw [hr.definition, ofName?_mapSpans]
      rfl
    | unknown => rfl
  | createIndex i =>
    change (if r.createIndex (mapSpans F i) then TableKey.ofName? (mapSpans F i.table) else none) = _
    rw [hr.createIndex, ofName?_mapSpans]
    rfl
  | _ => rfl

end TableRequirement

namespace PropertyCall

theorem literalText?_mapSpans (e : Expr) : literalText? (mapSpans F e) = literalText? e := by
  obtain ⟨kind, span⟩ := e
  cases kind <;> rfl

theorem named?_mapSpans (arguments : List Argument) (key : String) :
    named? (mapSpans F arguments) key = named? arguments key := by
  have hname : ∀ a : Argument, ((mapSpans F a).name.any fun name => argumentKey name == key) =
      a.name.any fun name => argumentKey name == key := fun a => Option.any_map ..
  have hvalue : ∀ a : Argument, literalText? (mapSpans F a).value = literalText? a.value :=
    fun a => literalText?_mapSpans F a.value
  simp only [named?, mapSpans_list, ← List.map_reverse, List.find?_map, Function.comp_def, Option.bind_map, hname,
    hvalue]

theorem positional_mapSpans (arguments : List Argument) :
    positional (mapSpans F arguments) = positional arguments := by
  have hname : ∀ a : Argument, (mapSpans F a).name.isNone = a.name.isNone := fun a => Option.isNone_map
  have hvalue : ∀ a : Argument, literalText? (mapSpans F a).value = literalText? a.value :=
    fun a => literalText?_mapSpans F a.value
  simp only [positional, mapSpans_list, List.filter_map, List.map_map, Function.comp_def, hname, hvalue]

theorem ofArguments?_mapSpans (arguments : List Argument) :
    ofArguments? (mapSpans F arguments) = ofArguments? arguments := by
  simp only [ofArguments?, named?_mapSpans, positional_mapSpans]

end PropertyCall

theorem StatementKind.described?_placeless : Placeless described? := by
  intro F kind
  cases kind with
  | execution x =>
    obtain ⟨returnVariable, target⟩ := x
    cases target with
    | procedure name arguments =>
      change (if propertyProcedures.any (fun p => Text.sameIgnoringCase p.toList
        (Text.trim (mapSpans F name).simple.toList)) then describedTable? (mapSpans F arguments) else none) = _
      rw [simple_mapSpans, describedTable?, PropertyCall.ofArguments?_mapSpans]
      rfl
    | dynamic text => rfl
  | _ => rfl

end TransactLint
