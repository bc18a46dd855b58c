import TransactLint.Proofs.Concatenation
import TransactLint.Proofs.Relocation.Feature

/-!
# Flattening

A chain is flattened with a stack of the expressions that are still to be taken apart. This is the recursion on the
expression: the stack holds what comes after the operands found so far. It goes through parentheses, so the operands
are the leaves of the expression, however these are bracketed. The rules on concatenation see an operand without its
parentheses, and give one verdict for all bracketings.
-/

namespace TransactLint

namespace Expr

/-! ## Flattening as a recursion -/

/-- Puts the operands of `inner` before `rest`, where `operand` is `inner` with its parentheses. -/
def operandsOnto (op : BinaryOperator) (operand : Expr) : Expr → List Expr → List Expr
  | ⟨.nested inner, _⟩, rest => operandsOnto op operand inner rest
  | ⟨.binary found left right, _⟩, rest =>
    if found = op then operandsOnto op left left (operandsOnto op right right rest)
    else operand :: rest
  | _, rest => operand :: rest

section
variable {op : BinaryOperator}

theorem sides?_eq_some_iff {e left right : Expr} :
    e.sides? op = some (left, right) ↔ e.unwrap.kind = .binary op left right := by
  unfold sides?
  obtain ⟨kind, span⟩ := e.unwrap
  cases kind <;> simp

theorem operandsOnto_eq (operand e : Expr) (rest : List Expr) :
    operandsOnto op operand e rest =
      match e.sides? op with
      | some (left, right) => operandsOnto op left left (operandsOnto op right right rest)
      | none => operand :: rest := by
  obtain ⟨kind, span⟩ := e
  cases kind with
  | nested inner => exact operandsOnto_eq operand inner rest
  | binary found left right =>
    by_cases hfound : found = op
    · simp [operandsOnto, sides?, unwrap, hfound]
    · simp [operandsOnto, sides?, unwrap, hfound]
  | _ => rfl

/-- The loop gives the operands found, and after them those of what is on the stack. -/
theorem operandsFrom_eq (pending found : List Expr) :
    operandsFrom op pending found = found.reverse ++ pending.foldr (fun e rest => operandsOnto op e e rest) [] := by
  fun_induction operandsFrom op pending found with
  | case1 found => exact (List.append_nil _).symm
  | case2 e pending found left right hsides ih =>
    simp only [ih, List.foldr_cons]
    rw [operandsOnto_eq e e, hsides]
  | case3 e pending found hsides ih =>
    rw [ih, List.foldr_cons, operandsOnto_eq e e, hsides, List.reverse_cons, List.append_assoc]
    rfl

theorem operands_eq (e : Expr) : e.operands op = operandsOnto op e e [] := by
  rw [operands, operandsFrom_eq]
  rfl

end

/-! ## Bracketings -/

/-- The expression joins the leaves by `op`, from left to right and in any association, with parentheses around any
part. A leaf is not itself an application of `op` in parentheses. -/
inductive Brackets (op : BinaryOperator) : List Expr → Expr → Prop
  | leaf {e : Expr} (h : ∀ left right, e.unwrap.kind ≠ .binary op left right) : Brackets op [e] e
  | nested {leaves : List Expr} {e : Expr} (h : Brackets op leaves e) (span : Span) :
      Brackets op leaves ⟨.nested e, span⟩
  | binary {front back : List Expr} {left right : Expr} (hleft : Brackets op front left)
      (hright : Brackets op back right)
      (span : Span) : Brackets op (front ++ back) ⟨.binary op left right, span⟩

section
variable {op : BinaryOperator}

/-- What is not an application of `op` in parentheses is one operand. -/
theorem operandsOnto_leaf (operand e : Expr) (rest : List Expr)
    (h : ∀ left right, e.unwrap.kind ≠ .binary op left right) :
    operandsOnto op operand e rest = operand :: rest := by
  have hsides : e.sides? op = none :=
    Option.eq_none_iff_forall_ne_some.mpr fun x hx => h x.1 x.2 (sides?_eq_some_iff.mp hx)
  rw [operandsOnto_eq, hsides]

theorem operandsOnto_binary (operand left right : Expr) (span : Span) (rest : List Expr) :
    operandsOnto op operand ⟨.binary op left right, span⟩ rest =
      operandsOnto op left left (operandsOnto op right right rest) := by
  rw [operandsOnto, if_pos rfl]

/-- The operands put before `rest` are the leaves. -/
theorem Brackets.map_operandsOnto {leaves : List Expr} {e : Expr} (h : Brackets op leaves e) {operand : Expr}
    (hoperand : operand.unwrap = e.unwrap) (rest : List Expr) :
    (operandsOnto op operand e rest).map unwrap = leaves.map unwrap ++ rest.map unwrap := by
  induction h generalizing operand rest with
  | leaf hleaf => rw [operandsOnto_leaf operand _ rest hleaf, List.map_cons, hoperand]; rfl
  | nested _ _ ih => exact ih hoperand rest
  | binary _ _ _ ihleft ihright =>
    rw [operandsOnto_binary, ihleft rfl, ihright rfl, List.map_append, List.append_assoc]

theorem Brackets.map_operands {leaves : List Expr} {e : Expr} (h : Brackets op leaves e) :
    (e.operands op).map unwrap = leaves.map unwrap := by
  rw [operands_eq, h.map_operandsOnto rfl, List.map_nil, List.append_nil]

/-- Where `operand` is `e` in parentheses, what is put before `rest` are leaves that `operand` joins. -/
theorem exists_brackets_operandsOnto (operand e : Expr) (rest : List Expr) (hunwrap : operand.unwrap = e.unwrap)
    (hwraps : ∀ leaves, Brackets op leaves e → Brackets op leaves operand) :
    ∃ leaves, operandsOnto op operand e rest = leaves ++ rest ∧ Brackets op leaves operand := by
  obtain ⟨kind, span⟩ := e
  have hleaf : (∀ left right, (Expr.mk kind span).unwrap.kind ≠ .binary op left right) →
      ∃ leaves, operandsOnto op operand ⟨kind, span⟩ rest = leaves ++ rest ∧
        Brackets op leaves operand := by
    intro h
    exact ⟨[operand], operandsOnto_leaf operand _ rest h, .leaf (hunwrap ▸ h)⟩
  cases kind with
  | nested inner =>
    exact exists_brackets_operandsOnto operand inner rest hunwrap fun leaves h => hwraps leaves (h.nested span)
  | binary found left right =>
    by_cases hfound : found = op
    · -- the right operand is put before `rest`, and the left one before both
      obtain ⟨back, hback, hright⟩ := exists_brackets_operandsOnto right right rest rfl fun _ h => h
      obtain ⟨front, hfront, hleft⟩ := exists_brackets_operandsOnto left left (back ++ rest) rfl fun _ h => h
      refine ⟨front ++ back, ?_, hwraps _ (by rw [hfound]; exact hleft.binary hright span)⟩
      rw [hfound, operandsOnto_binary, hback, hfront, List.append_assoc]
    · refine hleaf fun l r h => hfound ?_
      cases h
      rfl
  | _ => exact hleaf nofun

theorem brackets_operands (op : BinaryOperator) (e : Expr) : Brackets op (e.operands op) e := by
  obtain ⟨leaves, hleaves, hbrackets⟩ :=
    exists_brackets_operandsOnto e e [] rfl fun leaves (h : Brackets op leaves e) => h
  rwa [operands_eq, hleaves, List.append_nil]

end

/-! ## Operands without their parentheses -/

theorem unwrap_unwrap (e : Expr) : e.unwrap.unwrap = e.unwrap := by
  obtain ⟨kind, span⟩ := e
  cases kind with
  | nested inner => exact unwrap_unwrap inner
  | _ => rfl

theorem isString_unwrap (e : Expr) : e.unwrap.isString = e.isString := by
  rw [isString, unwrap_unwrap, isString]

/-- A search that does not look for parentheses may begin inside of them. -/
theorem anyWithin_unwrap {p : Expr → Bool} (hp : ∀ inner span, p ⟨.nested inner, span⟩ = false) (e : Expr) :
    e.unwrap.anyWithin p = e.anyWithin p := by
  obtain ⟨kind, span⟩ := e
  cases kind with
  | nested inner =>
    refine (anyWithin_unwrap hp inner).trans ?_
    have hchildren : (Node.expr ⟨.nested inner, span⟩).children = [.expr inner] := rfl
    rw [anyWithin, anyWithin, Node.any_eq, Node.any_eq, Node.preorder_eq (.expr ⟨.nested inner, span⟩),
      hchildren]
    simp [hp]
  | _ => rfl

theorem containsString_unwrap (e : Expr) : e.unwrap.containsString = e.containsString :=
  anyWithin_unwrap (fun _ _ => rfl) e

theorem containsCall_unwrap (functions : List String) (e : Expr) :
    e.unwrap.containsCall functions = e.containsCall functions :=
  anyWithin_unwrap (fun _ _ => rfl) e

theorem containsConversion_unwrap (e : Expr) : e.unwrap.containsConversion = e.containsConversion :=
  anyWithin_unwrap (fun _ _ => rfl) e

end Expr

namespace Chain

open TransactLint.Expr

theorem separator?_map_unwrap (operands : List Expr) : separator? (operands.map unwrap) = separator? operands := by
  simp only [separator?, List.length_map, odds_map, evens_map, List.head?_map, Option.bind_map, List.all_map,
    List.any_map, Function.comp_def, unwrap_unwrap, containsCall_unwrap]

/-- The rules on concatenation ask nothing about the parentheses of an operand. -/
theorem verdicts_map_unwrap (operands : List Expr) (span span' : Span) :
    ∀ verdict ∈ [isSeparated, replacesNull, convertsOperand],
      verdict ⟨operands.map unwrap, span'⟩ = verdict ⟨operands, span⟩ := by
  have hseparated : isSeparated ⟨operands.map unwrap, span'⟩ = isSeparated ⟨operands, span⟩ := by
    rw [isSeparated, separator?_map_unwrap, isSeparated]
  intro verdict hverdict
  have hcases : verdict = isSeparated ∨ verdict = replacesNull ∨ verdict = convertsOperand := by
    simpa using hverdict
  rcases hcases with rfl | rfl | rfl
  · exact hseparated
  · simp only [replacesNull, hseparated, List.any_map, Function.comp_def, containsString_unwrap,
      containsCall_unwrap]
  · simp only [convertsOperand, List.any_map, Function.comp_def, isString_unwrap, containsCall_unwrap,
      containsConversion_unwrap]

end Chain

/-- However leaves are joined by an operator, in any association and with any parentheses, flattening gives back the
leaves, in order and each once. So the separator and the verdicts of the three rules on concatenation depend on the
leaves alone. Every expression is such a bracketing of its operands. -/
theorem Expr.operands_of_brackets {op : BinaryOperator} {leaves : List Expr} {e : Expr} (h : Brackets op leaves e) :
    (e.operands op).map unwrap = leaves.map unwrap ∧
      (∀ leaves' e', Brackets op leaves' e' → leaves'.map unwrap = leaves.map unwrap →
        Chain.separator? (e'.operands op) = Chain.separator? (e.operands op) ∧
          ∀ verdict ∈ [Chain.isSeparated, Chain.replacesNull, Chain.convertsOperand],
            verdict (.ofExpr op e') = verdict (.ofExpr op e)) ∧
      Brackets op (e.operands op) e := by
  refine ⟨h.map_operands, fun leaves' e' h' hleaves => ?_, brackets_operands op e⟩
  have hoperands : (e'.operands op).map unwrap = (e.operands op).map unwrap := by
    rw [h'.map_operands, hleaves, h.map_operands]
  refine ⟨?_, fun verdict hverdict => ?_⟩
  · rw [← Chain.separator?_map_unwrap, hoperands, Chain.separator?_map_unwrap]
  · rw [Chain.ofExpr, Chain.ofExpr, ← Chain.verdicts_map_unwrap _ _ e.span verdict hverdict, hoperands,
      Chain.verdicts_map_unwrap _ _ _ verdict hverdict]

/-- Five leaves, joined from the left and, with parentheses around a leaf and around parts, from the right. -/
theorem Expr.operands_of_brackets_right :
    let span : Span := ⟨⟨1, 1⟩, 0, 0, 0, 1⟩
    let column (name : String) : Expr := ⟨.column [⟨name, none, span⟩], span⟩
    let comma : Expr := ⟨.literal .string ",", span⟩
    let value : Expr := ⟨.call ⟨[⟨"isnull", none, span⟩], span⟩ false [column "b", column "c"] [] none,
      span⟩
    let sum (left right : Expr) : Expr := ⟨.binary .add left right, span⟩
    let nested (e : Expr) : Expr := ⟨.nested e, span⟩
    let fromLeft := sum (sum (sum (sum (column "a") comma) value) comma) (column "d")
    let fromRight := sum (column "a")
      (nested (sum (nested (nested comma)) (sum (nested value) (nested (sum comma (column "d"))))))
    let leaves := [column "a", comma, value, comma, column "d"]
    Brackets .add leaves fromLeft ∧ Brackets .add leaves fromRight ∧
      (fromRight.operands .add).map unwrap = leaves.map unwrap ∧
      Chain.separator? (fromLeft.operands .add) = some "," ∧
      Chain.separator? (fromRight.operands .add) = Chain.separator? (fromLeft.operands .add) := by
  intro span column comma value sum nested fromLeft fromRight leaves
  have hcolumn : ∀ name, Brackets .add [column name] (column name) := fun name => .leaf nofun
  have hcomma : Brackets .add [comma] comma := .leaf nofun
  have hvalue : Brackets .add [value] value := .leaf nofun
  have hleft : Brackets .add leaves fromLeft :=
    ((((hcolumn "a").binary hcomma span).binary hvalue span).binary hcomma span).binary (hcolumn "d") span
  have hright : Brackets .add leaves fromRight :=
    (hcolumn "a").binary (.nested (.binary ((hcomma.nested span).nested span) (.binary (hvalue.nested span)
      (.nested (hcomma.binary (hcolumn "d") span) span) span) span) span) span
  have hseparator : Chain.separator? (fromLeft.operands .add) = some "," := by decide +kernel
  exact ⟨hleft, hright, (operands_of_brackets hright).1, hseparator,
    ((operands_of_brackets hleft).2.1 leaves fromRight hright rfl).1⟩

end TransactLint
