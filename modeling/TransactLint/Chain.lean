import TransactLint.Node.Walk
import TransactLint.Text.UpperCase

/-!
# Operator chains

`a + b + c` is a tree of two additions. A chain is the flat view of such a tree: the operands from
left to right, with parenthesized chains of the same operator taken in. Only the outermost node of
each chain counts, so a chain is judged once. The rules on concatenation look for chains of `+` that
build a text and replace NULL by hand, or convert on the way.
-/

namespace TransactLint

namespace Expr

/-- The expression inside all parentheses around it. -/
def unwrap : Expr → Expr
  | ⟨.nested inner, _⟩ => unwrap inner
  | e => e

/-! ## Operands -/

/-- The sides of an application of `op`, perhaps in parentheses. -/
def sides? (op : BinaryOperator) (e : Expr) : Option (Expr × Expr) :=
  match e.unwrap with
  | ⟨.binary found left right, _⟩ => if found = op then some (left, right) else none
  | _ => none

theorem sizeOf_unwrap_le (e : Expr) : sizeOf e.unwrap ≤ sizeOf e := by
  fun_induction unwrap e with
  | case1 inner span ih =>
    rw [mk.sizeOf_spec, ExprKind.nested.sizeOf_spec]
    omega
  | case2 => exact Nat.le_refl _

theorem sizeOf_sides_lt {op : BinaryOperator} {e left right : Expr} (h : e.sides? op = some (left, right)) :
    sizeOf left + sizeOf right + 1 < sizeOf e := by
  have hle := sizeOf_unwrap_le e
  unfold sides? at h
  split at h
  · rename_i found l r span heq
    split at h
    · cases h
      rw [heq, mk.sizeOf_spec, ExprKind.binary.sizeOf_spec] at hle
      omega
    · cases h
  · cases h

/-- Takes apart what is on a stack, where `found` has the operands so far, the last one first. -/
def operandsFrom (op : BinaryOperator) : List Expr → List Expr → List Expr
  | [], found => found.reverse
  | e :: pending, found =>
    match _h : e.sides? op with
    | some (left, right) => operandsFrom op (left :: right :: pending) found
    | none => operandsFrom op pending (e :: found)
termination_by pending => sizeOf pending
decreasing_by
  · have := sizeOf_sides_lt _h
    simp only [List.cons.sizeOf_spec]
    omega
  · simp only [List.cons.sizeOf_spec]
    omega

theorem operandsFrom_of_some {op : BinaryOperator} {e left right : Expr} (h : e.sides? op = some (left, right))
    (pending found : List Expr) :
    operandsFrom op (e :: pending) found = operandsFrom op (left :: right :: pending) found := by
  rw [operandsFrom]
  split
  · rename_i hsides
    cases h.symm.trans hsides
    rfl
  · rename_i hsides
    cases h.symm.trans hsides

theorem operandsFrom_of_none {op : BinaryOperator} {e : Expr} (h : e.sides? op = none) (pending found : List Expr) :
    operandsFrom op (e :: pending) found = operandsFrom op pending (e :: found) := by
  rw [operandsFrom]
  split
  · rename_i hsides
    cases h.symm.trans hsides
  · rfl

/-- The operands of the chain that `e` is the top of, each with its parentheses. -/
def operands (op : BinaryOperator) (e : Expr) : List Expr := operandsFrom op [e] []

/-! ## What an operand holds -/

/-- The value of a string literal. -/
def stringValue? : Expr → Option String
  | ⟨.literal kind value, _⟩ => if kind.isString then some value else none
  | _ => none

/-- Whether the expression is a string literal, perhaps in parentheses. -/
def isString (e : Expr) : Bool := e.unwrap.stringValue?.isSome

/-- Whether `p` holds of an expression in the subtree. -/
def anyWithin (p : Expr → Bool) (e : Expr) : Bool :=
  (Node.expr e).any fun
    | .expr inner => p inner
    | _ => false

def containsString (e : Expr) : Bool := e.anyWithin fun inner => inner.stringValue?.isSome

/-- Whether the expression is a call of one of the functions, by its last name in any case. -/
def calls (functions : List String) : Expr → Bool
  | ⟨.call name _ _ _ _, _⟩ =>
    functions.any fun f => Text.sameIgnoringCase f.toList name.simple.toList
  | _ => false

def containsCall (functions : List String) (e : Expr) : Bool := e.anyWithin (calls functions)

/-- Whether a `CAST` or `CONVERT` occurs; the `TRY_` forms do not count. -/
def containsConversion (e : Expr) : Bool :=
  e.anyWithin fun
    | ⟨.conversion function _ _ _, _⟩ => !function.isTry
    | _ => false

end Expr

/-- The functions that put a value in place of NULL. -/
def nullHandling : List String := ["ISNULL", "COALESCE"]

/-! ## Chains -/

structure Chain where
  operands : List Expr
  span : Span

namespace Chain

def ofExpr (op : BinaryOperator) (e : Expr) : Chain := ⟨e.operands op, e.span⟩

end Chain

/-- Whether no span of `all` strictly contains `s`. -/
def Span.isOutermost (s : Span) (all : List Span) : Bool :=
  !all.any fun other => other.strictlyContains s

namespace Chain

/-- The node as an application of `op`. -/
def topOf? (op : BinaryOperator) : Node → Option Expr
  | .expr ⟨.binary found left right, span⟩ =>
    if found = op then some ⟨.binary found left right, span⟩ else none
  | _ => none

/-- Keeps the expressions that the last one kept, at first `enclosing`, does not strictly contain.
Of expressions in document order these are the outermost. -/
def outermostFrom (enclosing : Option Span) : List Expr → List Expr
  | [] => []
  | e :: es =>
    if e.span.isOutermost enclosing.toList then e :: outermostFrom (some e.span) es
    else outermostFrom enclosing es

/-- The outermost chains of `op` among nodes in document order. -/
def outermost (op : BinaryOperator) (nodes : List Node) : List Chain :=
  (outermostFrom none (nodes.filterMap (topOf? op))).map (ofExpr op)

/-! ## Separated values -/

mutual

/-- The elements at even places, the first included. -/
def evens {α : Type} : List α → List α
  | [] => []
  | a :: as => a :: odds as

/-- The elements at odd places. -/
def odds {α : Type} : List α → List α
  | [] => []
  | _ :: as => evens as

end

/-- The separator of `value + sep + value + sep + value …`: at least three values, between them
always the same string, not empty, and one of the values replaces NULL. -/
def separator? (operands : List Expr) : Option String :=
  if operands.length < 5 then none
  else
    match (odds operands).head?.bind fun e => e.unwrap.stringValue? with
    | none => none
    | some sep =>
      if sep ≠ "" && (odds operands).all (fun e => e.unwrap.stringValue? == some sep) &&
          (evens operands).any (fun e => e.containsCall nullHandling)
      then some sep
      else none

end Chain

/-- The outermost chains of `op` in a document. -/
def Document.chains (op : BinaryOperator) (d : Document) : List Chain := Chain.outermost op d.nodes

/-! ## Concatenation -/

namespace Chain

/-- The chain repeats one separator between its values. -/
def isSeparated (c : Chain) : Bool := (separator? c.operands).isSome

/-- The chain holds a string and replaces NULL, and is not separated. -/
def replacesNull (c : Chain) : Bool :=
  !c.isSeparated && c.operands.any Expr.containsString &&
    c.operands.any fun e => e.containsCall nullHandling

/-- A string is an operand of the chain, and an operand replaces NULL by `ISNULL` or converts. -/
def convertsOperand (c : Chain) : Bool :=
  c.operands.any Expr.isString &&
    c.operands.any fun e => e.containsCall ["ISNULL"] || e.containsConversion

end Chain

/-- The places of the outermost `+` chains with a property. -/
def Document.concatenations (p : Chain → Bool) (d : Document) : List Location :=
  ((d.chains .add).filter p).map fun c => c.span.start

end TransactLint
