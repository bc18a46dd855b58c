import TransactLint.Grammar.Script
import TransactLint.Proofs.Depth
import TransactLint.Proofs.Layout
import TransactLint.Proofs.Wording

/-!
# The form of nodes

What the grammar ensures of the nodes that it yields, whatever stands in them: operands bind at least as
tightly as their operator asks, what an expression encloses stands behind its first terminal, the words
of a join stand between its two sources, what is not modelled has been passed over, and table definitions
and what may have an alias have been read by their productions. `Formed` says so of all nodes of a subtree,
and bounds the nesting in it.
-/

namespace TransactLint

open Grammar (Rank)

/-! ## Ranks -/

namespace Grammar.Rank

theorem le_refl (r : Rank) : r ≤ r := Nat.le_refl _

theorem le_trans {r s t : Rank} (hrs : r ≤ s) (hst : s ≤ t) : r ≤ t := Nat.le_trans hrs hst

theorem le_next (r : Rank) : r ≤ r.next := by cases r <;> decide

end Grammar.Rank

theorem BinaryOperator.rank_of_isComparison {op : BinaryOperator} (h : op.isComparison = true) :
    op.rank = .predicate := by
  cases op <;> first | rfl | cases h

def ExprKind.rank : ExprKind → Rank
  | .binary op _ _ => op.rank
  | .unary op _ => op.rank
  | .inList _ _ _ | .inSubquery _ _ _ | .between _ _ _ _ | .like _ _ _ _ | .isNull _ _ => .predicate
  | _ => .primary

def Expr.rank (e : Expr) : Rank := e.kind.rank

/-- The operands of an operator or a predicate, each with the loosest rank that it may have. -/
def ExprKind.operands : ExprKind → List (Expr × Rank)
  | .binary op left right => [(left, op.leftRank), (right, op.rank.next)]
  | .unary op operand => [(operand, op.rank)]
  | .inList operand _ _ | .inSubquery operand _ _ | .isNull operand _ => [(operand, .additive)]
  | .between operand low high _ => [(operand, .additive), (low, .additive), (high, .additive)]
  | .like operand pattern escape _ =>
    (operand, .additive) :: (pattern, .additive) :: escape.toList.map fun e => (e, .additive)
  | _ => []

def ExprKind.variableName? : ExprKind → Option Ident
  | .localVariable name => some name
  | _ => none

/-! ## Nodes -/

/-- The node stands behind the terminal at which the span begins. -/
def Span.Leads (ts : Terminals) (s : Span) (n : Node) : Prop :=
  ∃ a b i j, a < i ∧ s = ts.span a b ∧ Stands ts n i j

structure Expr.Proper (ts : Terminals) (e : Expr) : Prop where
  operands : ∀ x ∈ e.kind.operands, x.2 ≤ x.1.rank
  enclosed : ∀ c ∈ e.kind.enclosed, e.span.Leads ts c
  variableName : ∀ name ∈ e.kind.variableName?, ∃ pos pos', Grammar.variableName ts pos = .ok (name, pos')

/-- The words of a join have been read between its two sources, and its condition stands after them. -/
structure QualifiedJoin.Proper (ts : Terminals) (join : QualifiedJoin) (left right : TableSource) (condition : Expr)
    (a m m' b : Nat) : Prop where
  lt : a < m
  left : left.span = ts.span a m
  words : Grammar.qualifiedJoin ts m = .ok (some join, m')
  le : m ≤ m' ∧ m' < b ∧ b ≤ ts.size
  right : right.span = ts.span m' b
  condition : ∃ i j, b ≤ i ∧ Stands ts (.expr condition) i j

def TableSourceKind.Proper (ts : Terminals) (kind : TableSourceKind) : Prop :=
  match kind with
  | .named _ _ _ => ∃ n pos pos', Grammar.namedSource (Grammar.level n) ts pos = .ok (kind, pos')
  | .derived _ _ _ => ∃ n pos pos', Grammar.derivedTable (Grammar.level n) ts pos = .ok (kind, pos')
  | .qualifiedJoin join left right condition => ∃ a m m' b, join.Proper ts left right condition a m m' b
  | _ => True

namespace Grammar

/-- Where the change to a table begins whose name ends before `pos`. -/
def actionStart (ts : Terminals) (pos : Nat) : Nat := if atCheckOption ts pos then pos + 2 else pos

/-- The terminals from `a` to before `b` have been skipped, the first of them whatever it is. -/
def PassedOver (ts : Terminals) (a b : Nat) : Prop :=
  ∃ rest ∈ [skipStatement, skipToTerminator], (Parser.skip >>= fun _ => rest) ts a = .ok ((), b)

end Grammar

def StatementKind.Proper (ts : Terminals) (a b : Nat) : StatementKind → Prop
  | .unmodelled _ =>
    ∃ t, ts.token? a = some t ∧ t.kind ≠ .leftParen ∧ ts.isSeparator a = false ∧ Grammar.PassedOver ts a b
  | .alterTable name .unknown =>
    ∃ m, Stands ts (.objectName name) (a + 2) m ∧ Grammar.PassedOver ts (Grammar.actionStart ts m) b
  | _ => True

/-- The definition has been read by its production, in parentheses or as what is added to a table. -/
def TableDefinition.Proper (ts : Terminals) (t : TableDefinition) : Prop :=
  ∃ n, ∃ p ∈ [Grammar.tableDefinition (Grammar.level n),
    Parser.spanned Grammar.definitionOf (Grammar.tableElements (Grammar.level n))], ∃ pos pos',
      p ts pos = .ok (t, pos')

namespace Node

def Proper (ts : Terminals) : Node → Prop
  | .expr e => e.Proper ts
  | .tableSource s => s.kind.Proper ts
  | .selectElement x => ∃ n pos pos', Grammar.selectElement (Grammar.level n) ts pos = .ok (x, pos')
  | .statement s => ∃ a b, Stands ts (.statement s) a b ∧ s.kind.Proper ts a b
  | .tableDefinition t => t.Proper ts
  | _ => True

/-- All nodes of a subtree are proper, and nesting stays below `k`. -/
structure Formed (ts : Terminals) (k : Nat) (n : Node) : Prop where
  below : n.Below k
  proper : ∀ m, n.Reaches m → m.Proper ts

section
variable {ts : Terminals} {k : Nat} {n : Node}

theorem Formed.succ (h : Formed ts k n) : Formed ts (k + 1) n := ⟨h.below.succ, h.proper⟩

theorem Formed.pos (h : Formed ts k n) : 0 < k := h.below.pos

theorem proper_of_parts (hproper : n.Proper ts) (hparts : ∀ c ∈ n.parts, ∀ m, c.Reaches m → m.Proper ts) :
    ∀ m, n.Reaches m → m.Proper ts := by
  intro m hm
  rcases reaches_iff.mp hm with rfl | ⟨c, hc, hm⟩
  · exact hproper
  · exact hparts c (mem_children.mp hc) m hm

theorem formed_of_parts (hproper : n.Proper ts) (hnests : n.nests = false) (hk : 0 < k)
    (hparts : ∀ c ∈ n.parts, Formed ts k c) : Formed ts k n :=
  ⟨below_of_parts hnests hk fun c hc => (hparts c hc).below,
    proper_of_parts hproper fun c hc => (hparts c hc).proper⟩

/-- A nesting construct is one more than what stands in it. -/
theorem formed_succ_of_parts (hproper : n.Proper ts) (hk : 0 < k) (hparts : ∀ c ∈ n.parts, Formed ts k c) :
    Formed ts (k + 1) n :=
  ⟨below_succ_of_parts hk fun c hc => (hparts c hc).below,
    proper_of_parts hproper fun c hc => (hparts c hc).proper⟩

end

/-! ## Leaves -/

section
variable {ts : Terminals} {k : Nat}

@[simp] theorem formed_ident (x : Ident) : Formed ts (k + 1) (.ident x) :=
  formed_of_parts trivial rfl k.succ_pos (by simp [parts])

@[simp] theorem formed_objectName (x : ObjectName) : Formed ts (k + 1) (.objectName x) :=
  formed_of_parts trivial rfl k.succ_pos (by simp [parts])

@[simp] theorem formed_dataType (x : DataType) : Formed ts (k + 1) (.dataType x) :=
  formed_of_parts trivial rfl k.succ_pos (by simp [parts])

@[simp] theorem formed_indexColumn (x : IndexColumn) : Formed ts (k + 1) (.indexColumn x) :=
  formed_of_parts trivial rfl k.succ_pos (by simp [parts])

end

end Node

/-! ## Expressions -/

section
variable (ts : Terminals) (k : Nat) (r : Rank)

structure Expr.Formed (e : Expr) : Prop where
  node : (Node.expr e).Formed ts k
  rank : r ≤ e.rank

/-- An expression of this kind is formed, if what it encloses stands behind its first terminal. -/
structure ExprKind.Formed (kind : ExprKind) : Prop where
  node : ∀ span, (∀ c ∈ kind.enclosed, span.Leads ts c) → (Node.expr ⟨kind, span⟩).Formed ts k
  rank : r ≤ kind.rank

def TableSourceKind.Formed (kind : TableSourceKind) : Prop :=
  ∀ span, (Node.tableSource ⟨kind, span⟩).Formed ts k

end

section
variable {ts : Terminals} {k : Nat} {r r' : Rank} {kind : ExprKind}

theorem Expr.Formed.mono {e : Expr} (h : e.Formed ts k r') (hr : r ≤ r') : e.Formed ts k r :=
  ⟨h.node, Rank.le_trans hr h.rank⟩

theorem ExprKind.formed_of_parts (hnests : ∀ span, (Node.expr ⟨kind, span⟩).nests = false)
    (hrank : r ≤ kind.rank) (hoperands : ∀ x ∈ kind.operands, x.2 ≤ x.1.rank)
    (hname : kind.variableName? = none) (hparts : ∀ c ∈ kind.parts, c.Formed ts (k + 1)) :
    kind.Formed ts (k + 1) r :=
  ⟨fun span henclosed => Node.formed_of_parts ⟨hoperands, henclosed, by simp [hname]⟩ (hnests span) k.succ_pos
    hparts, hrank⟩

theorem ExprKind.formed_succ_of_parts (hk : 0 < k) (hrank : r ≤ kind.rank)
    (hoperands : ∀ x ∈ kind.operands, x.2 ≤ x.1.rank)
    (hname : kind.variableName? = none) (hparts : ∀ c ∈ kind.parts, c.Formed ts k) : kind.Formed ts (k + 1) r :=
  ⟨fun span henclosed => Node.formed_succ_of_parts (n := .expr ⟨kind, span⟩) ⟨hoperands, henclosed,
    by simp [hname]⟩ hk
    hparts, hrank⟩

end

end TransactLint
