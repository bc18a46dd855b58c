import TransactLint.Proofs.Traversal
import TransactLint.Proofs.Yields

/-!
# Nesting constructs along a path

A path goes from a node to one of its children again and again. The nesting constructs on it are counted
against the levels that they take, and `Below` bounds their number over all paths from a node.
-/

namespace TransactLint.Node

def nests : Node → Bool
  | .statement _ => true
  | .tableSource x =>
    match x.kind with
    | .derived _ _ _ | .parenthesized _ => true
    | _ => false
  | .queryExpr x =>
    match x.kind with
    | .parenthesized _ => true
    | _ => false
  | .expr x =>
    match x.kind with
    | .unary _ _ | .nested _ | .subquery _ | .existence _ | .inSubquery _ _ _ => true
    | _ => false
  | _ => false

/-- Whether the construct takes no level on a path that goes on to `next`. A table source in parentheses
never takes one, and a membership test takes one for its query, not for its operand. -/
def takesNoLevel (n : Node) (next : Option Node) : Bool :=
  match n with
  | .tableSource x =>
    match x.kind with
    | .parenthesized _ => true
    | _ => false
  | .expr x =>
    match x.kind, next with
    | .inSubquery _ _ _, some (.expr _) => true
    | _, _ => false
  | _ => false

def unleveled : List Node → Nat
  | [] => 0
  | n :: path => (n.takesNoLevel path.head?).toNat + unleveled path

def IsPath (path : List Node) : Prop := path.IsChain fun n c => c ∈ n.children

/-- On every path from the node fewer than `k` nesting constructs take a level. -/
def Below (k : Nat) (n : Node) : Prop :=
  ∀ path, IsPath (n :: path) → (n :: path).countP nests < k + unleveled (n :: path)

theorem nests_of_takesNoLevel {n : Node} {next : Option Node} (h : n.takesNoLevel next = true) :
    n.nests = true := by
  unfold takesNoLevel at h
  split at h
  · split at h
    · rename_i hkind
      simp only [nests, hkind]
    · cases h
  · split at h
    · rename_i hkind
      simp only [nests, hkind]
    · cases h
  · cases h

theorem countP_nests_cons (n : Node) (path : List Node) :
    (n :: path).countP nests = n.nests.toNat + path.countP nests := by
  rw [List.countP_cons, Nat.add_comm]
  cases n.nests <;> rfl

section
variable {k : Nat} {n : Node}

theorem Below.mono {k' : Nat} (h : Below k n) (hle : k ≤ k') : Below k' n := by
  intro path hpath
  have := h path hpath
  omega

theorem Below.succ (h : Below k n) : Below (k + 1) n := h.mono (Nat.le_succ k)

theorem Below.pos (h : Below k n) : 0 < k := by
  have hself := h [] (.singleton n)
  rw [countP_nests_cons, List.countP_nil, unleveled, unleveled] at hself
  cases hlevel : n.takesNoLevel ([] : List Node).head? with
  | false =>
    rw [hlevel, Bool.toNat_false] at hself
    omega
  | true =>
    rw [hlevel, nests_of_takesNoLevel hlevel] at hself
    omega

/-- What the first step of a path adds on both sides. -/
theorem below_of_steps (hparts : ∀ c ∈ n.parts, ∀ path, IsPath (c :: path) →
      n.nests.toNat + (c :: path).countP nests < k + ((n.takesNoLevel (some c)).toNat + unleveled (c :: path)))
    (hlast : n.nests.toNat < k) : Below k n := by
  intro path hpath
  rw [countP_nests_cons, unleveled]
  cases path with
  | nil =>
    rw [List.countP_nil]
    omega
  | cons c path =>
    obtain ⟨hc, hrest⟩ := List.isChain_cons_cons.mp hpath
    exact hparts c (mem_children.mp hc) path hrest

theorem below_of_parts (hnests : n.nests = false) (hk : 0 < k) (hparts : ∀ c ∈ n.parts, Below k c) :
    Below k n := by
  refine below_of_steps (fun c hc path hpath => ?_) (by rwa [hnests])
  have hbelow := hparts c hc path hpath
  rw [hnests, Bool.toNat_false]
  omega

/-- A nesting construct is one more than what stands in it. -/
theorem below_succ_of_parts (hk : 0 < k) (hparts : ∀ c ∈ n.parts, Below k c) : Below (k + 1) n := by
  have hle := Bool.toNat_le n.nests
  refine below_of_steps (fun c hc path hpath => ?_) (by omega)
  have hbelow := hparts c hc path hpath
  omega

end

/-- The query of a membership test is nested, its operand is not. -/
theorem below_membership {k : Nat} {operand : Expr} {query : Query} {negated : Bool} {span : Span}
    (hoperand : Below (k + 1) (.expr operand)) (hquery : Below k (.query query)) :
    Below (k + 1) (.expr ⟨.inSubquery operand query negated, span⟩) := by
  apply below_of_steps
  · intro c hc path hpath
    simp only [parts, ExprKind.parts, List.mem_cons, List.not_mem_nil, or_false] at hc
    rcases hc with rfl | rfl
    · have hbefore := hoperand path hpath
      simp only [nests, takesNoLevel, Bool.toNat_true]
      omega
    · have hinside := hquery path hpath
      simp only [nests, takesNoLevel, Bool.toNat_true, Bool.toNat_false]
      omega
  · exact Nat.succ_lt_succ hquery.pos

/-- Parentheses around a source are counted on both sides of the bound. -/
theorem below_parenthesized {k : Nat} {source : TableSource} {span : Span}
    (h : Below (k + 1) (.tableSource source)) : Below (k + 1) (.tableSource ⟨.parenthesized source, span⟩) := by
  intro path hpath
  rw [countP_nests_cons, unleveled]
  simp only [nests, takesNoLevel, Bool.toNat_true]
  cases path with
  | nil => simp [unleveled]
  | cons c path =>
    obtain ⟨hc, hrest⟩ := List.isChain_cons_cons.mp hpath
    rw [mem_children, parts, TableSourceKind.parts, List.mem_singleton] at hc
    subst hc
    have hinside := h path hrest
    omega

end TransactLint.Node
