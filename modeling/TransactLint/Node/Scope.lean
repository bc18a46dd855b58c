import TransactLint.Node.Walk

/-!
# Scopes

Some nodes open a scope that holds all below them. A scoped visitor knows the number of scopes around
the node that it is shown. At a node that opens a scope it walks the children itself, one scope deeper,
and has the walk that showed it the node skip them.
-/

namespace TransactLint

/-- What a scoped visitor carries from node to node. -/
structure Scoped (σ : Type) where
  /-- The number of scopes that are open. -/
  depth : Nat
  state : σ

namespace Node

variable {σ : Type} (opens : Node → Bool) (note : σ → Nat → Node → σ)

mutual

/-- Shows the nodes on a stack and what they lead to. -/
def walkScopedFrom : List Node → Scoped σ → Scoped σ
  | [], s => s
  | n :: rest, s =>
    match visitScoped s n with
    | (s, .descend) => walkScopedFrom (n.children ++ rest) s
    | (s, .skip) => walkScopedFrom rest s
termination_by stack => 3 * weight stack + 1
decreasing_by
  · simp only [weight_cons]
    omega
  · have := weight_children_lt n
    simp only [weight_append, weight_cons]
    omega
  · have := weight_children_lt n
    simp only [weight_cons]
    omega

/-- Walks one subtree after another. -/
def walkScopedEach : List Node → Scoped σ → Scoped σ
  | [], s => s
  | n :: rest, s => walkScopedEach rest (walkScopedFrom [n] s)
termination_by ns => 3 * weight ns + 2
decreasing_by
  · simp only [weight_cons, weight_nil]
    omega
  · have := weight_children_lt n
    simp only [weight_cons]
    omega

/-- Notes a node with the number of scopes around it. What is in the scope that it opens has been
walked when the visit is over. -/
def visitScoped (s : Scoped σ) (n : Node) : Scoped σ × Walk :=
  let noted := note s.state s.depth n
  if opens n then
    let inside := walkScopedEach n.children ⟨s.depth + 1, noted⟩
    (⟨inside.depth - 1, inside.state⟩, .skip)
  else (⟨s.depth, noted⟩, .descend)
termination_by 3 * sizeOf n
decreasing_by
  have := weight_children_lt n
  omega

end

end Node

/-- The visitor that notes every node with the number of scopes around it. -/
def Visitor.withScopes {σ : Type} (opens : Node → Bool) (note : σ → Nat → Node → σ) :
    Visitor (Scoped σ) where
  visit := Node.visitScoped opens note
  finish := id

end TransactLint
