import TransactLint.Document
import TransactLint.Node.Size

/-!
# Walks

A walk visits a node before its children and the children in document order. The nodes still to be
visited are kept on a stack, since chains of operators may be far deeper than the nesting limit.
-/

namespace TransactLint

/-- What a visitor says about the children of the node that it was shown. -/
inductive Walk where
  | descend
  | skip
deriving DecidableEq

/-- A visitor carries a state through the nodes that it is shown, and settles it at the end. -/
structure Visitor (σ : Type) where
  visit : σ → Node → σ × Walk
  finish : σ → σ

namespace Node

/-- Visits the nodes on a stack and what they lead to. -/
def walkFrom {σ : Type} (visit : σ → Node → σ × Walk) : List Node → σ → σ
  | [], s => s
  | n :: rest, s =>
    match visit s n with
    | (s, .descend) => walkFrom visit (n.children ++ rest) s
    | (s, .skip) => walkFrom visit rest s
termination_by stack => weight stack
decreasing_by
  · have := weight_children_lt n
    simp only [weight_append, weight_cons]
    omega
  · have := weight_children_lt n
    simp only [weight_cons]
    omega

/-- Visits the nodes of a subtree. -/
def walk {σ : Type} (visit : σ → Node → σ × Walk) (root : Node) (s : σ) : σ :=
  walkFrom visit [root] s

/-- Shows the nodes on a stack and all below them to `f`, which carries a state, until it gives a value. -/
def searchFrom {σ α : Type} (f : σ → Node → σ × Option α) : List Node → σ → σ × Option α
  | [], s => (s, none)
  | n :: rest, s =>
    match f s n with
    | (s, some a) => (s, some a)
    | (s, none) => searchFrom f (n.children ++ rest) s
termination_by stack => weight stack
decreasing_by
  have := weight_children_lt n
  simp only [weight_append, weight_cons]
  omega

/-- Shows the nodes of a subtree to `f` until it gives a value. -/
def search {σ α : Type} (f : σ → Node → σ × Option α) (root : Node) (s : σ) : σ × Option α :=
  searchFrom f [root] s

/-- The first value that `f` gives in a subtree. -/
def find? {α : Type} (f : Node → Option α) (root : Node) : Option α :=
  (root.search (fun _ n => ((), f n)) ()).2

/-- Whether `p` holds of a node of a subtree. -/
def any (p : Node → Bool) (root : Node) : Bool :=
  (root.find? fun n => if p n then some () else none).isSome

/-- All nodes of a subtree, each before its children. -/
def preorder (root : Node) : List Node :=
  (root.walk (fun visited n => (n :: visited, .descend)) []).reverse

end Node

namespace Visitor

/-- Shows all of a tree to a visitor and lets it finish. -/
def traverse {σ : Type} (v : Visitor σ) (root : Node) (s : σ) : σ :=
  v.finish (root.walk v.visit s)

end Visitor

namespace Document

def root (d : Document) : Node := .script d.script

/-- All nodes of a document, each before its children. -/
def nodes (d : Document) : List Node := d.root.preorder

end Document

end TransactLint
