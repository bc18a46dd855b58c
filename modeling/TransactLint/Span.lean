import TransactLint.Location

/-!
# Spans

Where a node stands in a script: its first and last token, by index among all tokens, and its bytes.
-/

namespace TransactLint

structure Span where
  /-- The place of the first token. -/
  start : Location
  firstToken : Nat
  lastToken : Nat
  /-- The byte at which the node begins. -/
  offset : Nat
  /-- The number of bytes through the last token. -/
  length : Nat
deriving DecidableEq

namespace Span

/-- The span of nothing. -/
def empty : Span := ⟨⟨0, 0⟩, 0, 0, 0, 0⟩

/-- The byte after the node. -/
def stop (s : Span) : Nat := s.offset + s.length

/-- Whether the bytes of `inner` are bytes of `outer`. -/
def contains (outer inner : Span) : Bool :=
  outer.offset ≤ inner.offset && inner.stop ≤ outer.stop

/-- Whether `outer` contains `inner` and has more bytes. -/
def strictlyContains (outer inner : Span) : Bool :=
  outer.contains inner && (outer.offset < inner.offset || inner.stop < outer.stop)

end Span

end TransactLint
