import TransactLint.Proofs.Ladder
import TransactLint.Proofs.Relocation.Tree

/-!
# The words of an expression

Plain expressions are made of names, variables, literals, operators, predicates and `CASE`, without queries
and calls. `Expr.words` writes them down, `Expr.respects` says that they need no further parentheses, and
`Expr.nesting` is the number of levels they take.
-/

namespace TransactLint

open Grammar (quoteOf numberKind Rank)

/-! ## Words -/

inductive Word where
  /-- A keyword or a symbol. -/
  | mark (kind : TokenKind)
  | name (name : Ident)
  | variableName (name : Ident)
  | literal (kind : LiteralKind) (value : String)

def Word.beginsNoQuery : Word → Bool
  | .mark (.keyword .SELECT) | .mark (.keyword .WITH) => false
  | _ => true

def LiteralKind.tokenKind : LiteralKind → TokenKind
  | .string => .stringLiteral
  | .nationalString => .nationalStringLiteral
  | .integer | .numeric => .numberLiteral
  | .binary => .binaryLiteral
  | .null => .keyword .NULL
  | .defaultValue => .keyword .DEFAULT

def LiteralKind.suits (value : String) : LiteralKind → Bool
  | .integer => numberKind value == .integer
  | .numeric => numberKind value == .numeric
  | _ => true

def Token.spells (t : Token) : Word → Bool
  | .mark kind => t.kind == kind
  | .name x => t.isIdentifier && t.value == x.value && quoteOf t == x.quote
  | .variableName x => t.kind == .localVariable && t.value == x.value && quoteOf t == x.quote
  | .literal kind value => t.kind == kind.tokenKind && t.value == value

def Terminals.spells (ts : Terminals) : Nat → List Word → Nat → Bool
  | pos, [], pos' => pos == pos'
  | pos, w :: ws, pos' => (ts.token? pos).any (·.spells w) && ts.spells (pos + 1) ws pos'

namespace Terminals

variable {ts : Terminals} {pos mid pos' : Nat} {w : Word} {ws ws' : List Word} {kind : TokenKind}

theorem spells_nil : ts.spells pos [] pos' = true ↔ pos = pos' := beq_iff_eq

theorem spells_cons : ts.spells pos (w :: ws) pos' = true ↔
    (∃ t, ts.token? pos = some t ∧ t.spells w = true) ∧ ts.spells (pos + 1) ws pos' = true := by
  rw [spells, Bool.and_eq_true, Option.any_eq_true]

theorem spells_mark : ts.spells pos (.mark kind :: ws) pos' = true ↔
    ts.isKind pos kind = true ∧ ts.spells (pos + 1) ws pos' = true := by
  rw [spells_cons, isKind_iff]
  simp only [Token.spells, beq_iff_eq]

theorem spells_append : ts.spells pos (ws ++ ws') pos' = true ↔
    ∃ mid, ts.spells pos ws mid = true ∧ ts.spells mid ws' pos' = true := by
  induction ws generalizing pos with
  | nil => simp [spells_nil]
  | cons w ws ih =>
    rw [List.cons_append, spells_cons, ih]
    simp only [spells_cons]
    grind

theorem spells_le (h : ts.spells pos ws pos' = true) : pos ≤ pos' := by
  induction ws generalizing pos with
  | nil => exact Nat.le_of_eq (spells_nil.mp h)
  | cons w ws ih =>
    have := ih (spells_cons.mp h).2
    omega

theorem spells_size (h : ts.spells pos ws pos' = true) (hpos : pos ≤ ts.size) : pos' ≤ ts.size := by
  induction ws generalizing pos with
  | nil => exact spells_nil.mp h ▸ hpos
  | cons w ws ih =>
    obtain ⟨⟨t, ht, -⟩, hrest⟩ := spells_cons.mp h
    exact ih hrest (Parser.token?_isSome (by rw [ht]; rfl))

end Terminals

/-! ## Operators -/

namespace BinaryOperator

def marks : BinaryOperator → List Word
  | .add => [.mark .plus]
  | .subtract => [.mark .minus]
  | .multiply => [.mark .star]
  | .divide => [.mark .slash]
  | .modulo => [.mark .percent]
  | .bitAnd => [.mark .ampersand]
  | .bitOr => [.mark .pipe]
  | .bitXor => [.mark .caret]
  | .eq => [.mark .eq]
  | .notEq => [.mark .notEq]
  | .lt => [.mark .lt]
  | .gt => [.mark .gt]
  | .ltEq => [.mark .ltEq]
  | .gtEq => [.mark .gtEq]
  | .notLt => [.mark .bang, .mark .lt]
  | .notGt => [.mark .bang, .mark .gt]
  | .and => [.mark (.keyword .AND)]
  | .or => [.mark (.keyword .OR)]

def rank : BinaryOperator → Rank
  | .or => .disjunction
  | .and => .conjunction
  | .eq | .notEq | .lt | .gt | .ltEq | .gtEq | .notLt | .notGt => .predicate
  | .add | .subtract | .bitAnd | .bitOr | .bitXor => .additive
  | .multiply | .divide | .modulo => .multiplicative

/-- The rank of the left operand. Operators group to the left, but comparisons do not group. -/
def leftRank (op : BinaryOperator) : Rank := if op.isComparison then .additive else op.rank

end BinaryOperator

namespace UnaryOperator

def kind : UnaryOperator → TokenKind
  | .not => .keyword .NOT
  | .minus => .minus
  | .plus => .plus
  | .bitNot => .tilde

def rank : UnaryOperator → Rank
  | .not => .negation
  | .minus | .plus | .bitNot => .signed

end UnaryOperator

/-! ## Expressions -/

def notWord (negated : Bool) : List Word := if negated then [.mark (.keyword .NOT)] else []

def partWords (parts : List Ident) : List Word := parts.flatMap fun x => [.mark .period, .name x]

mutual

def Expr.words : Expr → List Word
  | ⟨kind, _⟩ => kind.words

def ExprKind.words : ExprKind → List Word
  | .column [] => []
  | .column (x :: parts) => .name x :: partWords parts
  | .localVariable name => [.variableName name]
  | .literal kind value => [.literal kind value]
  | .nested inner => .mark .leftParen :: (inner.words ++ [.mark .rightParen])
  | .unary op operand => .mark op.kind :: operand.words
  | .binary op left right => left.words ++ (op.marks ++ right.words)
  | .isNull operand negated =>
    operand.words ++ .mark (.keyword .IS) :: (notWord negated ++ [.mark (.keyword .NULL)])
  | .inList operand list negated =>
    operand.words ++ (notWord negated ++ .mark (.keyword .IN) :: .mark .leftParen ::
      (Expr.listWords list ++ [.mark .rightParen]))
  | .between operand low high negated =>
    operand.words ++ (notWord negated ++ .mark (.keyword .BETWEEN) ::
      (low.words ++ .mark (.keyword .AND) :: high.words))
  | .like operand pattern escape negated =>
    operand.words ++ (notWord negated ++ .mark (.keyword .LIKE) ::
      (pattern.words ++ Expr.words? [.mark (.keyword .ESCAPE)] escape))
  | .choice operand branches otherwise =>
    .mark (.keyword .CASE) :: (Expr.words? [] operand ++ (WhenClause.listWords branches ++
      (Expr.words? [.mark (.keyword .ELSE)] otherwise ++ [.mark (.keyword .END)])))
  | _ => []

def Expr.words? (before : List Word) : Option Expr → List Word
  | none => []
  | some e => before ++ e.words

def Expr.listWords : List Expr → List Word
  | [] => []
  | e :: es => e.words ++ Expr.moreWords es

def Expr.moreWords : List Expr → List Word
  | [] => []
  | e :: es => .mark .comma :: (e.words ++ Expr.moreWords es)

def WhenClause.listWords : List WhenClause → List Word
  | [] => []
  | ⟨condition, result, _⟩ :: xs =>
    .mark (.keyword .WHEN) :: (condition.words ++ .mark (.keyword .THEN) ::
      (result.words ++ WhenClause.listWords xs))

end

mutual

def Expr.respects : Expr → Rank → Bool
  | ⟨kind, _⟩, r => kind.respects r

def ExprKind.respects : ExprKind → Rank → Bool
  | .column parts, _ => !parts.isEmpty
  | .localVariable _, _ => true
  | .literal kind value, _ => kind.suits value
  | .nested inner, _ => inner.respects .disjunction
  | .unary op operand, r => decide (r ≤ op.rank) && operand.respects op.rank
  | .binary op left right, r =>
    decide (r ≤ op.rank) && left.respects op.leftRank && right.respects op.rank.next
  | .isNull operand _, r => decide (r ≤ .predicate) && operand.respects .additive
  | .inList operand list _, r =>
    decide (r ≤ .predicate) && operand.respects .additive && !list.isEmpty && Expr.allRespect list
  | .between operand low high _, r =>
    decide (r ≤ .predicate) && operand.respects .additive && low.respects .additive && high.respects .additive
  | .like operand pattern escape _, r =>
    decide (r ≤ .predicate) && operand.respects .additive && pattern.respects .additive &&
      Expr.respects? escape .additive
  | .choice operand branches otherwise, _ =>
    Expr.respects? operand .disjunction && !branches.isEmpty && WhenClause.allRespect branches &&
      Expr.respects? otherwise .disjunction
  | _, _ => false

def Expr.respects? : Option Expr → Rank → Bool
  | none, _ => true
  | some e, r => e.respects r

def Expr.allRespect : List Expr → Bool
  | [] => true
  | e :: es => e.respects .disjunction && Expr.allRespect es

def WhenClause.allRespect : List WhenClause → Bool
  | [] => true
  | ⟨condition, result, _⟩ :: xs =>
    condition.respects .disjunction && result.respects .disjunction && WhenClause.allRespect xs

end

mutual

def Expr.nesting : Expr → Nat
  | ⟨kind, _⟩ => kind.nesting

def ExprKind.nesting : ExprKind → Nat
  | .nested inner => inner.nesting + 1
  | .unary _ operand => operand.nesting + 1
  | .binary _ left right => max left.nesting right.nesting
  | .isNull operand _ => operand.nesting
  | .inList operand list _ => max operand.nesting (Expr.listNesting list + 1)
  | .between operand low high _ => max operand.nesting (max low.nesting high.nesting)
  | .like operand pattern escape _ => max operand.nesting (max pattern.nesting (Expr.nesting? escape))
  | .choice operand branches otherwise =>
    max (Expr.nesting? operand) (max (WhenClause.listNesting branches) (Expr.nesting? otherwise)) + 1
  | _ => 0

def Expr.nesting? : Option Expr → Nat
  | none => 0
  | some e => e.nesting

def Expr.listNesting : List Expr → Nat
  | [] => 0
  | e :: es => max e.nesting (Expr.listNesting es)

def WhenClause.listNesting : List WhenClause → Nat
  | [] => 0
  | ⟨condition, result, _⟩ :: xs => max (max condition.nesting result.nesting) (WhenClause.listNesting xs)

end

-- Proofs compute with these equations. They are generated here once, not by each proof that needs them first.
attribute [simp] Expr.words ExprKind.words Expr.words? Expr.listWords Expr.moreWords WhenClause.listWords
attribute [simp] Expr.respects ExprKind.respects Expr.respects? Expr.allRespect WhenClause.allRespect
attribute [simp] Expr.nesting ExprKind.nesting Expr.nesting? Expr.listNesting WhenClause.listNesting

def Expr.Alike (e e' : Expr) : Prop := e.relocate (fun _ => .empty) = e'.relocate fun _ => .empty

theorem Expr.Alike.eq {e e' : Expr} (h : e.Alike e') :
    e.relocate (fun _ => .empty) = e'.relocate fun _ => .empty := h

end TransactLint
