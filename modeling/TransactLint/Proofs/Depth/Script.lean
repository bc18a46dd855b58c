import TransactLint.Proofs.Form.Statement
import TransactLint.Proofs.Nesting

/-!
# Nesting in scripts

No path of a script holds more nesting constructs that take a level than there are levels.
-/

namespace TransactLint

namespace Node

def lastPath (n : Node) : Nat → List Node
  | 0 => []
  | k + 1 =>
    match n.children.getLast? with
    | some c => c :: c.lastPath k
    | none => []

theorem isPath_lastPath (n : Node) (k : Nat) : IsPath (n :: n.lastPath k) := by
  induction k generalizing n with
  | zero => exact .singleton n
  | succ k ih =>
    rw [lastPath]
    split
    · rename_i c hc
      exact .cons_cons (List.mem_of_getLast? hc) (ih c)
    · exact .singleton n

end Node

namespace Document

/-- On every path of a document the nesting constructs that take a level are at most as many as there are
levels. Table sources in parentheses come on top, and so do membership tests on the way to their operand. -/
theorem nesting_bounded {sql : String} {d : Document} (h : parse sql = .ok d) {path : List Node}
    (hpath : Node.IsPath (d.root :: path)) : path.countP Node.nests ≤ nestingLimit + Node.unleveled path := by
  obtain ⟨-, pos, hscript⟩ := parse_ok h
  have hbelow := Grammar.script_below _ _ _ _ hscript path hpath
  rw [Node.countP_nests_cons, Node.unleveled] at hbelow
  simp only [Node.nests, Node.takesNoLevel, Bool.toNat_false] at hbelow
  omega

/-- The path to the innermost of many operators, which takes a level for each of them. -/
theorem nesting_bounded_signs :
    ∃ d, parse "SELECT - - - - - - - - - - 1" = .ok d ∧ Node.IsPath (d.root :: d.root.lastPath 20) ∧
      (d.root.lastPath 20).countP Node.nests = 11 ∧
        11 ≤ nestingLimit + Node.unleveled (d.root.lastPath 20) := by
  obtain ⟨d, hd, hcount⟩ : ∃ d ∈ (parse "SELECT - - - - - - - - - - 1").toOption,
      (d.root.lastPath 20).countP Node.nests = 11 := by
    decide +kernel
  have hd := eq_ok_of_mem_toOption hd
  have hpath := d.root.isPath_lastPath 20
  have hbound := nesting_bounded hd hpath
  rw [hcount] at hbound
  exact ⟨d, hd, hpath, hcount, hbound⟩

/-- Parentheses around a table nest beyond the number of levels. -/
theorem nesting_unbounded_by_parentheses :
    ∃ d, parse "SELECT 1 FROM ((((((((((((((((((((((((((((((t))))))))))))))))))))))))))))))" = .ok d ∧
      ∃ path, Node.IsPath (d.root :: path) ∧ nestingLimit < path.countP Node.nests := by
  obtain ⟨d, hd, hcount⟩ :
      ∃ d ∈ (parse "SELECT 1 FROM ((((((((((((((((((((((((((((((t))))))))))))))))))))))))))))))").toOption,
        nestingLimit < (d.root.lastPath 40).countP Node.nests := by
    decide +kernel
  exact ⟨d, eq_ok_of_mem_toOption hd, _, d.root.isPath_lastPath 40, hcount⟩

end Document

end TransactLint
