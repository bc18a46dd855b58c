import TransactLint.Grammar.Name
import TransactLint.Proofs.Layout.Parser

/-!
# Layout of names and data types
-/

namespace TransactLint.Grammar

open TransactLint.Parser

variable {ts : Terminals}

theorem anyIdent_reads : Reads ts anyIdent fun x => .node (.ident x) := by
  refine Reads.spanned (f := fun _ => .read) (fun start => ?_) (fun _ _ => rfl) fun _ _ => .refl _
  refine take_reads.then fun t? => ?_
  cases t? with
  | none => exact .failExpected
  | some t => exact .pure (.of_eq rfl (by simp))

theorem ident_reads : Reads ts ident fun x => .node (.ident x) :=
  fun start => .look fun _ => .ite (fun _ => anyIdent_reads start) fun _ => .failExpected

theorem variableName_reads : Reads ts variableName fun x => .node (.ident x) :=
  fun start => .look fun _ => .ite (fun _ => anyIdent_reads start) fun _ => .failExpected

theorem nextPart_reads : Reads ts nextPart fun x? => .ofNodes (x?.toList.map .ident) := by
  refine Reads.optionNode .look fun start => ?_
  refine (Reads.repeatWhile (consume_reads _)).then fun _ => ?_
  exact ident_reads.lays.entails (.refl _) fun x => .of_eq rfl (by simp)

/-- The parts of a name, one after another. -/
theorem nameParts_reads : Reads ts (do
    let first ← if ← atKind .localVariable then variableName else ident
    let rest ← many nextPart
    pure (first :: rest)) fun xs => ⟨true, xs.map .ident⟩ := by
  intro start
  have hrest : ∀ first : Ident, Lays ts start (.none ++ .node (.ident first)) (do
      let rest ← many nextPart
      pure (first :: rest)) fun xs => ⟨true, xs.map .ident⟩ := by
    intro first
    refine (Reads.manyNodes nextPart_reads).then fun rest => ?_
    exact .pure (.of_eq (by simp) (by simp))
  refine .look fun b => .ite (fun _ => ?_) fun _ => ?_
  · exact variableName_reads.then hrest
  · exact ident_reads.then hrest

theorem objectName_reads : Reads ts objectName fun x => .node (.objectName x) :=
  nameParts_reads.spanned (fun _ _ => rfl) fun _ _ => .refl _

theorem objectName_stands {pos pos' : Nat} {x : ObjectName} (hpos : pos ≤ ts.size)
    (h : objectName ts pos = .ok (x, pos')) : Stands ts (.objectName x) pos pos' :=
  (nameParts_reads.stands_spanned (fun _ _ => rfl) (fun _ _ => .refl _) hpos h).1

theorem identList_reads : Reads ts identList fun xs => ⟨true, xs.map .ident⟩ := by
  intro start
  refine (expect_reads _).then fun _ => ?_
  refine (Reads.commaNodes ident_reads).then fun names => ?_
  refine (expect_reads _).then fun _ => ?_
  exact .pure (.of_eq (by simp) (by simp))

theorem typeArgument_reads : Reads ts typeArgument fun _ => .read := by
  refine Reads.current (fun t => ?_) .failExpected
  dsimp only
  split
  · exact .skip fun _ => .pure (.refl _)
  · exact .skip fun _ => .pure (.refl _)
  · exact Reads.failExpected.here

theorem dataType_reads : Reads ts dataType fun x => .node (.dataType x) := by
  refine Reads.spanned (f := fun x => .node (.objectName x.1)) (fun start => ?_) (fun _ _ => rfl)
    fun _ _ => .refl _
  refine objectName_reads.then fun name => ?_
  have harguments : Reads ts (do
      let arguments ← commaSeparated typeArgument
      expect .rightParen
      pure arguments) fun _ => .ofNodes [] := by
    intro start
    refine typeArgument_reads.commaRead.then fun _ => ?_
    exact (expect_reads _).then fun _ => .pure (.of_eq (by simp) (by simp))
  refine ((consume_reads _).listIf harguments rfl).then fun arguments => ?_
  exact .pure (.of_eq rfl (by simp))

end TransactLint.Grammar
