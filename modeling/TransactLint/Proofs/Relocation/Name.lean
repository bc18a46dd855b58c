import TransactLint.Grammar.Name
import TransactLint.Proofs.Relocation.Parser

/-!
# Names and data types at other places
-/

namespace TransactLint.Grammar

open TransactLint.Parser

variable {ts ts' : Terminals} {ρ : Relocation ts ts'}

theorem quoteOf_alike {t t' : Token} (h : t.Alike t') : quoteOf t' = quoteOf t := by
  simp only [quoteOf, h.kind, h.text]

/-- The tokens themselves differ, so the span is taken after them. -/
theorem anyIdent_eq : anyIdent = (do
    let start ← position
    match ← take with
    | some t =>
      let span ← spanFrom start
      pure ⟨t.value, quoteOf t, span⟩
    | none => failExpected "identifier") := by
  funext ts pos
  have htake : take ts pos = .ok (ts.token? pos, if pos < ts.size then pos + 1 else pos) := rfl
  have hposition : position ts pos = .ok (pos, pos) := rfl
  rw [bind_of_ok hposition, bind_of_ok htake, anyIdent, spanned, bind_of_ok htake]
  cases ts.token? pos with
  | some t => rfl
  | none =>
    dsimp only [failExpected]
    generalize ts.token? _ = t?
    cases t? <;> rfl

theorem anyIdent_mirrors : Mirrors ρ anyIdent anyIdent := by
  rw [anyIdent_eq]
  refine .position fun start => .take (.failExpected _) fun t t' halike => ?_
  refine (Mirrors.spanFrom start).bind fun span => .pure ?_
  simp only [halike.value, quoteOf_alike halike]
  rfl

theorem ident_mirrors : Mirrors ρ ident ident :=
  .look (fun pos => ρ.isIdentifier pos) fun _ => .ite anyIdent_mirrors (.failExpected _)

theorem variableName_mirrors : Mirrors ρ variableName variableName :=
  .look (fun pos => ρ.isKind pos _) fun _ => .ite anyIdent_mirrors (.failExpected _)

theorem nextPart_mirrors : Mirrors ρ nextPart nextPart := by
  refine .optionIf (.test fun pos => by simp) ?_
  exact (Mirrors.repeatWhile (consume_mirrors _)).bind fun _ => ident_mirrors

theorem objectName_mirrors : Mirrors ρ objectName objectName := by
  refine .spanned (.look (fun pos => ρ.isKind pos _) fun _ => ?_) fun _ _ => rfl
  have hrest : ∀ first : Ident, Mirrors ρ (do
      let rest ← many nextPart
      pure (first :: rest)) (do
      let rest ← many nextPart
      pure (mapSpans ρ.move first :: rest)) :=
    fun first => nextPart_mirrors.many.bind fun rest => .pure rfl
  exact .ite (variableName_mirrors.bind hrest) (ident_mirrors.bind hrest)

theorem identList_mirrors : Mirrors ρ identList identList := by
  refine (expect_mirrors _).bind fun _ => ident_mirrors.commaSeparated.bind fun names => ?_
  exact (expect_mirrors _).bind fun _ => .pure rfl

theorem typeArgument_mirrors : Mirrors ρ typeArgument typeArgument := by
  refine .current (.failExpected _) fun t t' halike => ?_
  simp only [halike.kind, halike.value]
  split
  · exact skip_mirrors.bind fun _ => .pure rfl
  · exact skip_mirrors.bind fun _ => .pure rfl
  · exact .failExpected _

theorem dataType_mirrors : Mirrors ρ dataType dataType := by
  refine .spanned (objectName_mirrors.bind fun name => ?_) ?_
  · refine .bind (.listIf (consume_mirrors _) ?_) fun arguments => .pure rfl
    refine typeArgument_mirrors.commaSeparated.bind fun arguments => ?_
    exact (expect_mirrors _).bind fun _ => .pure rfl
  · rintro ⟨name, arguments⟩ span
    have harguments : mapSpans ρ.move arguments = arguments := List.map_id _
    change _ = (⟨mapSpans ρ.move name, mapSpans ρ.move arguments, ρ.move span⟩ : DataType)
    rw [harguments]
    rfl

end TransactLint.Grammar
