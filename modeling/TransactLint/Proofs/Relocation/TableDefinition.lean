import TransactLint.Grammar.TableDefinition
import TransactLint.Proofs.Relocation.Expression

/-!
# Table definitions at other places
-/

namespace TransactLint.Grammar

open TransactLint.Parser

instance : HasSpans ColumnOptions :=
  ⟨fun F x => { x with constraints := mapSpans F x.constraints, index := mapSpans F x.index }⟩

def TableElement.relocate (F : Span → Span) : TableElement → TableElement
  | .column x => .column (mapSpans F x)
  | .constraint x => .constraint (mapSpans F x)
  | .index x => .index (mapSpans F x)

instance : HasSpans TableElement := ⟨TableElement.relocate⟩

variable {ts ts' : Terminals} {ρ : Relocation ts ts'}

theorem mapSpans_flag (F : Span → Span) (b? : Option Bool) : mapSpans F b? = b? := by
  cases b? <;> rfl

theorem notForReplication_mirrors : Mirrors ρ notForReplication notForReplication := by
  refine (consumePair_mirrors _ _).bind fun _ => .ite ?_ (.pure rfl)
  exact (expectWord_mirrors _).bind fun _ => .pure rfl

theorem clusteredOption_mirrors : Mirrors ρ clusteredOption clusteredOption := by
  refine (consumeKeyword_mirrors _).bind fun _ => .ite (.pure rfl) ?_
  exact (consumeKeyword_mirrors _).bind fun _ => .ite (.pure rfl) (.pure rfl)

/-! ## Storage options -/

theorem storageOption_mirrors : Mirrors ρ storageOption storageOption := by
  refine .look (fun pos => by simp) fun _ => .ite ?_ ?_
  · exact skip_mirrors.bind fun _ => skipParenthesized_mirrors.bind fun _ => .pure rfl
  refine .look (fun pos => by simp) fun _ => .ite ?_ ?_
  · refine skipTwo_mirrors.bind fun _ => (expect_mirrors _).bind fun _ => ?_
    exact skip_mirrors.bind fun _ => .pure rfl
  refine .look (fun pos => by simp [atFilegroup]) fun _ => .ite ?_ ?_
  · refine skip_mirrors.bind fun _ => anyIdent_mirrors.bind fun _ => ?_
    refine .look (fun pos => ρ.isKind pos _) fun _ => .ite ?_ (.pure rfl)
    exact skipParenthesized_mirrors.bind fun _ => .pure rfl
  refine .look (fun pos => by simp [atTextStorage]) fun _ => .ite ?_ (.pure rfl)
  exact skip_mirrors.bind fun _ => anyIdent_mirrors.bind fun _ => .pure rfl

theorem storageOptions_mirrors : Mirrors ρ storageOptions storageOptions :=
  storageOption_mirrors.repeatWhile

/-! ## Indexes -/

theorem indexColumn_mirrors : Mirrors ρ indexColumn indexColumn := by
  refine .spanned (ident_mirrors.bind fun name => sortDirection_mirrors.bind fun direction => .pure rfl) ?_
  rintro ⟨name, direction | _⟩ span <;> rfl

theorem indexColumns_mirrors : Mirrors ρ indexColumns indexColumns := by
  refine (expect_mirrors _).bind fun _ => indexColumn_mirrors.commaSeparated.bind fun columns => ?_
  exact (expect_mirrors _).bind fun _ => .pure rfl

/-! ## Constraints -/

theorem uniqueBody_mirrors (primaryKey : Bool) : Mirrors ρ (uniqueBody primaryKey) (uniqueBody primaryKey) := by
  refine clusteredOption_mirrors.bind fun clustered => (consumeWord_mirrors _).bind fun _ => ?_
  rw [mapSpans_flag]
  refine .bind (.listIf (.test fun pos => ρ.isKind pos _) indexColumns_mirrors) fun columns => ?_
  exact storageOptions_mirrors.bind fun _ => .pure rfl

theorem referentialAction_mirrors : Mirrors ρ referentialAction referentialAction := by
  refine (consumeKeyword_mirrors _).bind fun _ => .ite (.pure rfl) ?_
  refine (consumeWord_mirrors _).bind fun _ => .ite (expectWord_mirrors _) ?_
  refine (expectKeyword_mirrors _).bind fun _ => (consumeKeyword_mirrors _).bind fun _ => ?_
  exact .ite (.pure rfl) (expectKeyword_mirrors _)

theorem referenceOption_mirrors : Mirrors ρ referenceOption referenceOption := by
  refine .look (fun pos => by simp [atReferentialAction]) fun _ => .ite ?_ notForReplication_mirrors
  exact skipTwo_mirrors.bind fun _ => referentialAction_mirrors.bind fun _ => .pure rfl

theorem references_mirrors (columns : List Ident) :
    Mirrors ρ (references columns) (references (mapSpans ρ.move columns)) := by
  refine (expectKeyword_mirrors _).bind fun _ => objectName_mirrors.bind fun target => ?_
  refine .bind (.listIf (.test fun pos => ρ.isKind pos _) identList_mirrors) fun targetColumns => ?_
  exact referenceOption_mirrors.repeatWhile.bind fun _ => .pure rfl

variable {inner : Level} (h : inner.Mirrors ρ)
include h

theorem indexBody_mirrors : Mirrors ρ (indexBody inner) (indexBody inner) := by
  refine .bind (.listIf (.test fun pos => ρ.isKind pos _) indexColumns_mirrors) fun columns => ?_
  refine .bind (.listIf (consumeWord_mirrors _) identList_mirrors) fun included => ?_
  refine .bind (.optionIf (consumeKeyword_mirrors _) h.expression) fun filter => ?_
  exact storageOptions_mirrors.bind fun _ => .pure rfl

theorem indexDefinition_mirrors : Mirrors ρ (indexDefinition inner) (indexDefinition inner) := by
  refine .position fun start => (expectKeyword_mirrors _).bind fun _ => ident_mirrors.bind fun name => ?_
  refine (consumeKeyword_mirrors _).bind fun unique => clusteredOption_mirrors.bind fun clustered => ?_
  rw [mapSpans_flag]
  refine (consumeWord_mirrors _).bind fun columnstore => (indexBody_mirrors h).bind fun x => ?_
  exact (Mirrors.spanFrom start).bind fun span => .pure rfl

theorem checkBody_mirrors : Mirrors ρ (checkBody inner) (checkBody inner) := by
  refine notForReplication_mirrors.bind fun _ => (expect_mirrors _).bind fun _ => ?_
  exact h.expression.bind fun condition => (expect_mirrors _).bind fun _ => .pure rfl

theorem defaultBody_mirrors : Mirrors ρ (defaultBody inner) (defaultBody inner) := by
  refine h.expression.bind fun value => ?_
  exact .bind (.optionIf (consumeKeyword_mirrors _) ident_mirrors) fun column => .pure rfl

theorem constraintKind_mirrors : Mirrors ρ (constraintKind inner) (constraintKind inner) := by
  refine (consumeKeyword_mirrors _).bind fun _ => .ite ?_ ?_
  · exact (expectKeyword_mirrors _).bind fun _ => (uniqueBody_mirrors _).map fun _ => rfl
  refine (consumeKeyword_mirrors _).bind fun _ => .ite ((uniqueBody_mirrors _).map fun _ => rfl) ?_
  refine (consumeKeyword_mirrors _).bind fun _ => .ite ?_ ?_
  · refine (expectKeyword_mirrors _).bind fun _ => identList_mirrors.bind fun columns => ?_
    exact (references_mirrors columns).map fun _ => rfl
  refine .look (fun pos => ρ.isKeyword pos _) fun _ => .ite ((references_mirrors []).map fun _ => rfl) ?_
  refine (consumeKeyword_mirrors _).bind fun _ => .ite ((checkBody_mirrors h).map fun _ => rfl) ?_
  exact (consumeKeyword_mirrors _).bind fun _ => .ite ((defaultBody_mirrors h).map fun _ => rfl) (.pure rfl)

theorem constraint_mirrors : Mirrors ρ (constraint inner) (constraint inner) := by
  refine .position fun start => ?_
  refine .bind (.optionIf (consumeKeyword_mirrors _) ident_mirrors) fun name => ?_
  refine (constraintKind_mirrors h).bind fun kind? => ?_
  cases kind? with
  | some kind => exact (Mirrors.spanFrom start).bind fun span => .pure rfl
  | none =>
    rw [isSome_mapSpans]
    exact .ite (.failExpected _) (.pure rfl)

/-! ## Columns -/

omit h in
theorem ignoredColumnWord_mirrors : Mirrors ρ ignoredColumnWord ignoredColumnWord := by
  refine (consumeKeyword_mirrors _).bind fun _ => .ite (.pure rfl) ?_
  refine (consumeWord_mirrors _).bind fun _ => .ite (.pure rfl) ?_
  exact (consumeWord_mirrors _).bind fun _ => .ite (.pure rfl) (consumeWord_mirrors _)

theorem columnOption_mirrors (found : ColumnOptions) :
    Mirrors ρ (columnOption inner found) (columnOption inner (mapSpans ρ.move found)) := by
  refine (consumeKeyword_mirrors _).bind fun _ => .ite (.pure rfl) ?_
  refine (consumePair_mirrors _ _).bind fun _ => .ite (.pure rfl) ?_
  refine notForReplication_mirrors.bind fun _ => .ite (.pure rfl) ?_
  refine (consumeKeyword_mirrors _).bind fun _ => .ite ?_ ?_
  · refine .look (fun pos => ρ.isKind pos _) fun _ => .ite ?_ (.pure rfl)
    exact skipParenthesized_mirrors.bind fun _ => .pure rfl
  refine (consumeKeyword_mirrors _).bind fun _ => .ite (ident_mirrors.bind fun _ => .pure rfl) ?_
  refine ignoredColumnWord_mirrors.bind fun _ => .ite (.pure rfl) ?_
  refine .look (fun pos => ρ.isKeyword pos _) fun _ => .ite ?_ ?_
  · exact (indexDefinition_mirrors h).bind fun index => .pure rfl
  refine (constraint_mirrors h).bind fun c? => ?_
  cases c? with
  | some c => exact .pure rfl
  | none => exact .pure rfl

theorem columnType_mirrors : Mirrors ρ (columnType inner) (columnType inner) := by
  refine (consumeKeyword_mirrors _).bind fun _ => .ite ?_ (dataType_mirrors.bind fun type => .pure rfl)
  exact h.expression.bind fun expr => (consumeWord_mirrors _).bind fun _ => .pure rfl

theorem columnDefinition_mirrors : Mirrors ρ (columnDefinition inner) (columnDefinition inner) := by
  refine .position fun start => ident_mirrors.bind fun name => (columnType_mirrors h).bind fun x => ?_
  obtain ⟨type, computed⟩ := x
  refine .bind (.iterate (columnOption_mirrors h) .none) fun options => ?_
  refine (Mirrors.spanFrom start).bind fun span => .pure ?_
  simp [mapSpans]

/-! ## Tables -/

theorem tableElement_mirrors : Mirrors ρ (tableElement inner) (tableElement inner) := by
  refine .look (fun pos => ρ.isKeyword pos _) fun _ => .ite ?_ ?_
  · exact (indexDefinition_mirrors h).map fun _ => rfl
  refine (constraint_mirrors h).bind fun c? => ?_
  cases c? with
  | some c => exact .pure rfl
  | none => exact (columnDefinition_mirrors h).map fun _ => rfl

theorem tableElements_mirrors : Mirrors ρ (tableElements inner) (tableElements inner) :=
  (tableElement_mirrors h).commaSeparated

omit h in
theorem definitionOf_relocate (elements : List TableElement) (span : Span) :
    mapSpans ρ.move (definitionOf elements span) = definitionOf (mapSpans ρ.move elements) (ρ.move span) := by
  simp only [definitionOf, mapSpans, List.filterMap_map, List.map_filterMap]
  congr 2 <;> funext e <;> cases e <;> rfl

theorem tableDefinition_mirrors : Mirrors ρ (tableDefinition inner) (tableDefinition inner) := by
  refine .spanned ((expect_mirrors _).bind fun _ => (tableElements_mirrors h).bind fun elements => ?_)
    definitionOf_relocate
  exact (expect_mirrors _).bind fun _ => .pure rfl

end TransactLint.Grammar
