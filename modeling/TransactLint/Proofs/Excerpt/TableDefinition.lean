import TransactLint.Proofs.Excerpt.Closed

/-!
# Table definitions of a closed excerpt
-/

namespace TransactLint.Grammar

open TransactLint.Parser

variable {ts ts' : Terminals} {ρ : Excerpt ts ts'} {base limit : Nat}

theorem notForReplication_persists : Persists ρ base limit notForReplication notForReplication id := by
  refine .whether (consumePair_persists (by decide) (by decide)) ?_ (.pure rfl)
  exact (expectWord_persists _).bind fun _ => .pure rfl

theorem clusteredOption_persists : Persists ρ base limit clusteredOption clusteredOption fun _ => false := by
  refine .whether (consumeKeyword_persists _) (.pure rfl) ?_
  exact .whether (consumeKeyword_persists _) (.pure rfl) (.pure rfl)

/-! ## Storage options -/

theorem atFilegroup_persists {pos : Nat} (h : pos ≤ ts.size) :
    atFilegroup ts' (pos + ρ.shift) = atFilegroup ts pos := by
  simp only [atFilegroup, Bool.and_assoc]
  refine and_eq_and (ρ.isKeyword_eq h _) fun hon => ?_
  have hlt := isKind_lt hon
  rw [nextIsKeyword_eq hlt, nextIsKeyword_eq hlt]

theorem atTextStorage_persists {pos : Nat} (h : pos ≤ ts.size) :
    atTextStorage ts' (pos + ρ.shift) = atTextStorage ts pos := by
  rw [atTextStorage, atTextStorage, ρ.isWord_eq h (by decide), ρ.isWord_eq h (by decide)]

theorem storageOption_persists (hρ : ρ.Closed) : Persists ρ base limit storageOption storageOption id := by
  refine .ifLook (fun _ _ h => pair_eq (by decide) (by decide) h) (fun pos _ h => ?_) ?_
  · have hlt := pair_lt h
    exact (skip_persistsAt (by omega)).then fun _ => skipParenthesized_persists.bind fun _ => .pure rfl
  refine .ifLook (fun _ _ h => keywordWord_eq h _ (by decide)) (fun pos _ h => ?_) ?_
  · refine (skipTwo_persistsAt (keywordWord_lt h)).then fun _ => ?_
    exact expectSkip_persists hρ (by decide) fun _ => .pure rfl
  refine .look (fun _ _ h => atFilegroup_persists h) fun _ => .ite ?_ ?_
  · refine .skip (anyIdent_persists.then fun _ => .look (fun _ _ h => ρ.isKind_eq h (by decide)) fun _ => ?_)
    exact .ite (skipParenthesized_persists.bind fun _ => .pure rfl) (.pure rfl)
  refine .look (fun _ _ h => atTextStorage_persists h) fun _ => .ite ?_ (.pure rfl)
  exact .skip (anyIdent_persists.then fun _ => .pure rfl)

theorem storageOptions_persists (hρ : ρ.Closed) :
    Persists ρ base limit storageOptions storageOptions fun _ => false :=
  .repeatWhile (storageOption_persists hρ)

/-! ## Indexes -/

theorem indexColumn_persists {owed : IndexColumn → Bool} : Persists ρ base limit indexColumn indexColumn owed :=
  .spanned (ident_persists.then fun _ => sortDirection_persists.bind fun _ => .pure rfl)

theorem indexColumns_persists {owed : List IndexColumn → Bool} :
    Persists ρ base limit indexColumns indexColumns owed := by
  refine (expect_persists _).then fun _ => (Persists.commaSeparated fun _ => indexColumn_persists).bind
    fun columns => ?_
  exact (expect_persists _).bind fun _ => .pure rfl

theorem optionalColumns_persists :
    Persists ρ base limit (listIf (atKind .leftParen) indexColumns) (listIf (atKind .leftParen) indexColumns)
      fun _ => false :=
  .listLook (fun _ _ h => ρ.isKind_eq h (by decide)) indexColumns_persists

variable (hρ : ρ.Closed) {inner : Level} (hinner : inner.Persists ρ inner)
include hρ hinner

theorem indexBody_persists : Persists ρ base limit (indexBody inner) (indexBody inner) fun _ => false := by
  refine optionalColumns_persists.bind fun columns => ?_
  refine .bind (.listIf (consumeWord_persists (by decide)) identList_persists) fun included => ?_
  refine .bind (.optionIf (consumeKeyword_persists _) (hinner.expression _ limit).free rfl) fun filter => ?_
  exact (storageOptions_persists hρ).bind fun _ => .pure rfl

theorem indexDefinition_persists {owed : IndexDefinition → Bool} :
    Persists ρ base limit (indexDefinition inner) (indexDefinition inner) owed := by
  refine .position fun start _ => (expectKeyword_persists _).then fun _ => ident_persists.bind fun name => ?_
  refine (consumeKeyword_persists _).free.bind fun unique => clusteredOption_persists.bind fun clustered => ?_
  refine (consumeWord_persists (by decide)).free.bind fun columnstore => (indexBody_persists hρ hinner).bind
    fun x => ?_
  exact .spanFrom (by omega) fun span => .pure rfl

/-! ## Constraints -/

omit hinner in
theorem uniqueBody_persists (primaryKey : Bool) :
    Persists ρ base limit (uniqueBody primaryKey) (uniqueBody primaryKey) fun _ => false := by
  refine clusteredOption_persists.bind fun clustered => (consumeWord_persists (by decide)).free.bind fun _ => ?_
  refine optionalColumns_persists.bind fun columns => ?_
  exact (storageOptions_persists hρ).bind fun _ => .pure rfl

section
omit hρ hinner

theorem referentialAction_persists {owed : Unit → Bool} :
    Persists ρ base limit referentialAction referentialAction owed := by
  refine .whether (consumeKeyword_persists _) (.pure rfl) ?_
  refine .whether (consumeWord_persists (by decide)) (expectWord_persists _) ?_
  refine (expectKeyword_persists _).then fun _ => ?_
  exact .whether (consumeKeyword_persists _) (.pure rfl) (expectKeyword_persists _)

theorem referenceOption_persists : Persists ρ base limit referenceOption referenceOption id := by
  refine .look (fun pos _ h => ?_) fun _ => .ite ?_ notForReplication_persists
  · refine and_eq_and (ρ.isKeyword_eq h _) fun hon => ?_
    have hlt := isKind_lt hon
    rw [nextIsKeyword_eq hlt, nextIsKeyword_eq hlt]
  · exact .skipTwo (referentialAction_persists.then fun _ => .pure rfl)

theorem references_persists (columns : List Ident) {owed : ConstraintKind → Bool} :
    Persists ρ base limit (references columns) (references columns) owed := by
  refine (expectKeyword_persists _).then fun _ => objectName_persists.bind fun target => ?_
  refine .bind (.listLook (fun _ _ h => ρ.isKind_eq h (by decide)) identList_persists) fun targetColumns => ?_
  exact (Persists.repeatWhile referenceOption_persists).bind fun _ => .pure rfl

end

omit hρ in
theorem checkBody_persists {owed : ConstraintKind → Bool} :
    Persists ρ base limit (checkBody inner) (checkBody inner) owed := by
  refine notForReplication_persists.free.bind fun _ => (expect_persists _).then fun _ => ?_
  exact (hinner.expression _ limit).free.bind fun condition => (expect_persists _).bind fun _ => .pure rfl

omit hρ in
theorem defaultBody_persists {owed : ConstraintKind → Bool} :
    Persists ρ base limit (defaultBody inner) (defaultBody inner) owed := by
  refine (hinner.expression _ limit).then fun value => ?_
  exact .bind (.optionIf (consumeKeyword_persists _) ident_persists rfl) fun column => .pure rfl

theorem constraintKind_persists :
    Persists ρ base limit (constraintKind inner) (constraintKind inner) Option.isSome := by
  have hunique : ∀ base primaryKey,
      Persists ρ base limit (some <$> uniqueBody primaryKey) (some <$> uniqueBody primaryKey)
      fun _ => false :=
    fun _ primaryKey => (uniqueBody_persists hρ primaryKey).bind fun _ => .pure rfl
  refine .whether (consumeKeyword_persists _) ((expectKeyword_persists _).bind fun _ => hunique _ _) ?_
  refine .whether (consumeKeyword_persists _) (hunique _ _) ?_
  refine .whether (consumeKeyword_persists _) ?_ ?_
  · refine (expectKeyword_persists _).bind fun _ => identList_persists.bind fun columns => ?_
    exact (references_persists columns).map
  refine .look (fun _ _ h => ρ.isKeyword_eq h _) fun _ => .ite (references_persists []).map ?_
  refine .whether (consumeKeyword_persists _) (checkBody_persists hinner).map ?_
  exact .whether (consumeKeyword_persists _) (defaultBody_persists hinner).map (.pure rfl)

theorem constraint_persists : Persists ρ base limit (constraint inner) (constraint inner) Option.isSome := by
  refine .position fun start _ => ?_
  refine .bind (.optionIf (consumeKeyword_persists _) ident_persists rfl) fun name pos hpos h => ?_
  refine (constraintKind_persists hρ hinner pos hpos h).bind fun kind? mid hle hsize hlt => ?_
  cases kind? with
  | some kind =>
    have := hlt rfl
    exact (Persists.spanFrom (by omega) fun span => .pure rfl).here hsize
  | none => exact (Persists.ite .failExpected (.pure rfl)).here hsize

/-! ## Columns -/

omit hρ hinner in
theorem ignoredColumnWord_persists : Persists ρ base limit ignoredColumnWord ignoredColumnWord id := by
  refine .whether (consumeKeyword_persists _) (.pure rfl) ?_
  refine .whether (consumeWord_persists (by decide)) (.pure rfl) ?_
  exact .whether (consumeWord_persists (by decide)) (.pure rfl) (consumeWord_persists (by decide))

theorem columnOption_persists (found : ColumnOptions) :
    Persists ρ base limit (columnOption inner found) (columnOption inner found) Option.isSome := by
  refine .whether (consumeKeyword_persists _) (.pure rfl) ?_
  refine .whether (consumePair_persists (by decide) (by decide)) (.pure rfl) ?_
  refine .whether notForReplication_persists (.pure rfl) ?_
  refine .whether (consumeKeyword_persists _) ?_ ?_
  · refine .look (fun _ _ h => ρ.isKind_eq h (by decide)) fun _ => .ite ?_ (.pure rfl)
    exact skipParenthesized_persists.bind fun _ => .pure rfl
  refine .whether (consumeKeyword_persists _) (ident_persists.bind fun _ => .pure rfl) ?_
  refine .whether ignoredColumnWord_persists (.pure rfl) ?_
  refine .look (fun _ _ h => ρ.isKeyword_eq h _) fun _ => .ite ?_ ?_
  · exact (indexDefinition_persists hρ hinner).then fun _ => .pure rfl
  refine fun pos hpos h => (constraint_persists hρ hinner pos hpos h).bind fun c? mid hle hsize hlt => ?_
  cases c? with
  | some c => exact (Persists.pure rfl).here hsize
  | none => exact (Persists.pure rfl).here hsize

omit hρ in
theorem columnType_persists {owed : Option DataType × Option Expr → Bool} :
    Persists ρ base limit (columnType inner) (columnType inner) owed := by
  refine .whether (consumeKeyword_persists _) ?_ (dataType_persists.then fun _ => .pure rfl)
  refine (hinner.expression _ limit).free.bind fun expr => ?_
  exact (consumeWord_persists (by decide)).free.bind fun _ => .pure rfl

theorem columnDefinition_persists {owed : ColumnDefinition → Bool} :
    Persists ρ base limit (columnDefinition inner) (columnDefinition inner) owed := by
  refine .position fun start _ => ident_persists.then fun name => (columnType_persists hinner).bind fun x => ?_
  refine (Persists.iterate (columnOption_persists hρ hinner) _).bind fun options => ?_
  exact .spanFrom (by omega) fun span => .pure rfl

/-! ## Tables -/

theorem tableElement_persists {owed : TableElement → Bool} :
    Persists ρ base limit (tableElement inner) (tableElement inner) owed := by
  refine .look (fun _ _ h => ρ.isKeyword_eq h _) fun _ => .ite (indexDefinition_persists hρ hinner).map ?_
  refine fun pos hpos h => (constraint_persists hρ hinner pos hpos h).bind fun c? mid hle hsize hlt => ?_
  cases c? with
  | some c => exact (Persists.pure rfl).here hsize
  | none => exact (columnDefinition_persists hρ hinner).map.here hsize

theorem tableElements_persists {owed : List TableElement → Bool} :
    Persists ρ base limit (tableElements inner) (tableElements inner) owed :=
  .commaSeparated fun _ => tableElement_persists hρ hinner

theorem tableDefinition_persists {owed : TableDefinition → Bool} :
    Persists ρ base limit (tableDefinition inner) (tableDefinition inner) owed := by
  refine .spanned ((expect_persists _).then fun _ => (tableElements_persists hρ hinner).bind fun elements => ?_)
  exact (expect_persists _).bind fun _ => .pure rfl

end TransactLint.Grammar
