import TransactLint.Linter
import TransactLint.Proofs.Sorting
import TransactLint.Proofs.TokenOrder

/-!
# Choosing rules

A configuration only chooses among the violations that all rules together report. The sort by place
is stable, so what a configuration keeps stays in its order, and violations at one place stand in the
order of the rules.
-/

namespace TransactLint

theorem Rule.ruleId_of_mem_violations {rule : Rule} {d : Document} {v : Violation} (h : v ∈ rule.violations d) :
    v.ruleId = rule.id := by
  obtain ⟨place, _, rfl⟩ := List.mem_map.mp h
  rfl

namespace Configuration

theorem enabledRules_allRules : allRules.enabledRules = Rule.all := by
  apply List.filter_eq_self.mpr
  intro rule _
  simp [isRuleEnabled, allRules]

end Configuration

namespace Document

variable (d : Document) (c : Configuration)

/-- A rule that is switched off takes its own reports with it and no others. -/
theorem flatMap_violations_filter (rules : List Rule) :
    (rules.filter fun rule => c.isRuleEnabled rule.id).flatMap (fun rule => rule.violations d) =
      (rules.flatMap fun rule => rule.violations d).filter fun v => c.isRuleEnabled v.ruleId := by
  induction rules with
  | nil => rfl
  | cons rule rules ih =>
    rw [List.flatMap_cons, List.filter_append, ← ih]
    by_cases hrule : c.isRuleEnabled rule.id
    · have hkept : (rule.violations d).filter (fun v => c.isRuleEnabled v.ruleId) = rule.violations d := by
        apply List.filter_eq_self.mpr
        intro v hv
        rwa [Rule.ruleId_of_mem_violations hv]
      rw [hkept]
      simp [hrule]
    · have hnone : (rule.violations d).filter (fun v => c.isRuleEnabled v.ruleId) = [] := by
        apply List.filter_eq_nil_iff.mpr
        intro v hv
        rwa [Rule.ruleId_of_mem_violations hv]
      rw [hnone]
      simp [hrule]

theorem reports_eq_filter :
    d.reports c = (d.reports .allRules).filter fun v => c.isRuleEnabled v.ruleId := by
  unfold reports
  rw [Configuration.enabledRules_allRules, ← flatMap_violations_filter]
  rfl

section
variable (p : Violation → Bool)

theorem location_le_trans (u v w : Violation) (huv : decide (u.location ≤ v.location) = true)
    (hvw : decide (v.location ≤ w.location) = true) : decide (u.location ≤ w.location) = true :=
  decide_eq_true (Location.le_trans (of_decide_eq_true huv) (of_decide_eq_true hvw))

theorem location_le_total (v w : Violation) :
    decide (v.location ≤ w.location) = true ∨ decide (w.location ≤ v.location) = true := by
  simpa using Location.le_total v.location w.location

theorem filter_violations : (d.violations c).filter p =
    stableSort (fun v w => decide (v.location ≤ w.location)) ((d.reports c).filter p) :=
  filter_stableSort location_le_trans location_le_total p _

end

/-- Violations at one place stay in the order of their reports. -/
theorem filter_violations_at (place : Location) :
    (d.violations c).filter (fun v => v.location = place) = (d.reports c).filter fun v => v.location = place := by
  rw [filter_violations]
  apply stableSort_of_pairwise
  apply List.pairwise_of_forall_mem_list
  intro v hv w hw
  have hv := of_decide_eq_true (List.mem_filter.mp hv).2
  have hw := of_decide_eq_true (List.mem_filter.mp hw).2
  rw [hv, hw]
  exact decide_eq_true (Location.le_refl place)

/-- A configuration keeps the violations of the rules that it enables. The violations are the reports,
sorted by place, and at one place those of an earlier rule come first, each rule's own in the order in
which it reports them. -/
theorem violations_selected :
    d.violations c = (d.violations .allRules).filter (fun v => c.isRuleEnabled v.ruleId) ∧
      (d.violations c).Pairwise (fun v w => v.location ≤ w.location) ∧
      (d.violations c).Perm (d.reports c) ∧
      ∀ place, (d.violations c).filter (fun v => v.location = place) =
        (Rule.all.filter fun rule => c.isRuleEnabled rule.id).flatMap fun rule =>
          (rule.violations d).filter fun v => v.location = place := by
  refine ⟨?_, ?_, ?_, ?_⟩
  · rw [filter_violations, ← reports_eq_filter]
    rfl
  · have hsorted := pairwise_stableSort location_le_trans location_le_total (d.reports c)
    exact hsorted.imp of_decide_eq_true
  · exact stableSort_perm _ _
  · intro place
    rw [filter_violations_at, reports, List.filter_flatMap]
    rfl

end Document

end TransactLint
