import TransactLint.Document
import TransactLint.Proofs.Layout.Statement
import TransactLint.Proofs.TokenOrder

/-!
# Layout of scripts

Every level reads nodes, by recursion on the number of levels, so the script of a document stands at
all of its terminals.
-/

namespace TransactLint

namespace Grammar

open TransactLint.Parser

variable {ts : Terminals}

theorem level_reads : ∀ n, (level n).Reads ts
  | 0 => ⟨.failTooDeep, .failTooDeep, .failTooDeep, .failTooDeep, .failTooDeep⟩
  | n + 1 =>
    have inner := level_reads n
    ⟨disjunction_reads inner, negation_reads inner, unary_reads inner, query_reads inner, statement_reads inner⟩

theorem separator_reads : Reads ts separator fun _ => .none := by
  intro start
  refine .look fun b => .ite (fun _ => ?_) fun _ => .pure (.refl _)
  refine skip_reads.then fun _ => .look fun b => .ite (fun _ => ?_) fun _ => .pure (.refl _)
  exact skip_reads.then fun _ => .pure (.of_eq rfl (by simp))

theorem batch_reads {top : Level} (h : top.Reads ts) :
    Reads ts (batch top) fun b? => .ofNodes (b?.toList.map .batch) := by
  refine .position fun start => (statementList_reads h false).then fun statements => ?_
  by_cases hnil : statements = []
  · subst hnil
    exact .look fun span => .pure (.of_eq rfl (by simp))
  · refine .closeAs (fun s => .batch ⟨statements, s⟩) (fun _ => rfl) (fun s => ?_) fun s => ?_
    · exact ⟨.refl _, fun _ => .inr (by simpa using hnil)⟩
    · exact .of_eq (by simp [hnil]) (by simp)

theorem script_fits {s : Script} {pos : Nat} (h : script ts 0 = .ok (s, pos)) :
    s.span = ts.span 0 ts.size ∧ (Layout.ofNodes (s.batches.map .batch)).Fits ts 0 ts.size := by
  have htop : (level nestingLimit).Reads ts := level_reads nestingLimit
  obtain ⟨start, _, hstart, h⟩ := bind_ok h
  cases hstart
  obtain ⟨first, mid, hfirst, h⟩ := bind_ok h
  obtain ⟨rest, last, hrest, h⟩ := bind_ok h
  obtain ⟨done, _, hdone, h⟩ := bind_ok h
  cases hdone
  -- a batch of nothing leaves no node
  have hfits : (Layout.ofNodes (((first :: rest).filterMap id).map .batch)).Fits ts 0 last := by
    have hbegin := batch_reads htop 0 _ _ _ (.none (Nat.le_refl 0) (Nat.zero_le _)) hfirst
    have hmore := (separator_reads.optionIf (m := fun _ => false) (batch_reads htop)).many.lays _ _ _ hbegin hrest
    refine hmore.entails (.of_eq ?_ (by simp))
    simp [List.filterMap_eq_flatMap_toList, List.map_flatMap]
  split at h
  · rename_i hend
    obtain ⟨span, _, hspan, h⟩ := bind_ok h
    cases hspan
    cases h
    have hpos : pos = ts.size := Nat.le_antisymm hfits.le.2 (by simpa using hend)
    exact hpos ▸ ⟨rfl, hfits⟩
  · exact absurd h failExpected_ne_ok

/-- A script of no terminals is empty; any other stands at all of them. -/
theorem script_stands {s : Script} {pos : Nat} (h : script ts 0 = .ok (s, pos)) :
    ts.size = 0 ∧ s = ⟨[], .empty⟩ ∨ Stands ts (.script s) 0 ts.size := by
  obtain ⟨hspan, hfits⟩ := script_fits h
  rcases Nat.eq_zero_or_pos ts.size with hsize | hsize
  · have hempty : ts.span 0 ts.size = .empty := by simp [Terminals.span, hsize]
    have hnil : s.batches = [] := by
      obtain ⟨ns, hperm, hrow⟩ := hfits.row
      by_contra hne
      have := hrow.lt_of_ne_nil fun h => hne (by simpa [h] using hperm.symm)
      omega
    exact .inl ⟨hsize, congrArg₂ Script.mk hnil (hspan.trans hempty)⟩
  · obtain ⟨ns, hperm, hrow⟩ := hfits.row
    exact .inr (.intro hsize hspan hperm hrow)

end Grammar

end TransactLint
