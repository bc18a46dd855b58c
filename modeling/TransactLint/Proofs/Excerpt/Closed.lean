import TransactLint.Grammar.Statement
import TransactLint.Proofs.Excerpt.Expression

/-!
# Closed excerpts

An excerpt is closed if it ends with a semicolon outside of parentheses and a separator comes after it.
Whatever looks for more at its end finds the separator, which stops it as the end would, and what skips
terminals without looking at them does so before the semicolon at the latest.
-/

namespace TransactLint

open TransactLint.Parser

namespace Terminals

def openParens (ts : Terminals) (pos : Nat) : Nat :=
  (ts.toList.take pos).foldl (fun depth x => parenDepth depth x.token.kind) 0

theorem openParens_succ {ts : Terminals} {pos : Nat} {t : Token} (ht : ts.token? pos = some t) :
    ts.openParens (pos + 1) = parenDepth (ts.openParens pos) t.kind := by
  obtain ⟨x, hx, rfl⟩ := Option.map_eq_some_iff.mp ht
  have hx' : ts.toList[pos]? = some x := by rw [Array.getElem?_toList, hx]
  simp [openParens, List.take_add_one, hx']

end Terminals

theorem Parser.parenDepth_le {depth depth' : Nat} (h : depth ≤ depth') (kind : TokenKind) :
    parenDepth depth kind ≤ parenDepth depth' kind := by
  unfold parenDepth
  split <;> omega

structure Excerpt.Closed {ts ts' : Terminals} (ρ : Excerpt ts ts') : Prop where
  shift_eq : ρ.shift = 0
  separator : ts'.isSeparator (ts.size + ρ.shift) = true
  semicolon : ts.isKind (ts.size - 1) .semicolon = true
  openParens : ts.openParens ts.size = 0

namespace Excerpt.Closed

variable {ts ts' : Terminals} {ρ : Excerpt ts ts'} (hρ : ρ.Closed) {pos : Nat}
include hρ

/-! ## What comes before -/

theorem last?_eq (h : pos ≤ ts.size) : ts'.last? (pos + ρ.shift) = ts.last? pos := by
  by_cases hpos : 0 < pos
  · exact ρ.last?_eq hpos h
  · obtain rfl : pos = 0 := by omega
    rw [hρ.shift_eq]
    rfl

theorem isSeparator_eq (h : pos < ts.size) : ts'.isSeparator (pos + ρ.shift) = ts.isSeparator pos := by
  rw [Terminals.isSeparator, Terminals.isSeparator, ρ.token?_eq h, hρ.last?_eq (Nat.le_of_lt h)]

theorem onSameLine_eq (h : pos < ts.size) : ts'.onSameLine (pos + ρ.shift) = ts.onSameLine pos := by
  rw [Terminals.onSameLine, Terminals.onSameLine, ρ.token?_eq h, hρ.last?_eq (Nat.le_of_lt h)]

/-- After another terminal than a semicolon there is one more. -/
theorem lt_size {t : Token} (ht : ts.token? pos = some t) (hkind : t.kind ≠ .semicolon) : pos + 1 < ts.size := by
  have hlt := token?_isSome (by rw [ht]; rfl)
  rcases Nat.lt_or_eq_of_le (show pos + 1 ≤ ts.size from hlt) with hin | hend
  · exact hin
  · obtain ⟨u, hu, hsemicolon⟩ := Terminals.isKind_iff.mp hρ.semicolon
    rw [← hend, Nat.add_sub_cancel, ht] at hu
    cases hu
    exact absurd hsemicolon hkind

/-! ## Where a statement ends -/

/-- The end and the separator both stop. -/
theorem stops_eq (h : pos ≤ ts.size) :
    (decide (ts'.size ≤ pos + ρ.shift) || ts'.isSeparator (pos + ρ.shift)) =
    (decide (ts.size ≤ pos) || ts.isSeparator pos) := by
  rcases Nat.lt_or_eq_of_le h with hlt | rfl
  · have hlt' := ρ.lt_size hlt
    rw [hρ.isSeparator_eq hlt, decide_eq_false (by omega), decide_eq_false (by omega)]
  · simp [hρ.separator]

theorem atBoundary_eq (h : pos ≤ ts.size) :
    Grammar.atBoundary ts' (pos + ρ.shift) = Grammar.atBoundary ts pos := by
  have hstops := hρ.stops_eq h
  have hwords : ts'.isKeyword (pos + ρ.shift) = ts.isKeyword pos := funext fun word => ρ.isKeyword_eq h word
  have hsemicolon : ts'.isKind (pos + ρ.shift) .semicolon = ts.isKind pos .semicolon := ρ.isKind_eq h (by decide)
  simp only [Grammar.atBoundary, Grammar.atStatementStart, hwords, hsemicolon]
  generalize decide (ts'.size ≤ pos + ρ.shift) = a, decide (ts.size ≤ pos) = b at *
  generalize ts'.isSeparator (pos + ρ.shift) = c, ts.isSeparator pos = d at *
  revert hstops
  cases a <;> cases b <;> cases c <;> cases d <;> simp

/-- A name that stands on the line before it, unless it is the separator. -/
theorem name_eq (h : pos ≤ ts.size) : (ts'.isIdentifier (pos + ρ.shift) && ts'.onSameLine (pos + ρ.shift) &&
      !ts'.isSeparator (pos + ρ.shift)) = (ts.isIdentifier pos && ts.onSameLine pos && !ts.isSeparator pos) := by
  rcases Nat.lt_or_eq_of_le h with hlt | rfl
  · rw [ρ.isIdentifier_eq hlt, hρ.onSameLine_eq hlt, hρ.isSeparator_eq hlt]
  · simp [hρ.separator, Terminals.isIdentifier_of_le (Nat.le_refl _)]

end Excerpt.Closed

namespace Parser

variable {α β : Type} {ts ts' : Terminals} {ρ : Excerpt ts ts'} (hρ : ρ.Closed) {base limit : Nat}
include hρ

/-- The parentheses that skipping has met are open in the excerpt, so at its end there are none. -/
theorem skipUntil_persists_closed {stop : Terminals → Nat → Bool}
    (hstop : ∀ pos, pos < ts.size → stop ts' (pos + ρ.shift) = stop ts pos)
    (hend : stop ts' (ts.size + ρ.shift) = true) :
    Persists ρ base limit (skipUntil stop) (skipUntil stop) fun _ => false := by
  rw [skipUntil_eq]
  refine (Persists.iterateWith (I := fun depth pos => depth ≤ ts.openParens pos) (fun depth pos _ h hdepth => ?_)
    (fun depth next pos mid hdepth hround => ?_) fun _ => Nat.zero_le _).bind fun _ => .pure rfl
  · rcases Nat.lt_or_eq_of_le h with hlt | rfl
    · exact skipRound_persistsAt depth hlt (hstop pos hlt)
    · intro pos' next hnext
      obtain ⟨rfl, rfl⟩ := skipRound_at_end hnext
      have hzero : depth = 0 := Nat.le_zero.mp (hρ.openParens ▸ hdepth)
      refine ⟨h, h, nofun, fun _ => ?_⟩
      rw [skipRound, bind_look, if_pos (by simp [hzero, hend])]
      rfl
  · obtain ⟨t, ht, rfl, rfl⟩ := skipRound_ok hround
    rw [Terminals.openParens_succ ht]
    exact parenDepth_le hdepth t.kind

/-- Past a terminal that is no semicolon there is one to skip. -/
theorem expectSkip_persists {kind : TokenKind} (hkind : kind ≠ .semicolon) {q q' : Unit → Parser β}
    {due : β → Bool} (hq : ∀ base, Persists ρ base limit (q ()) (q' ()) fun _ => false) :
    Persists ρ base limit (expect kind >>= fun _ => skip >>= q) (expect kind >>= fun _ => skip >>= q') due := by
  intro pos hbase h
  have hexpect : PersistsAt ρ limit pos (expect kind) (expect kind) fun _ => false := (expect_persists kind).here h
  refine hexpect.bindRead fun _ mid hread _ => ?_
  obtain ⟨hpos, rfl⟩ := expect_ok hread
  obtain ⟨t, ht, rfl⟩ := Terminals.isKind_iff.mp hpos
  exact (skip_persistsAt (hρ.lt_size ht hkind)).then fun _ => hq _

end Parser

end TransactLint
