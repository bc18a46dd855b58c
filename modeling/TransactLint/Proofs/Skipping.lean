import TransactLint.Linter
import TransactLint.Proofs.Excerpt.Parser
import TransactLint.Proofs.Form.Statement
import TransactLint.Proofs.Gap
import TransactLint.Proofs.StatementCover

/-!
# Where skipping stops

What is not modelled is skipped up to the first terminal outside of parentheses at which a statement ends, and a
separator is one. So a separator inside of such a statement stands in parentheses that open there. The first word of
a change to a table is skipped whatever it is, even a separator.
-/

namespace TransactLint

open TransactLint.Parser

/-! ## Open parentheses -/

namespace Terminals

variable {ts : Terminals} {start pos : Nat} {t : Token}

/-- How many of the parentheses that open from `start` on are open before `pos`. -/
def openSince (ts : Terminals) (start pos : Nat) : Nat :=
  (ts.within start pos).foldl (fun depth t => parenDepth depth t.kind) 0

@[simp] theorem openSince_self (ts : Terminals) (pos : Nat) : ts.openSince pos pos = 0 := by simp [openSince]

theorem openSince_succ (hpos : start ≤ pos) (ht : ts.token? pos = some t) :
    ts.openSince start (pos + 1) = parenDepth (ts.openSince start pos) t.kind := by
  simp [openSince, within_succ hpos ht]

/-- A terminal that opens no parenthesis may be left out. -/
theorem openSince_of_first (hpos : start < pos) (ht : ts.token? start = some t) (hparen : t.kind ≠ .leftParen) :
    ts.openSince start pos = ts.openSince (start + 1) pos := by
  have hzero : parenDepth 0 t.kind = 0 := by
    unfold parenDepth
    split
    · rename_i hkind
      exact absurd hkind hparen
    · rfl
    · rfl
  rw [openSince, within_cons hpos ht, List.foldl_cons, hzero, openSince]

end Terminals

/-! ## Skipping -/

/-- Skipping from `start` on stops at `stop`, the first position outside of parentheses at which `ends` holds, or
the end. -/
structure SkipsTo (ts : Terminals) (ends : Nat → Bool) (start stop : Nat) : Prop where
  le : start ≤ stop
  passed : ∀ i, start ≤ i → i < stop → ts.openSince start i = 0 → ends i = false
  ended : stop < ts.size → ts.openSince start stop = 0 ∧ ends stop = true

theorem SkipsTo.le_of_ends {ts : Terminals} {ends : Nat → Bool} {start stop i : Nat}
    (h : SkipsTo ts ends start stop) (hi : start ≤ i) (hzero : ts.openSince start i = 0) (hends : ends i = true) :
    stop ≤ i := by
  refine Nat.not_lt.mp fun hlt => ?_
  have hpassed := h.passed i hi hlt hzero
  rw [hends] at hpassed
  cases hpassed

namespace Parser

variable {ts : Terminals} {ends : Terminals → Nat → Bool} {start : Nat}

theorem skipRound_of_end {depth pos : Nat} (h : (depth == 0 && ends ts pos) = true) :
    skipRound ends depth ts pos = .ok (none, pos) := by
  rw [skipRound, bind_look, if_pos h]
  rfl

theorem skipRound_of_some {depth pos : Nat} (h : ¬ (depth == 0 && ends ts pos) = true) {t : Token}
    (ht : ts.token? pos = some t) :
    skipRound ends depth ts pos = .ok (some (parenDepth depth t.kind), pos + 1) := by
  rw [skipRound, bind_look, if_neg h, bind_of_ok (take_of_some ht)]
  rfl

theorem skipRound_of_le {depth pos : Nat} (h : ¬ (depth == 0 && ends ts pos) = true) (hpos : ts.size ≤ pos) :
    skipRound ends depth ts pos = .ok (none, pos) := by
  have htake : take ts pos = .ok (none, pos) := by
    change Except.ok (ts.token? pos, if pos < ts.size then pos + 1 else pos) = _
    rw [Terminals.token?_of_le hpos, if_neg (Nat.not_lt.mpr hpos)]
  rw [skipRound, bind_look, if_neg h, bind_of_ok htake]
  rfl

/-- The depth that skipping keeps is that of the parentheses opened since it began. -/
theorem rounds_skipsTo (ends : Terminals → Nat → Bool) (n : Nat) :
    ∀ pos, start ≤ pos → ts.size - pos < n →
    (∀ i, start ≤ i → i < pos → ts.openSince start i = 0 → ends ts i = false) →
    ∃ depth stop, rounds (skipRound ends) n (ts.openSince start pos) ts pos = .ok (depth, stop) ∧
      SkipsTo ts (ends ts) start stop := by
  -- the state is the number of parentheses open at `pos`, and no end outside them has been passed
  induction n with
  | zero =>
    intro pos _ hn
    omega
  | succ n ih =>
    intro pos hpos hn hpassed
    unfold rounds
    by_cases hend : (ts.openSince start pos == 0 && ends ts pos) = true
    · rw [skipRound_of_end hend]
      have hended : ts.openSince start pos = 0 ∧ ends ts pos = true := by simpa using hend
      exact ⟨_, pos, rfl, hpos, hpassed, fun _ => hended⟩
    · by_cases hlt : pos < ts.size
      · obtain ⟨t, ht⟩ : ∃ t, ts.token? pos = some t := by simp [Terminals.token?, hlt]
        rw [skipRound_of_some hend ht, ← Terminals.openSince_succ hpos ht]
        refine ih (pos + 1) (by omega) (by omega) fun i hi hpos' hzero => ?_
        rcases Nat.lt_or_eq_of_le (Nat.le_of_lt_succ hpos') with hbefore | rfl
        · exact hpassed i hi hbefore hzero
        · simpa [hzero] using hend
      · rw [skipRound_of_le hend (Nat.not_lt.mp hlt)]
        exact ⟨_, pos, rfl, hpos, hpassed, fun h => absurd h hlt⟩

theorem skipUntil_skipsTo (ends : Terminals → Nat → Bool) (ts : Terminals) (start : Nat) :
    ∃ stop, skipUntil ends ts start = .ok ((), stop) ∧ SkipsTo ts (ends ts) start stop := by
  obtain ⟨depth, stop, hrounds, hstop⟩ := rounds_skipsTo ends (ts.size - start + 1) start (Nat.le_refl _)
    (Nat.lt_succ_self _) fun i hi hlt => by omega
  rw [Terminals.openSince_self] at hrounds
  have hiterate : iterate (skipRound ends) 0 ts start = .ok (depth, stop) := hrounds
  refine ⟨stop, ?_, hstop⟩
  rw [skipUntil_eq, bind_of_ok hiterate]
  rfl

end Parser

/-! ## Separators -/

namespace Grammar

variable {ts : Terminals} {a b i : Nat}

/-- Skipping stops outside of parentheses, where a statement ends, and goes past a separator only inside of them. -/
theorem skipping_stops {rest : Parser Unit} (hrest : rest ∈ [skipStatement, skipToTerminator]) (ts : Terminals)
    (start : Nat) :
    ∃ stop, rest ts start = .ok ((), stop) ∧ start ≤ stop ∧
      (stop < ts.size → ts.openSince start stop = 0 ∧ atBoundary ts stop = true) ∧
        ∀ i, start ≤ i → ts.isSeparator i = true → ts.openSince start i = 0 → stop ≤ i := by
  have hboundary : ∀ i, ts.isSeparator i = true → atBoundary ts i = true :=
    fun i hgo => by simp [atBoundary, atStatementStart, hgo]
  rcases List.mem_pair.mp hrest with rfl | rfl
  · obtain ⟨stop, hstop, hskips⟩ := skipUntil_skipsTo atBoundary ts start
    refine ⟨stop, hstop, hskips.le, hskips.ended, fun i hi hgo hzero => ?_⟩
    exact hskips.le_of_ends hi hzero (hboundary i hgo)
  · obtain ⟨stop, hstop, hskips⟩ := skipUntil_skipsTo
      (fun ts pos => ts.isKind pos .semicolon || ts.isSeparator pos) ts start
    refine ⟨stop, hstop, hskips.le, fun hlt => ?_, fun i hi hgo hzero => ?_⟩
    · obtain ⟨hzero, hends⟩ := hskips.ended hlt
      refine ⟨hzero, ?_⟩
      rcases Bool.or_eq_true_iff.mp hends with hsemicolon | hgo
      · simp [atBoundary, hsemicolon]
      · exact hboundary stop hgo
    · exact hskips.le_of_ends hi hzero (by simp [hgo])

theorem PassedOver.enclosed (h : PassedOver ts a b) (hai : a < i) (hib : i < b) (hgo : ts.isSeparator i = true) :
    0 < ts.openSince (a + 1) i := by
  obtain ⟨rest, hrest, h⟩ := h
  obtain ⟨t, ht, -⟩ := Terminals.isSeparator_token hgo
  have hi : i < ts.size := token?_isSome (by rw [ht]; rfl)
  rw [bind_of_ok (skip_of_lt (Nat.lt_trans hai hi))] at h
  obtain ⟨stop, hstop, -, -, hgoes⟩ := skipping_stops hrest ts (a + 1)
  cases h.symm.trans hstop
  have hne := mt (hgoes i hai hgo) (Nat.not_le.mpr hib)
  omega

end Grammar

/-! ## Documents -/

/-- Where the terminals begin that a statement has skipped: at its first word, or behind the first word of a change
to a table. -/
def Statement.skippedFrom? (ts : Terminals) (s : Statement) : Option Nat :=
  match s.kind with
  | .unmodelled _ => ts.positionOf? s.span.firstToken
  | .alterTable name .unknown => (ts.positionOf? name.span.lastToken).map fun last =>
    Grammar.actionStart ts (last + 1) + 1
  | _ => none

section
variable {ts : Terminals} (ho : ts.Ordered) {n : Node} {a b : Nat} (h : Stands ts n a b)
include ho h

theorem Stands.positionOf?_firstToken : ts.positionOf? n.span.firstToken = some a := by
  obtain ⟨ha, _, hspan⟩ := h.cover ho
  rw [hspan]
  exact ho.positionOf?_index ha

theorem Stands.positionOf?_lastToken : ts.positionOf? n.span.lastToken = some (b - 1) := by
  obtain ⟨_, hb, hspan⟩ := h.cover ho
  rw [hspan]
  exact ho.positionOf?_index hb

end

namespace Document

theorem statement_mem_nodes {d : Document} {s : Statement} (hs : s ∈ d.statements) :
    .statement s ∈ d.nodes := by
  obtain ⟨b, hb, hs⟩ := List.mem_flatMap.mp hs
  have hbatch : d.root.Reaches (.batch b) := .child .refl (Node.mem_children.mpr (List.mem_map_of_mem hb))
  exact Node.mem_preorder.mpr (.child hbatch (Node.mem_children.mpr (List.mem_map_of_mem hs)))

theorem skipped_enclosed {sql : String} {d : Document} (h : parse sql = .ok d) {s : Statement}
    (hs : .statement s ∈ d.nodes) (hkind : s.kind.isModelled = false) :
    ∃ start, s.skippedFrom? d.terminals = some start ∧
      ∀ (i : Nat) (hi : i < d.terminals.size), start ≤ i → s.span.Holds d.terminals[i].index →
        d.terminals.isSeparator i = true → 0 < d.terminals.openSince start i := by
  have ho := terminals_ordered h
  obtain ⟨a, b, hstands, hproper⟩ := proper_of_mem h hs
  have hfirst : d.terminals.positionOf? s.span.firstToken = some a := hstands.positionOf?_firstToken ho
  unfold StatementKind.isModelled at hkind
  split at hkind
  · rename_i word hword
    rw [hword] at hproper
    obtain ⟨t, ht, hparen, hnot, hpassed⟩ := hproper
    refine ⟨a, by simp only [Statement.skippedFrom?, hword, hfirst], fun i hi _ hheld hgo => ?_⟩
    obtain ⟨hai, hib⟩ := (hstands.holds_iff ho hi).mp hheld
    -- the first word is no separator
    have hlt : a < i := Nat.lt_of_le_of_ne hai fun heq => by
      rw [heq, hgo] at hnot
      cases hnot
    rw [Terminals.openSince_of_first hlt ht hparen]
    exact hpassed.enclosed hlt hib hgo
  · rename_i name haction
    rw [haction] at hproper
    obtain ⟨m, hname, hpassed⟩ := hproper
    have hm := hname.lt
    have hlast : d.terminals.positionOf? name.span.lastToken = some (m - 1) := hname.positionOf?_lastToken ho
    refine ⟨Grammar.actionStart d.terminals m + 1, ?_, fun i hi hle hheld hgo => ?_⟩
    · simp only [Statement.skippedFrom?, haction, hlast, Option.map_some,
        Nat.sub_add_cancel (show 1 ≤ m by omega)]
    · exact hpassed.enclosed hle ((hstands.holds_iff ho hi).mp hheld).2 hgo
  · cases hkind

/-- What is not modelled is skipped up to a separator at the latest, unless it stands in parentheses that open on
the way. So in a script all separators among what has been skipped stand in such parentheses. -/
theorem separators_skipped_in_parentheses (ts : Terminals) (start : Nat) (sql : String) :
    (∀ rest ∈ [Grammar.skipStatement, Grammar.skipToTerminator],
      ∃ stop, rest ts start = .ok ((), stop) ∧ start ≤ stop ∧
        (stop < ts.size → ts.openSince start stop = 0 ∧ Grammar.atBoundary ts stop = true) ∧
          ∀ i, start ≤ i → ts.isSeparator i = true → ts.openSince start i = 0 → stop ≤ i) ∧
      ∀ d, parse sql = .ok d → ∀ s, .statement s ∈ d.nodes → s.kind.isModelled = false →
        ∃ first, s.skippedFrom? d.terminals = some first ∧
          ∀ (i : Nat) (hi : i < d.terminals.size), first ≤ i → s.span.Holds d.terminals[i].index →
            d.terminals.isSeparator i = true → 0 < d.terminals.openSince first i :=
  ⟨fun _ hrest => Grammar.skipping_stops hrest ts start, fun _ h _ hs hkind => skipped_enclosed h hs hkind⟩

/-- The separator stands in the parentheses of a change to a table, and another one ends the change. -/
theorem separators_skipped_switch :
    ∃ d, parse "ALTER TABLE t SWITCH (\nGO\n) TO u\nGO\nPRINT 1" = .ok d ∧ d.script.batches.length = 2 ∧
      ∃ s ∈ d.statements, s.kind.isModelled = false ∧ s.skippedFrom? d.terminals = some 4 ∧
        ∃ hi : 5 < d.terminals.size, s.span.Holds d.terminals[5].index ∧ d.terminals.isSeparator 5 = true ∧
          0 < d.terminals.openSince 4 5 := by
  obtain ⟨d, hd, hlength, s, hs, hkind, hfour, hi, hheld, hgo⟩ :
      ∃ d ∈ (parse "ALTER TABLE t SWITCH (\nGO\n) TO u\nGO\nPRINT 1").toOption, d.script.batches.length = 2 ∧
        ∃ s ∈ d.statements, s.kind.isModelled = false ∧ s.skippedFrom? d.terminals = some 4 ∧
          ∃ hi : 5 < d.terminals.size, (s.span.firstToken ≤ d.terminals[5].index ∧
            d.terminals[5].index ≤ s.span.lastToken) ∧ d.terminals.isSeparator 5 = true := by
    decide +kernel
  have h := eq_ok_of_mem_toOption hd
  obtain ⟨first, hfirst, henclosed⟩ :=
    (separators_skipped_in_parentheses d.terminals 4 _).2 d h s (statement_mem_nodes hs) hkind
  cases hfour.symm.trans hfirst
  exact ⟨d, h, hlength, s, hs, hkind, hfour, hi, hheld, hgo, henclosed 5 hi (by decide) hheld hgo⟩

/-- The script is one batch, and the separator at `pos` stands inside of a statement that has been skipped. -/
def Swallows (sql : String) (pos : Nat) : Prop :=
  ∃ d ∈ (parse sql).toOption, d.script.batches.length = 1 ∧ d.terminals.isSeparator pos = true ∧
    ∃ s ∈ d.statements, s.kind.isModelled = false ∧ ∃ hpos : pos < d.terminals.size,
      s.span.Holds d.terminals[pos].index

/-- A parenthesis that is never closed keeps the separator, and all that follows it, inside of the statement: no
rule sees the table. In a change to a table that has no action, the separator is taken for one. -/
theorem separators_swallowed :
    (Swallows "RAISERROR ('x'\nGO\nCREATE TABLE dbo.t (a INT)" 3 ∧
      (∃ d ∈ (parse "RAISERROR ('x'\nGO\nCREATE TABLE dbo.t (a INT)").toOption,
        ((), d.terminals.size) ∈ (Grammar.skipStatement d.terminals 1).toOption) ∧
      [] ∈ (lint "RAISERROR ('x'\nGO\nCREATE TABLE dbo.t (a INT)" .allRules).toOption) ∧
    Swallows "ALTER TABLE t\nGO\nDROP TABLE u" 3 := by
  unfold Swallows Span.Holds
  decide +kernel

end Document

end TransactLint
