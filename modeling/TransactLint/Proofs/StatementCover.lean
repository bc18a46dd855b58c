import TransactLint.Proofs.BatchComposition

/-!
# What stands in no statement

Between the statements of a script stand only semicolons, separators and their counts, and there is a separator
between any two batches. A batch reads on from where the last of its statements ended, so nothing else is passed
over.
-/

namespace TransactLint

/-! ## Terminals covered by statements -/

namespace Terminals

def isCount (ts : Terminals) : Nat → Bool
  | 0 => false
  | pos + 1 => ts.isSeparator pos && ts.isKind (pos + 1) .numberLiteral && ts.onSameLine (pos + 1)

def isLoose (ts : Terminals) (pos : Nat) : Bool :=
  ts.isKind pos .semicolon || ts.isSeparator pos || ts.isCount pos

end Terminals

/-- The terminals from one position to another are the given statements, with loose ones between them. -/
inductive Covers (ts : Terminals) : Nat → List Statement → Nat → Prop where
  | nil (a : Nat) : Covers ts a [] a
  | loose {xs : List Statement} {a b : Nat} (h : ts.isLoose a = true) (hrest : Covers ts (a + 1) xs b) :
      Covers ts a xs b
  | statement {x : Statement} {xs : List Statement} {a i b : Nat} (hx : Stands ts (.statement x) a i)
      (hrest : Covers ts i xs b) : Covers ts a (x :: xs) b

namespace Covers

variable {ts : Terminals} {xs ys : List Statement} {a b c : Nat}

theorem append (h : Covers ts a xs b) (h' : Covers ts b ys c) : Covers ts a (xs ++ ys) c := by
  induction h with
  | nil => exact h'
  | loose hloose _ ih => exact .loose hloose (ih h')
  | statement hx _ ih => exact .statement hx (ih h')

theorem row (h : Covers ts a xs b) (hb : b ≤ ts.size) : Row ts (xs.map .statement) a b := by
  induction h with
  | nil => exact .nil (Nat.le_refl _) hb
  | loose _ _ ih => exact (ih hb).widen (Nat.le_succ _)
  | statement hx _ ih => exact .cons (Nat.le_refl _) hx (ih hb)

/-- A terminal among them is loose or belongs to one of the statements. -/
theorem loose_or_stands (h : Covers ts a xs b) {i : Nat} (hi : a ≤ i) (hib : i < b) :
    ts.isLoose i = true ∨ ∃ x ∈ xs, ∃ j k, j ≤ i ∧ i < k ∧ Stands ts (.statement x) j k := by
  induction h with
  | nil => omega
  | @loose _ a _ hloose _ ih =>
    by_cases hfirst : i = a
    · exact .inl (hfirst ▸ hloose)
    · exact ih (by omega) hib
  | @statement x _ a k _ hx _ ih =>
    by_cases hinside : i < k
    · exact .inr ⟨x, List.mem_cons_self, a, k, hi, hinside, hx⟩
    · rcases ih (by omega) hib with hloose | ⟨y, hy, hstands⟩
      · exact .inl hloose
      · exact .inr ⟨y, List.mem_cons_of_mem _ hy, hstands⟩

end Covers

/-! ## Reading a script -/

namespace Grammar

open TransactLint.Parser

variable {ts : Terminals} {pos pos' : Nat}

theorem semicolons_cover {u : Unit} (h : repeatWhile (consume .semicolon) ts pos = .ok (u, pos')) :
    Covers ts pos [] pos' := by
  refine repeatWhile_keeps (fun before hbefore hkind => ?_) (.nil pos) h
  exact hbefore.append (.loose (by simp [Terminals.isLoose, hkind]) (.nil _))

theorem level_statement_stands {n : Nat} {x : Statement} (hpos : pos ≤ ts.size)
    (h : (level n).statement ts pos = .ok (x, pos')) : Stands ts (.statement x) pos pos' ∧ pos' ≤ ts.size := by
  cases n with
  | zero => exact absurd h failTooDeep_ne_ok
  | succ n => exact statement_stands (level_reads n) hpos h

def nextStatement (top : Level) : Parser (Option Statement) := do
  repeatWhile (consume .semicolon)
  let stop ← look fun ts pos => ts.size ≤ pos || ts.isSeparator pos || (false && ts.isKeyword pos .END)
  optionIf (pure !stop) top.statement

theorem statementList_eq (top : Level) : statementList top false = many (nextStatement top) := rfl

theorem nextStatement_covers {n : Nat} {x? : Option Statement}
    (h : nextStatement (level n) ts pos = .ok (x?, pos')) :
    Covers ts pos x?.toList pos' ∧ (x?.isSome → pos < pos' ∧ pos' ≤ ts.size) := by
  obtain ⟨_, mid, hsemicolons, h⟩ := bind_ok h
  have hcovers := semicolons_cover hsemicolons
  rw [bind_look] at h
  by_cases hstop : (decide (ts.size ≤ mid) || ts.isSeparator mid || (false && ts.isKeyword mid .END)) = true
  · rw [hstop] at h
    cases h
    exact ⟨hcovers, nofun⟩
  · obtain ⟨x, last, hx, h⟩ : ∃ x last, (level n).statement ts mid = .ok (x, last) ∧
        (pure (some x) : Parser (Option Statement)) ts last = .ok (x?, pos') := by
      rw [Bool.not_eq_true] at hstop
      rw [hstop] at h
      exact bind_ok h
    cases h
    have hmid : mid < ts.size := by
      simp at hstop
      omega
    obtain ⟨hstands, hsize⟩ := level_statement_stands (Nat.le_of_lt hmid) hx
    have hle := (hcovers.row (Nat.le_of_lt hmid)).le
    have hlt := hstands.lt
    exact ⟨hcovers.append (.statement hstands (.nil _)), fun _ => ⟨by omega, hsize⟩⟩

theorem statementList_covers {n : Nat} {xs : List Statement}
    (h : statementList (level n) false ts pos = .ok (xs, pos')) : Covers ts pos xs pos' := by
  rw [statementList_eq] at h
  obtain ⟨mid, hall, hend⟩ := readsAll_of_many (fun _ _ _ h => (nextStatement_covers h).2 rfl) h
  suffices hcovers : Covers ts pos xs mid by simpa using hcovers.append (nextStatement_covers hend).1
  clear h
  induction xs generalizing pos with
  | nil =>
    obtain rfl : pos = mid := hall
    exact .nil pos
  | cons x xs ih =>
    obtain ⟨next, hx, _, _, hrest⟩ := hall
    exact (nextStatement_covers hx).1.append (ih hrest)

/-- A batch has statements and stands at some of what was read for it. -/
theorem batch_covers {b? : Option Batch} (hpos : pos ≤ ts.size)
    (h : batch (level nestingLimit) ts pos = .ok (b?, pos')) :
    Covers ts pos (b?.toList.flatMap Batch.statements) pos' ∧
      ∀ b ∈ b?, b.statements ≠ [] ∧ ∃ i j, pos ≤ i ∧ j ≤ pos' ∧ Stands ts (.batch b) i j := by
  obtain ⟨ns, hperm, hrow⟩ :=
    (batch_reads (level_reads nestingLimit) pos _ _ _ (.none (Nat.le_refl _) hpos) h).row
  rw [batch, position, bind_look] at h
  obtain ⟨statements, mid, hstatements, h⟩ := bind_ok h
  have hcovers := statementList_covers hstatements
  rw [spanFrom, bind_look] at h
  cases h
  by_cases hnil : statements = []
  · subst hnil
    refine ⟨hcovers, ?_⟩
    intro b hb
    cases hb
  · simp only [List.isEmpty_iff, hnil, if_false] at hperm ⊢
    refine ⟨by simpa using hcovers, ?_⟩
    intro b hb
    cases hb
    exact ⟨hnil, hrow.stands (hperm.mem_iff.mpr (by simp))⟩

theorem separator_covers (h : separator ts pos = .ok (true, pos')) :
    ts.isSeparator pos = true ∧ Covers ts pos [] pos' := by
  rw [separator, bind_look] at h
  split at h
  · rename_i hseparator
    have hgo : ts.isLoose pos = true := by simp [Terminals.isLoose, hseparator]
    obtain ⟨t, ht, _⟩ := Terminals.isSeparator_token hseparator
    rw [bind_of_ok (skip_of_lt (token?_isSome (by rw [ht]; rfl))), bind_look] at h
    split at h
    · rename_i hcount
      have hkind := (Bool.and_eq_true_iff.mp hcount).1
      rw [bind_of_ok (skip_of_lt (isKind_lt hkind))] at h
      cases h
      have hloose : ts.isLoose (pos + 1) = true := by
        simp only [Terminals.isLoose, Terminals.isCount, hseparator, Bool.true_and, hcount, Bool.or_true]
      exact ⟨hseparator, .loose hgo (.loose hloose (.nil _))⟩
    · cases h
      exact ⟨hseparator, .loose hgo (.nil _)⟩
  · cases h

/-- The batch stands behind a separator that is not before `a`. -/
def Follows (ts : Terminals) (a : Nat) (b : Batch) : Prop :=
  ∃ go i j, a ≤ go ∧ ts.isSeparator go = true ∧ go < i ∧ Stands ts (.batch b) i j

theorem Follows.mono {a a' : Nat} {b : Batch} (h : Follows ts a b) (ha : a' ≤ a) : Follows ts a' b := by
  obtain ⟨go, i, j, hgo, hstands⟩ := h
  exact ⟨go, i, j, Nat.le_trans ha hgo, hstands⟩

def Parted (ts : Terminals) (b c : Batch) : Prop := ∃ i j, Stands ts (.batch b) i j ∧ Follows ts j c

theorem laterBatch_covers {b? : Option Batch} (h : laterBatch ts pos = .ok (some b?, pos')) :
    Covers ts pos (b?.toList.flatMap Batch.statements) pos' ∧
      ∀ b ∈ b?, b.statements ≠ [] ∧ Follows ts pos b ∧ ∃ i j, j ≤ pos' ∧
        Stands ts (.batch b) i j := by
  obtain ⟨found, mid, hfound, h⟩ := bind_ok h
  cases found with
  | false => cases h
  | true =>
    obtain ⟨b?, last, hbatch, h⟩ := bind_ok h
    cases h
    obtain ⟨hgo, hseparator⟩ := separator_covers hfound
    obtain ⟨hlt, hmid⟩ := separator_true hfound
    obtain ⟨hcovers, hstands⟩ := batch_covers hmid hbatch
    refine ⟨hseparator.append hcovers, ?_⟩
    intro b hb
    obtain ⟨hne, i, j, hi, hj, hb⟩ := hstands b hb
    exact ⟨hne, ⟨pos, i, j, Nat.le_refl _, hgo, by omega, hb⟩, i, j, hj, hb⟩

/-- Each of the later batches stands behind a separator, also each that is not the first of them. -/
theorem laterBatches_cover {rest : List (Option Batch)} (h : ReadsAll laterBatch ts pos rest pos') :
    Covers ts pos ((rest.filterMap id).flatMap Batch.statements) pos' ∧
      (rest.filterMap id).Pairwise (Parted ts) ∧
      ∀ b ∈ rest.filterMap id, b.statements ≠ [] ∧ Follows ts pos b := by
  induction rest generalizing pos with
  | nil =>
    obtain rfl : pos = pos' := h
    exact ⟨.nil pos, .nil, nofun⟩
  | cons b? rest ih =>
    obtain ⟨next, hb, hlt, _, hrest⟩ := h
    obtain ⟨hcovers, hfirst⟩ := laterBatch_covers hb
    obtain ⟨hcovers', hparted, hlater⟩ := ih hrest
    -- what follows a later place follows `pos`
    have hafter : ∀ c ∈ rest.filterMap id, c.statements ≠ [] ∧ Follows ts pos c := by
      intro c hc
      exact ⟨(hlater c hc).1, (hlater c hc).2.mono (Nat.le_of_lt hlt)⟩
    cases b? with
    | none => exact ⟨hcovers.append hcovers', hparted, hafter⟩
    | some b =>
      obtain ⟨hne, hfollows, i, j, hj, hstands⟩ := hfirst b rfl
      refine ⟨by simpa using hcovers.append hcovers', .cons ?_ hparted, ?_⟩
      · intro c hc
        exact ⟨i, j, hstands, (hlater c hc).2.mono hj⟩
      · intro c hc
        rcases List.mem_cons.mp hc with rfl | hc
        · exact ⟨hne, hfollows⟩
        · exact hafter c hc

theorem script_covers {s : Script} (h : script ts 0 = .ok (s, pos)) :
    Covers ts 0 (s.batches.flatMap Batch.statements) ts.size ∧ s.batches.Pairwise (Parted ts) ∧
      ∀ b ∈ s.batches, b.statements ≠ [] := by
  obtain ⟨first, mid, rest, hfirst, hmid, hrest, hbatches⟩ := script_ok h
  obtain ⟨hcovers, hbegin⟩ := batch_covers (Nat.zero_le _) hfirst
  obtain ⟨hcovers', hparted, hlater⟩ := laterBatches_cover hrest
  rw [hbatches]
  cases first with
  | none => exact ⟨hcovers.append hcovers', hparted, fun b hb => (hlater b hb).1⟩
  | some b =>
    obtain ⟨hne, i, j, _, hj, hstands⟩ := hbegin b rfl
    refine ⟨by simpa using hcovers.append hcovers', .cons ?_ hparted, ?_⟩
    · intro c hc
      exact ⟨i, j, hstands, (hlater c hc).2.mono hj⟩
    · intro c hc
      rcases List.mem_cons.mp hc with rfl | hc
      · exact hne
      · exact (hlater c hc).1

end Grammar

/-! ## Documents -/

def Span.Holds (s : Span) (k : Nat) : Prop := s.firstToken ≤ k ∧ k ≤ s.lastToken

section
variable {ts : Terminals} (ho : ts.Ordered) {n : Node} {a b i : Nat} (h : Stands ts n a b) (hi : i < ts.size)
include ho h

theorem Stands.lt_firstToken_iff : ts[i].index < n.span.firstToken ↔ i < a := by
  obtain ⟨ha, _, hspan⟩ := h.cover ho
  rw [hspan]
  exact ho.index_lt_iff hi ha

theorem Stands.lastToken_lt_index_iff : n.span.lastToken < ts[i].index ↔ b ≤ i := by
  have hab := h.lt
  obtain ⟨_, hb, hspan⟩ := h.cover ho
  rw [hspan]
  refine (ho.index_lt_iff hb hi).trans ?_
  omega

theorem Stands.holds_iff : n.span.Holds ts[i].index ↔ a ≤ i ∧ i < b := by
  have hfirst := h.lt_firstToken_iff ho hi
  have hlast := h.lastToken_lt_index_iff ho hi
  unfold Span.Holds
  omega

end

/-- Of statements one after another at most one holds a token. -/
theorem eq_of_holds {xs : List Statement} (h : xs.Pairwise fun x y => x.span.lastToken < y.span.firstToken)
    {x y : Statement} (hx : x ∈ xs) (hy : y ∈ xs) {k : Nat} (hxk : x.span.Holds k) (hyk : y.span.Holds k) :
    x = y := by
  unfold Span.Holds at hxk hyk
  induction h with
  | nil => cases hx
  | cons hz _ ih =>
    cases hx with
    | head =>
      cases hy with
      | head => rfl
      | tail _ hy =>
        have := hz y hy
        omega
    | tail _ hx =>
      cases hy with
      | head =>
        have := hz x hx
        omega
      | tail _ hy => exact ih hx hy

namespace Document

def statements (d : Document) : List Statement := d.script.batches.flatMap Batch.statements

section
variable {sql : String} {d : Document} (h : parse sql = .ok d)
include h

theorem statements_pairwise : d.statements.Pairwise fun x y => x.span.lastToken < y.span.firstToken := by
  obtain ⟨_, pos, hscript⟩ := parse_ok h
  obtain ⟨hcovers, -⟩ := Grammar.script_covers hscript
  have hrow := (hcovers.row (Nat.le_refl _)).pairwise fun _ _ _ _ _ _ hm hn hjk =>
    (hm.last_lt_first_iff (terminals_ordered h) hn).mpr hjk
  exact List.pairwise_map.mp hrow

/-- A terminal that is not loose belongs to a statement. -/
theorem loose_or_held {i : Nat} (hi : i < d.terminals.size) :
    d.terminals.isLoose i = true ∨ ∃ x ∈ d.statements, x.span.Holds d.terminals[i].index := by
  obtain ⟨_, pos, hscript⟩ := parse_ok h
  obtain ⟨hcovers, -⟩ := Grammar.script_covers hscript
  rcases hcovers.loose_or_stands (Nat.zero_le i) hi with hloose | ⟨x, hx, j, k, hj, hk, hstands⟩
  · exact .inl hloose
  · exact .inr ⟨x, hx, (hstands.holds_iff (terminals_ordered h) hi).mpr ⟨hj, hk⟩⟩

theorem batches_parted : d.script.batches.Pairwise fun b c => ∃ (i : Nat) (hi : i < d.terminals.size),
    d.terminals.isSeparator i = true ∧ b.span.lastToken < d.terminals[i].index ∧
      d.terminals[i].index < c.span.firstToken := by
  have ho := terminals_ordered h
  obtain ⟨_, pos, hscript⟩ := parse_ok h
  obtain ⟨-, hparted, -⟩ := Grammar.script_covers hscript
  apply hparted.imp
  rintro b c ⟨_, j, hb, go, k, _, hj, hgo, hk, hc⟩
  have hi : go < d.terminals.size := by
    have hlt := hc.lt
    have hle := hc.le_size
    omega
  exact ⟨go, hi, hgo, (hb.lastToken_lt_index_iff ho hi).mpr hj, (hc.lt_firstToken_iff ho hi).mpr hk⟩

end

/-- No token is lost between the statements of a script. They follow one another, and a significant token that is
in none of them is a semicolon, a separator or its count. There is a separator between two batches, and
each batch has statements. -/
theorem statements_cover {sql : String} {d : Document} (h : parse sql = .ok d) :
    (d.statements.Pairwise fun x y => x.span.lastToken < y.span.firstToken) ∧
      (∀ k t, d.tokens[k]? = some t → t.isTrivia = false →
        (∃! x, x ∈ d.statements ∧ x.span.Holds k) ∨
          ∃ i, d.terminals[i]? = some ⟨t, k⟩ ∧ d.terminals.isLoose i = true) ∧
      (d.script.batches.Pairwise fun b c => ∃ (i : Nat) (hi : i < d.terminals.size),
        d.terminals.isSeparator i = true ∧ b.span.lastToken < d.terminals[i].index ∧
          d.terminals[i].index < c.span.firstToken) ∧
      ∀ b ∈ d.script.batches, b.statements ≠ [] := by
  have hpairwise := statements_pairwise h
  obtain ⟨_, pos, hscript⟩ := parse_ok h
  obtain ⟨-, -, hnonempty⟩ := Grammar.script_covers hscript
  refine ⟨hpairwise, ?_, batches_parted h, hnonempty⟩
  intro k t ht hsignificant
  have hmem : ⟨t, k⟩ ∈ d.terminals :=
    Array.mem_toList_iff.mp (Terminals.mem_ofTokens.mpr ⟨ht, hsignificant⟩)
  obtain ⟨i, hi, hterminal⟩ := Array.getElem_of_mem hmem
  rcases loose_or_held h hi with hloose | ⟨x, hx, hholds⟩
  · exact .inr ⟨i, hterminal ▸ Array.getElem?_eq_getElem hi, hloose⟩
  · rw [hterminal] at hholds
    exact .inl ⟨x, ⟨hx, hholds⟩, fun y hy => eq_of_holds hpairwise hy.1 hx hy.2 hholds⟩

/-- The statement after `IF` is looked past for an `ELSE` that is not there, the second batch is empty, and the body
of the procedure has semicolons of its own. -/
theorem statements_cover_procedure :
    let sql := ";IF 1 = 1 RETURN; ;PRINT 'a'\nGO 2\n;\nGO\nCREATE PROCEDURE p AS SELECT 2; SELECT 3;"
    ∃ d, parse sql = .ok d ∧ d.statements.map (fun x => (x.span.firstToken, x.span.lastToken)) =
        [(1, 9), (13, 15), (25, 41)] ∧
      (d.statements.Pairwise fun x y => x.span.lastToken < y.span.firstToken) ∧
      (∀ k t, d.tokens[k]? = some t → t.isTrivia = false →
        (∃! x, x ∈ d.statements ∧ x.span.Holds k) ∨
          ∃ i, d.terminals[i]? = some ⟨t, k⟩ ∧ d.terminals.isLoose i = true) ∧
      (d.script.batches.Pairwise fun b c => ∃ (i : Nat) (hi : i < d.terminals.size),
        d.terminals.isSeparator i = true ∧ b.span.lastToken < d.terminals[i].index ∧
          d.terminals[i].index < c.span.firstToken) ∧
      ∀ b ∈ d.script.batches, b.statements ≠ [] := by
  intro sql
  obtain ⟨d, hd, hspans⟩ : ∃ d ∈ (parse sql).toOption,
      d.statements.map (fun x => (x.span.firstToken, x.span.lastToken)) = [(1, 9), (13, 15), (25, 41)] := by
    decide +kernel
  have h := eq_ok_of_mem_toOption hd
  exact ⟨d, h, hspans, statements_cover h⟩

end Document

end TransactLint
