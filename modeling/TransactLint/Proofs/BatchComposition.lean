import TransactLint.Proofs.Excerpt.Statement
import TransactLint.Proofs.Junction
import TransactLint.Proofs.Relocation.Agreement
import TransactLint.Proofs.TriviaNoninterference

/-!
# Batches compose

A script that ends with a semicolon outside of parentheses, a line `GO` and another script have together
the batches of the one and of the other. The first is a closed excerpt of the whole, and the second stands
in it as it stands alone, further down.
-/

namespace TransactLint

/-! ## Two scripts in one -/

namespace Displacement

def span (k : Displacement) (s : Span) : Span :=
  ⟨k.location s.start, s.firstToken + k.tokens, s.lastToken + k.tokens, s.offset + k.bytes, s.length⟩

/-- A displacement of spans that leaves the span of nothing where it is, as one past the last terminal is. -/
def move (k : Displacement) (s : Span) : Span := if s = .empty then .empty else k.span s

end Displacement

theorem Span.ne_empty {s : Span} (h : Location.origin ≤ s.start) : s ≠ .empty := by
  rintro rfl
  exact absurd h (by decide)

namespace Terminals

theorem cover_displace (k : Displacement) (first last : Terminal) :
    k.span (cover first last) = cover (k.terminal first) (k.terminal last) := by
  simp only [Displacement.span, cover, Displacement.terminal, Displacement.token, Token.stop, Span.mk.injEq,
    true_and]
  omega

theorem Ordered.move_span {ts : Terminals} (ho : ts.Ordered) (k : Displacement) {a : Nat} (ha : a < ts.size)
    (b : Nat) : k.move (ts.span a b) = k.span (ts.span a b) := by
  have hne : ts.span a b ≠ .empty := by
    rw [ho.span_eq_cover ha (lastPosition_lt ha)]
    exact Span.ne_empty (ho.placed_at ha).2
  rw [Displacement.move, if_neg hne]

variable {ts ts₂ all : Terminals} {go : Terminal} {k : Displacement}

namespace Joined

variable (h : Joined ts ts₂ all go k)
include h

theorem getElem?_eq (i : Nat) : all[i]? = (ts.toList ++ go :: ts₂.toList.map k.terminal)[i]? := by
  rw [← h.toList, Array.getElem?_toList]

theorem size_eq : all.size = ts₂.size + (ts.size + 1) := by
  rw [← Array.length_toList, h.toList]
  simp
  omega

theorem getElem?_first {i : Nat} {x : Terminal} (hx : ts[i]? = some x) : all[i]? = some x := by
  rw [← Array.getElem?_toList] at hx
  have hi := (List.getElem?_eq_some_iff.mp hx).1
  rw [h.getElem?_eq, List.getElem?_append_left hi, hx]

theorem getElem?_go : all[ts.size]? = some go := by
  simp [h.getElem?_eq]

theorem getElem?_second (i : Nat) : all[i + (ts.size + 1)]? = ts₂[i]?.map k.terminal := by
  have hi : i + (ts.size + 1) - ts.toList.length = i + 1 := by
    simp
    omega
  rw [h.getElem?_eq, List.getElem?_append_right (by simp; omega), hi]
  simp

theorem isSeparator_go : all.isSeparator ts.size = true := by
  have hgo : all.token? ts.size = some go.token := by rw [token?, h.getElem?_go]; rfl
  simp only [isSeparator, hgo, h.kind, h.word, beq_self_eq_true, Bool.true_and]
  cases hlast : all.last? ts.size with
  | none => rfl
  | some before =>
    obtain ⟨n, hn⟩ : ∃ n, ts.size = n + 1 := ⟨ts.size - 1, by
      rcases Nat.eq_zero_or_pos ts.size with hzero | hpos
      · simp [hzero, last?] at hlast
      · omega⟩
    have hlt : n < ts.size := by omega
    rw [hn, last?, h.getElem?_first (Array.getElem?_eq_getElem hlt)] at hlast
    cases hlast
    exact decide_eq_true (h.below _ (by simp))

/-- The first script is an excerpt of the whole, for the second does not begin with a period. -/
def excerpt (hperiod : ts₂.isKind 0 .period = false) : Excerpt ts all where
  shift := 0
  get := h.getElem?_first
  ends _ := .inr h.isSeparator_go
  after _ := by
    have hnext := h.getElem?_second 0
    rw [Nat.zero_add] at hnext
    rw [Nat.add_zero, isKind, token?, hnext]
    rw [isKind, token?] at hperiod
    cases hfirst : ts₂[0]? with
    | none => rfl
    | some x =>
      rw [hfirst] at hperiod
      exact hperiod

theorem token?_second {pos : Nat} {t : Token} (ht : ts₂.token? pos = some t) :
    all.token? (pos + (ts.size + 1)) = some (k.token t) := by
  obtain ⟨x, hx, rfl⟩ := Option.map_eq_some_iff.mp ht
  rw [token?, h.getElem?_second, hx]
  rfl

theorem last?_second {pos : Nat} {before : Terminal} (hbefore : ts₂.last? pos = some before) :
    all.last? (pos + (ts.size + 1)) = some (k.terminal before) := by
  cases pos with
  | zero => cases hbefore
  | succ pos =>
    rw [Nat.add_right_comm, last?, h.getElem?_second]
    rw [last?] at hbefore
    rw [hbefore]
    rfl

theorem token?_none {pos : Nat} (ht : ts₂.token? pos = none) : all.token? (pos + (ts.size + 1)) = none := by
  rw [token?, h.getElem?_second]
  rw [token?, Option.map_eq_none_iff] at ht
  rw [ht]
  rfl

/-- The first terminal of the second script begins on a later line than the separator. -/
theorem first_line {t : Token} (ht : ts₂.token? 0 = some t) : go.token.start.line < (k.token t).start.line := by
  obtain ⟨x, hx, rfl⟩ := Option.map_eq_some_iff.mp ht
  exact h.above x (Array.mem_toList_iff.mpr (Array.mem_of_getElem? hx))

theorem onSameLine_second (pos : Nat) : all.onSameLine (pos + (ts.size + 1)) = ts₂.onSameLine pos := by
  unfold onSameLine
  cases ht : ts₂.token? pos with
  | none =>
    rw [h.token?_none ht]
    cases ts₂.last? pos <;> cases all.last? (pos + (ts.size + 1)) <;> rfl
  | some t =>
    rw [h.token?_second ht]
    cases hlast : ts₂.last? pos with
    | some before =>
      rw [h.last?_second hlast]
      simp [Displacement.terminal, Displacement.token, Displacement.location]
    | none =>
      cases pos with
      | zero =>
        -- the first terminal of the second text stands on a later line than the separator
        have hline := h.first_line ht
        rw [Nat.zero_add, last?, h.getElem?_go]
        simp
        omega
      | succ pos =>
        have hlt := Parser.token?_isSome (by rw [ht]; rfl)
        rw [last?, Array.getElem?_eq_getElem (by omega)] at hlast
        cases hlast

variable (ho₂ : ts₂.Ordered) (ho : all.Ordered)
include ho₂ ho

theorem isSeparator_second (pos : Nat) : all.isSeparator (pos + (ts.size + 1)) = ts₂.isSeparator pos := by
  rw [ho.isSeparator_eq, ho₂.isSeparator_eq, h.onSameLine_second]
  cases ht : ts₂.token? pos with
  | none => rw [h.token?_none ht]
  | some t =>
    rw [h.token?_second ht]
    rfl

theorem span_second (a b : Nat) :
    k.move (ts₂.span a b) = all.span (a + (ts.size + 1)) (b + (ts.size + 1)) := by
  have hsize := h.size_eq
  by_cases ha : a < ts₂.size
  · have hlast : lastPosition ts₂.size a b < ts₂.size := lastPosition_lt ha
    have hmoved : lastPosition all.size (a + (ts.size + 1)) (b + (ts.size + 1)) =
        lastPosition ts₂.size a b + (ts.size + 1) := by
      unfold lastPosition
      split <;> split <;> omega
    have hget : ∀ {i : Nat} (hi : i < ts₂.size) (hi' : i + (ts.size + 1) < all.size),
        all[i + (ts.size + 1)] = k.terminal ts₂[i] := by
      intro i hi hi'
      have hi'' := h.getElem?_second i
      rw [Array.getElem?_eq_getElem hi', Array.getElem?_eq_getElem hi] at hi''
      exact Option.some.inj hi''
    rw [ho₂.move_span k ha, ho₂.span_eq_cover ha hlast, ho.span_eq_cover (by omega) (by omega)]
    simp only [hmoved]
    rw [hget ha, hget hlast]
    exact cover_displace k _ _
  · rw [span_of_size_le b (by omega), span_of_size_le _ (by omega)]
    rfl

def relocation : Relocation ts₂ all where
  shift := ts.size + 1
  move := k.move
  size_eq := h.size_eq
  token ht := ⟨_, h.token?_second ht, rfl, rfl, rfl⟩
  onSameLine := h.onSameLine_second
  isSeparator := h.isSeparator_second ho₂ ho
  span := h.span_second ho₂ ho

end Joined

end Terminals

/-! ## Scripts -/

namespace Grammar

open TransactLint.Parser

variable {ts ts' : Terminals} {pos pos' : Nat}

def laterBatch : Parser (Option (Option Batch)) := optionIf separator (batch (level nestingLimit))

theorem separator_true (h : separator ts pos = .ok (true, pos')) : pos < pos' ∧ pos' ≤ ts.size := by
  rw [separator, bind_look] at h
  split at h
  · rename_i hseparator
    obtain ⟨t, ht, _⟩ := Terminals.isSeparator_token hseparator
    have hlt := token?_isSome (by rw [ht]; rfl)
    rw [bind_of_ok (skip_of_lt hlt), bind_look] at h
    split at h
    · rename_i hcount
      have hlt' := isKind_lt (Bool.and_eq_true_iff.mp hcount).1
      rw [bind_of_ok (skip_of_lt hlt')] at h
      cases h
      omega
    · cases h
      omega
  · cases h

theorem separator_false (h : separator ts pos = .ok (false, pos')) : pos' = pos := by
  rw [separator, bind_look] at h
  split at h
  · obtain ⟨_, mid, _, h⟩ := bind_ok h
    rw [bind_look] at h
    split at h
    · obtain ⟨_, _, _, h⟩ := bind_ok h
      cases h
    · cases h
  · cases h
    rfl

theorem batch_le {first : Option Batch} (hpos : pos ≤ ts.size)
    (h : batch (level nestingLimit) ts pos = .ok (first, pos')) :
    pos ≤ pos' ∧ pos' ≤ ts.size :=
  (batch_reads (level_reads nestingLimit) pos _ _ _ (.none (Nat.le_refl _) hpos) h).le

theorem laterBatch_some {batch? : Option Batch} (h : laterBatch ts pos = .ok (some batch?, pos')) :
    pos < pos' ∧ pos' ≤ ts.size := by
  obtain ⟨found, mid, hfound, h⟩ := bind_ok h
  cases found with
  | false => cases h
  | true =>
    obtain ⟨b, last, hbatch, h⟩ := bind_ok h
    cases h
    obtain ⟨hlt, hsize⟩ := separator_true hfound
    obtain ⟨hle, hsize'⟩ := batch_le hsize hbatch
    exact ⟨by omega, hsize'⟩

theorem laterBatch_none (h : laterBatch ts pos = .ok (none, pos')) : pos' = pos := by
  obtain ⟨found, mid, hfound, h⟩ := bind_ok h
  cases found with
  | false =>
    cases h
    exact separator_false hfound
  | true =>
    obtain ⟨b, last, hbatch, h⟩ := bind_ok h
    cases h

theorem laterBatch_at_end : laterBatch ts ts.size = .ok (none, ts.size) := by
  have hnone : ts.isSeparator ts.size = false := by
    rw [Terminals.isSeparator, Terminals.token?_of_le (Nat.le_refl _)]
  refine optionIf_of_not ?_
  rw [separator, bind_look, hnone]
  rfl

theorem script_ok {s : Script} (h : script ts 0 = .ok (s, pos)) :
    ∃ first mid rest, batch (level nestingLimit) ts 0 = .ok (first, mid) ∧ mid ≤ ts.size ∧
      ReadsAll laterBatch ts mid rest ts.size ∧ s.batches = (first :: rest).filterMap id := by
  obtain ⟨start, _, hstart, h⟩ := bind_ok h
  cases hstart
  obtain ⟨first, mid, hfirst, h⟩ := bind_ok h
  obtain ⟨rest, last, hrest, h⟩ := bind_ok h
  obtain ⟨hle, hmid⟩ := batch_le (Nat.zero_le _) hfirst
  obtain ⟨stop, hall, hstop⟩ := readsAll_of_many (fun _ _ _ h => laterBatch_some h) hrest
  obtain rfl := laterBatch_none hstop
  rw [atEnd, bind_look] at h
  split at h
  · rename_i hend
    obtain rfl : last = ts.size := Nat.le_antisymm (hall.le_size hmid) (by simpa using hend)
    obtain ⟨span, _, hspan, h⟩ := bind_ok h
    cases h
    exact ⟨first, mid, rest, hfirst, hmid, hall, rfl⟩
  · exact absurd h failExpected_ne_ok

theorem script_of_batches {first : Option Batch} {mid : Nat} {rest : List (Option Batch)}
    (hfirst : batch (level nestingLimit) ts 0 = .ok (first, mid))
    (hrest : ReadsAll laterBatch ts mid rest ts.size) :
    script ts 0 = .ok (⟨(first :: rest).filterMap id, ts.span 0 ts.size⟩, ts.size) := by
  have hmany : many (optionIf separator (batch (level nestingLimit))) ts mid = .ok (rest, ts.size) :=
    many_of_readsAll hrest laterBatch_at_end
  rw [script, position, bind_look, bind_of_ok hfirst, bind_of_ok hmany, atEnd, bind_look,
    if_pos (by simp), spanFrom, bind_look]
  rfl

/-! ## The first script -/

section
variable {ρ : Excerpt ts ts'} (hρ : ρ.Closed) {base limit : Nat}
include hρ

/-- A batch that reads nothing has no statements, and then its span does not matter. -/
theorem batch_persists (n : Nat) : Persists ρ base limit (batch (level n)) (batch (level n)) fun _ => false := by
  intro start _ h pos' b hb
  rw [batch, position, bind_look] at hb
  obtain ⟨statements, mid, hstatements, hb⟩ := bind_ok hb
  rw [spanFrom, bind_look] at hb
  cases hb
  have hpersists : PersistsAt ρ limit start (statementList (level n) false) (statementList (level n) false)
      fun _ => false :=
    (statementList_persists hρ (level_continues hρ n) false).here h
  have hkept := hpersists pos' statements hstatements
  refine ⟨hkept.le, hkept.size, fun howed => absurd howed Bool.false_ne_true, fun hlimit => ?_⟩
  rw [batch, position, bind_look, bind_of_ok (hkept.same hlimit), spanFrom, bind_look]
  by_cases hnil : statements = []
  · rw [hnil]
    rfl
  · obtain ⟨ns, hperm, hrow⟩ :=
      (statementList_reads (level_reads n) false start _ _ _ (.none (Nat.le_refl _) h) hstatements).row
    have hlt : start < pos' := hrow.lt_of_ne_nil fun hns => hnil (by simpa [hns] using hperm.symm)
    rw [ρ.span_eq hlt hkept.size]
    rfl

theorem separator_persistsAt (h : pos < ts.size) : PersistsAt ρ limit pos separator separator id := by
  refine .look (hρ.isSeparator_eq h) (.ite (fun _ => ?_) fun _ => .pure (Nat.le_of_lt h) rfl)
  refine (skip_persistsAt h).then fun _ => .ifLook (fun pos _ h => ?_) (fun pos _ hcount => ?_) (.pure rfl)
  · exact and_eq_and (ρ.isKind_eq h (by decide)) fun hnumber => hρ.onSameLine_eq (isKind_lt hnumber)
  · have hlt := isKind_lt (Bool.and_eq_true_iff.mp hcount).1
    exact (skip_persistsAt hlt).then fun _ => .pure rfl

theorem laterBatch_persistsAt (h : pos < ts.size) :
    PersistsAt ρ limit pos laterBatch laterBatch Option.isSome := by
  refine (separator_persistsAt hρ h).bind fun found mid _ hsize _ => ?_
  cases found with
  | true => exact Persists.here ((batch_persists hρ _).bind fun _ => .pure rfl) hsize
  | false => exact .pure hsize rfl

theorem readsAll_persists {rest : List (Option Batch)} {mid : Nat} (h : ReadsAll laterBatch ts pos rest mid) :
    ReadsAll laterBatch ts' (pos + ρ.shift) rest (mid + ρ.shift) := by
  induction rest generalizing pos with
  | nil =>
    obtain rfl : pos = mid := h
    rfl
  | cons b rest ih =>
    obtain ⟨next, hb, hlt, hsize, hrest⟩ := h
    have hpersists : PersistsAt ρ ts.size pos laterBatch laterBatch Option.isSome :=
      laterBatch_persistsAt hρ (by omega)
    have hkept := hpersists _ _ hb
    have hin := ρ.lt_size (show next - 1 < ts.size by omega)
    exact ⟨next + ρ.shift, hkept.same hsize, by omega, by omega, ih hrest⟩

end

/-! ## The second script -/

section
variable {ts₂ : Terminals} (ρ : Relocation ts₂ ts')

theorem batch_relocates {b? : Option Batch} (h : batch (level nestingLimit) ts₂ pos = .ok (b?, pos')) :
    batch (level nestingLimit) ts' (pos + ρ.shift) = .ok (mapSpans ρ.move b?, pos' + ρ.shift) := by
  have hmirrors : ρ.Outcome (batch (level nestingLimit) ts₂ pos)
      (batch (level nestingLimit) ts' (pos + ρ.shift)) :=
    batch_mirrors (level_mirrors nestingLimit) pos
  rw [h] at hmirrors
  generalize batch (level nestingLimit) ts' (pos + ρ.shift) = r at *
  cases hmirrors
  rfl

theorem laterBatch_relocates {b? : Option Batch} (h : laterBatch ts₂ pos = .ok (some b?, pos')) :
    laterBatch ts' (pos + ρ.shift) = .ok (some (mapSpans ρ.move b?), pos' + ρ.shift) := by
  have hmirrors : ρ.Outcome (laterBatch ts₂ pos) (laterBatch ts' (pos + ρ.shift)) :=
    Mirrors.optionIf separator_mirrors (batch_mirrors (level_mirrors nestingLimit)) pos
  rw [h] at hmirrors
  generalize laterBatch ts' (pos + ρ.shift) = r at *
  cases hmirrors
  rfl

theorem readsAll_relocates {rest : List (Option Batch)} {mid : Nat} (h : ReadsAll laterBatch ts₂ pos rest mid) :
    ReadsAll laterBatch ts' (pos + ρ.shift) (mapSpans ρ.move rest) (mid + ρ.shift) := by
  have hsize := ρ.size_eq
  induction rest generalizing pos with
  | nil =>
    obtain rfl : pos = mid := h
    rfl
  | cons b rest ih =>
    obtain ⟨next, hb, hlt, hnext, hrest⟩ := h
    exact ⟨next + ρ.shift, laterBatch_relocates ρ hb, by omega, by omega, ih hrest⟩

end

/-- No batch begins with a period. -/
theorem not_period_of_batch {b? : Option Batch} (h : batch (level nestingLimit) ts 0 = .ok (b?, pos)) :
    ts.isKind 0 .period = false := by
  by_contra hperiod
  obtain ⟨t, ht, hkind⟩ := Terminals.isKind_iff.mp (Bool.not_eq_false _ ▸ hperiod)
  have hsemicolons : repeatWhile (consume .semicolon) ts 0 = .ok ((), 0) := by
    refine iterate_of_none ?_
    rw [bind_of_ok (consume_of_not (by simp [Terminals.isKind, ht, hkind]))]
    rfl
  -- neither a semicolon nor a statement begins with the period, so the first round fails
  have hstatement : ∀ r, (level nestingLimit).statement ts 0 ≠ .ok r := by
    rintro ⟨x, last⟩ hx
    obtain ⟨kind, hkindRead, -⟩ := spanned_ok hx
    rw [current, bind_look, ht] at hkindRead
    simp only [statementKind, hkind] at hkindRead
    unfold failUnsupported at hkindRead
    simp only [ht] at hkindRead
    cases hkindRead
  rw [batch, position, bind_look] at h
  obtain ⟨statements, _, hstatements, -⟩ := bind_ok h
  obtain ⟨found, _, hfound, -⟩ := bind_ok hstatements
  obtain ⟨⟨next, last⟩, hround⟩ := step_of_iterate hfound
  obtain ⟨x?, _, hitem, -⟩ := bind_ok hround
  rw [bind_of_ok hsemicolons, bind_look] at hitem
  have hgoes : (decide (ts.size ≤ 0) || ts.isSeparator 0 || (false && ts.isKeyword 0 .END)) = false := by
    have hlt := token?_isSome (by rw [ht]; rfl)
    rw [decide_eq_false (by omega)]
    simp [Terminals.isSeparator, ht, hkind]
  rw [hgoes] at hitem
  obtain ⟨c, _, hc, hitem⟩ := bind_ok hitem
  cases hc
  obtain ⟨x, _, hx, -⟩ := bind_ok hitem
  exact hstatement _ hx

/-! ## Both -/

/-- No span in a script is the span of nothing, unless the script is empty. -/
theorem map_move_batches (ho : ts.Ordered) {s : Script} (h : script ts 0 = .ok (s, pos)) (k : Displacement) :
    s.batches.map (mapSpans k.move) = s.batches.map (mapSpans k.span) := by
  rcases script_stands h with ⟨_, rfl⟩ | hstands
  · rfl
  · have hsame : (Node.script s).relocate k.move = (Node.script s).relocate k.span :=
      hstands.relocate_congr fun hab hb => ho.move_span k (by omega) _
    exact congrArg Script.batches (Node.script.inj hsame)

open Terminals in
/-- The separator that joins two texts, and the first batch of the second one after it. -/
theorem laterBatch_joined {ts₂ all : Terminals} {go : Terminal} {k : Displacement}
    {first : Option Batch} {mid : Nat} (hjoin : Joined ts ts₂ all go k) (ho₂ : ts₂.Ordered) (ho : all.Ordered)
    (h : batch (level nestingLimit) ts₂ 0 = .ok (first, mid)) :
    laterBatch all ts.size = .ok (some (mapSpans k.move first), mid + (ts.size + 1)) := by
  have hsize := hjoin.size_eq
  have hline : all.onSameLine (ts.size + 1) = false := by
    rw [← Nat.zero_add (ts.size + 1), hjoin.onSameLine_second]
    rfl
  have hseparator : separator all ts.size = .ok (true, ts.size + 1) := by
    rw [separator, bind_look, if_pos hjoin.isSeparator_go, bind_of_ok (skip_of_lt (by omega)), bind_look,
      if_neg (by simp [hline])]
    rfl
  have hbatch : batch (level nestingLimit) all (0 + (ts.size + 1)) =
      .ok (mapSpans k.move first, mid + (ts.size + 1)) := batch_relocates (hjoin.relocation ho₂ ho) h
  rw [Nat.zero_add] at hbatch
  rw [laterBatch, optionIf, bind_of_ok hseparator, if_pos rfl, bind_of_ok hbatch]
  rfl

open Terminals in
/-- The batches of two scripts that are joined. -/
theorem script_joined {ts₂ all : Terminals} {go : Terminal} {k : Displacement} {s s₂ : Script} {pos₂ : Nat}
    (hjoin : Joined ts ts₂ all go k) (ho₂ : ts₂.Ordered) (ho : all.Ordered)
    (hsemicolon : ts.isKind (ts.size - 1) .semicolon = true) (hparens : ts.openParens ts.size = 0)
    (h : script ts 0 = .ok (s, pos)) (h₂ : script ts₂ 0 = .ok (s₂, pos₂)) :
    script all 0 = .ok (⟨s.batches ++ s₂.batches.map (mapSpans k.span), all.span 0 all.size⟩, all.size) := by
  obtain ⟨first, mid, rest, hfirst, hmid, hrest, hbatches⟩ := script_ok h
  obtain ⟨first₂, mid₂, rest₂, hfirst₂, hmid₂, hrest₂, hbatches₂⟩ := script_ok h₂
  -- the first text is a closed excerpt of both, the second one is moved behind the separator
  let ρ := hjoin.excerpt (not_period_of_batch hfirst₂)
  have hρ : ρ.Closed := ⟨rfl, hjoin.isSeparator_go, hsemicolon, hparens⟩
  let σ := hjoin.relocation ho₂ ho
  have hbegin : batch (level nestingLimit) all 0 = .ok (first, mid) := by
    have hpersists : PersistsAt ρ ts.size 0 (batch (level nestingLimit)) (batch (level nestingLimit))
        fun _ => false :=
      (batch_persists hρ nestingLimit).here (Nat.zero_le _)
    exact (hpersists _ _ hfirst).same hmid
  have hmiddle : ReadsAll laterBatch all mid rest ts.size := readsAll_persists hρ hrest
  have hsize := hjoin.size_eq
  have hnext := laterBatch_joined hjoin ho₂ ho hfirst₂
  have hend : ReadsAll laterBatch all (mid₂ + (ts.size + 1)) (mapSpans k.move rest₂) all.size := by
    rw [hsize]
    exact readsAll_relocates σ hrest₂
  have hall : ReadsAll laterBatch all mid (rest ++ mapSpans k.move (first₂ :: rest₂)) all.size :=
    hmiddle.append ⟨mid₂ + (ts.size + 1), hnext, by omega, by omega, hend⟩
  have hmoved : (mapSpans k.move (first₂ :: rest₂)).filterMap id =
      ((first₂ :: rest₂).filterMap id).map (mapSpans k.move) := by
    rw [List.map_filterMap, mapSpans_list, List.filterMap_map]
    rfl
  rw [script_of_batches hbegin hall, ← List.cons_append, List.filterMap_append, hmoved,
    ← hbatches, ← hbatches₂, map_move_batches ho₂ h₂]

end Grammar

/-! ## Documents -/

theorem Parser.parenDepth_trivia {kind : TokenKind} (h : kind.isTrivia = true) (depth : Nat) :
    parenDepth depth kind = depth := by
  cases kind with
  | blank | comment => rfl
  | _ => cases h

namespace Terminals

theorem map_token_ofTokens (tokens : List Token) :
    (ofTokens tokens).toList.map Terminal.token = tokens.filter fun t => !t.isTrivia := by
  have hmap : ∀ n, (significant n tokens).map Terminal.token = tokens.filter fun t => !t.isTrivia := by
    induction tokens with
    | nil => exact fun _ => rfl
    | cons t tokens ih =>
      intro n
      cases h : t.isTrivia with
      | true => rw [significant_cons_trivia h, ih, List.filter_cons_of_neg (by simp [h])]
      | false => rw [significant_cons h, List.map_cons, ih, List.filter_cons_of_pos (by simp [h])]
  exact hmap 0

theorem openParens_ofTokens (tokens : List Token) :
    (ofTokens tokens).openParens (ofTokens tokens).size =
      tokens.foldl (fun depth t => Parser.parenDepth depth t.kind) 0 := by
  have hfold : (ofTokens tokens).openParens (ofTokens tokens).size =
      ((ofTokens tokens).toList.map Terminal.token).foldl (fun depth t => Parser.parenDepth depth t.kind) 0 := by
    rw [openParens, ← Array.length_toList, List.take_length, List.foldl_map]
  rw [hfold, map_token_ofTokens, List.foldl_filter]
  congr 1
  funext depth t
  split
  · rfl
  · rename_i htrivia
    have ht : t.isTrivia = true := by simpa using htrivia
    exact (Parser.parenDepth_trivia ht depth).symm

theorem isKind_last {tokens : List Token} {kind : TokenKind}
    (h : (tokens.filter fun t => !t.isTrivia).getLast?.map Token.kind = some kind) :
    (ofTokens tokens).isKind ((ofTokens tokens).size - 1) kind = true := by
  obtain ⟨t, ht, rfl⟩ := Option.map_eq_some_iff.mp h
  rw [← map_token_ofTokens, List.getLast?_eq_getElem?, List.length_map, List.getElem?_map] at ht
  refine isKind_iff.mpr ⟨t, ?_, rfl⟩
  rw [token?, ← Array.getElem?_toList]
  exact ht

end Terminals

namespace Document

/-- A script that ends with a semicolon and leaves no parenthesis open, a line `GO` and another script
have the batches of both, those of the second displaced. -/
theorem batches_compose {a b : String} {d d₂ : Document} (h : parse a = .ok d) (h₂ : parse b = .ok d₂)
    (hlast : (d.tokens.filter fun t => !t.isTrivia).getLast?.map Token.kind = some .semicolon)
    (hparens : d.tokens.foldl (fun depth t => Parser.parenDepth depth t.kind) 0 = 0) :
    ∃ whole k, parse (a ++ "\nGO\n" ++ b) = .ok whole ∧
      whole.script.batches = d.script.batches ++ d₂.script.batches.map (mapSpans (Displacement.span k)) := by
  obtain ⟨htokens, pos, hscript⟩ := parse_ok h
  obtain ⟨htokens₂, pos₂, hscript₂⟩ := parse_ok h₂
  have hclosed : Scans.EndsClosed d.tokens := by
    intro t ht
    rw [Option.mem_def.mp ht] at hlast
    exact Option.some.inj hlast
  obtain ⟨all, go, k, hall, hjoin⟩ := tokenize_join htokens htokens₂ hclosed
  have hparse := Grammar.script_joined hjoin (terminals_ordered h₂) (Terminals.ordered_of_tokenize hall)
    (Terminals.isKind_last hlast) ((Terminals.openParens_ofTokens d.tokens).trans hparens) hscript hscript₂
  have hwhole := parse_of_tokenize hall
  rw [hparse] at hwhole
  exact ⟨_, k, hwhole, rfl⟩

/-- The semicolon stands inside what is skipped, and a comment without a line break follows it. The second
script has two batches of its own. -/
theorem batches_compose_comment :
    let a := "EXEC p @x\nALTER TABLE t NOCHECK (c) ; -- closed"
    let b := "SELECT @v v\nGO 2\nIF 1 = 1 RETURN"
    ∃ d d₂ whole k, parse a = .ok d ∧ parse b = .ok d₂ ∧
      (d.tokens.filter fun t => !t.isTrivia).getLast?.map Token.kind = some .semicolon ∧
      d.tokens.foldl (fun depth t => Parser.parenDepth depth t.kind) 0 = 0 ∧
      parse (a ++ "\nGO\n" ++ b) = .ok whole ∧
      whole.script.batches = d.script.batches ++ d₂.script.batches.map (mapSpans (Displacement.span k)) ∧
      whole.script.batches.length = 3 := by
  intro a b
  obtain ⟨d, hd, hlast, hparens, hlength⟩ : ∃ d ∈ (parse a).toOption,
      (d.tokens.filter fun t => !t.isTrivia).getLast?.map Token.kind = some .semicolon ∧
      d.tokens.foldl (fun depth t => Parser.parenDepth depth t.kind) 0 = 0 ∧ d.script.batches.length = 1 := by
    decide +kernel
  obtain ⟨d₂, hd₂, hlength₂⟩ : ∃ d₂ ∈ (parse b).toOption, d₂.script.batches.length = 2 := by
    decide +kernel
  have h := eq_ok_of_mem_toOption hd
  have h₂ := eq_ok_of_mem_toOption hd₂
  obtain ⟨whole, k, hparse, hbatches⟩ := batches_compose h h₂ hlast hparens
  refine ⟨d, d₂, whole, k, h, h₂, hlast, hparens, hparse, hbatches, ?_⟩
  rw [hbatches, List.length_append, List.length_map, hlength, hlength₂]

end Document

end TransactLint
