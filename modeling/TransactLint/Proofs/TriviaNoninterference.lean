import TransactLint.Proofs.Relocation.Rule

/-!
# Blanks and comments do not matter

Two scripts whose significant tokens are the same, with line breaks before the same of them, have the
same tree up to places or fail at the same token, and every rule finds the same in both.
-/

namespace TransactLint

namespace Terminals

variable {ts ts' : Terminals}

/-- The terminals are the same but for their places, and each begins on the line of the one before it
in both scripts or in neither. -/
@[mk_iff]
structure SameButTrivia (ts ts' : Terminals) : Prop where
  size_eq : ts'.size = ts.size
  alike : ∀ i (_ : i < ts.size) (_ : i < ts'.size), ts[i].token.Alike ts'[i].token
  line : ∀ i (_ : i < ts.size) (_ : i < ts'.size), 1 ≤ i →
    (ts[i].token.start.line = ts[i - 1].token.start.line ↔
      ts'[i].token.start.line = ts'[i - 1].token.start.line)

instance (t t' : Token) : Decidable (t.Alike t') :=
  decidable_of_iff (t'.kind = t.kind ∧ t'.text = t.text ∧ t'.value = t.value)
    ⟨fun h => ⟨h.1, h.2.1, h.2.2⟩, fun h => ⟨h.kind, h.text, h.value⟩⟩

instance (ts ts' : Terminals) : Decidable (ts.SameButTrivia ts') :=
  decidable_of_iff _ (sameButTrivia_iff ts ts').symm

def counterpart? (ts ts' : Terminals) (index : Nat) : Option Terminal :=
  (ts.positionOf? index).bind fun pos => ts'[pos]?

def carry (ts ts' : Terminals) (s : Span) : Span :=
  if s.length = 0 then s
  else
    match ts.counterpart? ts' s.firstToken, ts.counterpart? ts' s.lastToken with
    | some first, some last => cover first last
    | _, _ => .empty

section
variable (ho : ts.Ordered)
include ho

theorem Ordered.counterpart?_index {i : Nat} (hi : i < ts.size) : ts.counterpart? ts' ts[i].index = ts'[i]? := by
  rw [counterpart?, ho.positionOf?_index hi]
  rfl

end

def lastPosition (size a b : Nat) : Nat := if a < b ∧ b ≤ size then b - 1 else a

theorem le_lastPosition (size a b : Nat) : a ≤ lastPosition size a b := by
  unfold lastPosition
  split <;> omega

theorem lastPosition_lt {size a b : Nat} (ha : a < size) : lastPosition size a b < size := by
  unfold lastPosition
  split <;> omega

section
variable (ho : ts.Ordered)
include ho

theorem Ordered.span_eq_cover {a b : Nat} (ha : a < ts.size) (hlast : lastPosition ts.size a b < ts.size) :
    ts.span a b = cover ts[a] ts[lastPosition ts.size a b] := by
  have hfirst : ts[a]? = some ts[a] := Array.getElem?_eq_getElem ha
  by_cases hab : a < b ∧ b ≤ ts.size
  · simp only [lastPosition, if_pos hab]
    exact ho.span_eq hab.1 hab.2
  · simp only [lastPosition, if_neg hab, span, hfirst]
    cases hb : ts.last? b with
    | none => rfl
    | some last =>
      obtain _ | k := b
      · cases hb
      · obtain ⟨hk, rfl⟩ := Array.getElem?_eq_some_iff.mp hb
        have hlt := (ho.index_lt_iff hk ha).mpr (by omega)
        exact if_neg (by omega)

omit ho in
theorem span_of_size_le {a : Nat} (b : Nat) (ha : ts.size ≤ a) : ts.span a b = .empty := by
  rw [span, Array.getElem?_eq_none ha]

variable (ho' : ts'.Ordered) (hsize : ts'.size = ts.size)
include ho' hsize

theorem carry_span (a b : Nat) : ts.carry ts' (ts.span a b) = ts'.span a b := by
  by_cases ha : a < ts.size
  · have hlast : lastPosition ts.size a b < ts.size := lastPosition_lt ha
    have hlength : (cover ts[a] ts[lastPosition ts.size a b]).length ≠ 0 := by
      have hlt := ho.offset_lt_stop (le_lastPosition ts.size a b) hlast
      simp only [cover]
      omega
    have hfirst' : ts'[a]? = some ts'[a] := Array.getElem?_eq_getElem (by omega)
    have hlast' : ts'[lastPosition ts.size a b]? = some ts'[lastPosition ts.size a b] :=
      Array.getElem?_eq_getElem (by omega)
    rw [ho.span_eq_cover ha hlast, carry, if_neg hlength]
    simp only [cover, ho.counterpart?_index ha, ho.counterpart?_index hlast, hfirst', hlast']
    rw [ho'.span_eq_cover (by omega) (by rw [hsize]; omega)]
    simp only [hsize]
    rfl
  · rw [span_of_size_le b (by omega), span_of_size_le b (by omega)]
    rfl

end

/-! ## Line breaks -/

theorem token?_eq_none_iff {pos : Nat} : ts.token? pos = none ↔ ts.size ≤ pos := by
  simp [token?]

theorem SameButTrivia.token (hsame : ts.SameButTrivia ts') {pos : Nat} {t : Token} (ht : ts.token? pos = some t) :
    ∃ t', ts'.token? pos = some t' ∧ t.Alike t' := by
  obtain ⟨x, hx, rfl⟩ := Option.map_eq_some_iff.mp ht
  obtain ⟨hpos, rfl⟩ := Array.getElem?_eq_some_iff.mp hx
  have hpos' : pos < ts'.size := hsame.size_eq ▸ hpos
  exact ⟨ts'[pos].token, by simp [token?, hpos'], hsame.alike pos hpos hpos'⟩

theorem onSameLine_succ {pos : Nat} (h : pos + 1 < ts.size) :
    ts.onSameLine (pos + 1) = (ts[pos].token.start.line == ts[pos + 1].token.start.line) := by
  simp [onSameLine, last?, token?, h, Nat.lt_of_succ_lt h]

theorem onSameLine_of_size_le {pos : Nat} (h : ts.size ≤ pos) : ts.onSameLine pos = false := by
  unfold onSameLine
  rw [token?_eq_none_iff.mpr h]
  cases ts.last? pos <;> rfl

theorem SameButTrivia.onSameLine (hsame : ts.SameButTrivia ts') (pos : Nat) :
    ts'.onSameLine pos = ts.onSameLine pos := by
  have hsize := hsame.size_eq
  rcases Nat.lt_or_ge pos ts.size with hpos | hpos
  · obtain _ | pos := pos
    · rfl
    · have hpos' : pos + 1 < ts'.size := hsize ▸ hpos
      have hline := hsame.line (pos + 1) hpos hpos' (Nat.le_add_left 1 pos)
      rw [onSameLine_succ hpos, onSameLine_succ hpos', Bool.eq_iff_iff, beq_iff_eq, beq_iff_eq]
      exact eq_comm.trans (hline.symm.trans eq_comm)
  · rw [onSameLine_of_size_le hpos, onSameLine_of_size_le (hsize ▸ hpos)]

theorem Ordered.line_le (ho : ts.Ordered) {pos : Nat} {before : Terminal} {t : Token}
    (hbefore : ts.last? pos = some before) (ht : ts.token? pos = some t) :
    before.token.start.line ≤ t.start.line := by
  obtain _ | pos := pos
  · cases hbefore
  obtain ⟨x, hx, rfl⟩ := Option.map_eq_some_iff.mp ht
  obtain ⟨hpos, rfl⟩ := Array.getElem?_eq_some_iff.mp hx
  obtain ⟨_, rfl⟩ := Array.getElem?_eq_some_iff.mp hbefore
  have hlt := (ho.before_of_lt (Nat.lt_add_one pos) hpos).2.2
  rw [Location.lt_def] at hlt
  omega

/-- Lines do not decrease, so a terminal that does not begin on the line of the one before begins on a
later one. -/
theorem Ordered.isSeparator_eq (ho : ts.Ordered) (pos : Nat) :
    ts.isSeparator pos =
      (ts.token? pos).any fun t => t.kind == .identifier && t.isWord "GO" && !ts.onSameLine pos := by
  unfold isSeparator onSameLine
  cases ht : ts.token? pos with
  | none => rfl
  | some t =>
    cases hbefore : ts.last? pos with
    | none => rfl
    | some before =>
      have hline := ho.line_le hbefore ht
      simp only [Option.any_some]
      congr 1
      rw [Bool.eq_iff_iff]
      simp only [decide_eq_true_eq, Bool.not_eq_true', beq_eq_false_iff_ne]
      omega

def SameButTrivia.relocation (ho : ts.Ordered) (ho' : ts'.Ordered) (hsame : ts.SameButTrivia ts') :
    Relocation ts ts' where
  shift := 0
  move := ts.carry ts'
  size_eq := hsame.size_eq
  token := hsame.token
  onSameLine := hsame.onSameLine
  isSeparator pos := by
    rw [ho'.isSeparator_eq, ho.isSeparator_eq, Nat.add_zero, hsame.onSameLine]
    cases ht : ts.token? pos with
    | none =>
      have hsize := hsame.size_eq
      rw [token?_eq_none_iff.mpr (hsize ▸ token?_eq_none_iff.mp ht)]
    | some t =>
      obtain ⟨t', ht', halike⟩ := hsame.token ht
      rw [ht']
      simp only [Option.any_some, halike.kind, halike.isWord]
  span := carry_span ho ho' hsame.size_eq

end Terminals

/-! ## Documents -/

structure Violation.Alike (ts ts' : Terminals) (v v' : Violation) : Prop where
  ruleId : v'.ruleId = v.ruleId
  message : v'.message = v.message
  severity : v'.severity = v.severity
  location : ts.SamePlace ts' 0 v.location v'.location

namespace Document

structure Counterpart (d d' : Document) : Prop where
  script : d'.script = mapSpans (d.terminals.carry d'.terminals) d.script
  nodes : 0 < d.terminals.size →
    List.Forall₂ (fun n n' => d.terminals.SameSpan d'.terminals 0 n.span n'.span) d.nodes d'.nodes
  violations : ∀ rule : Rule,
    List.Forall₂ (Violation.Alike d.terminals d'.terminals) (rule.violations d) (rule.violations d')

theorem counterpart {sql sql' : String} {d d' : Document} (h : parse sql = .ok d) (h' : parse sql' = .ok d')
    (hsame : d.terminals.SameButTrivia d'.terminals)
    (hscript : d'.script = mapSpans (d.terminals.carry d'.terminals) d.script) : d.Counterpart d' := by
  have ho := terminals_ordered h
  have ho' := terminals_ordered h'
  let ρ := hsame.relocation ho ho'
  refine ⟨hscript, fun hsize => ?_, fun rule => ?_⟩
  · rw [nodes_relocate h h' ρ hscript, List.forall₂_map_right_iff, List.forall₂_same]
    intro n hn
    rcases stands h (Node.mem_preorder.mp hn) with ⟨hempty, _⟩ | ⟨a, b, hstands⟩
    · omega
    · exact hstands.sameSpan ρ ho ho'
  · rw [Rule.violations, Rule.violations, List.forall₂_map_left_iff, List.forall₂_map_right_iff]
    exact (locations_relocate h h' ρ hscript rule).imp fun l l' hl => ⟨rfl, rfl, rfl, hl⟩

theorem parse_of_tokenize {sql : String} {tokens : List Token} (h : tokenize sql = .ok tokens) :
    parse sql = (Grammar.script (.ofTokens tokens) 0).map fun r => ⟨sql, tokens, r.1⟩ := by
  rw [parse, h]
  dsimp only
  cases Grammar.script (.ofTokens tokens) 0 <;> rfl

/-- Scripts that differ in trivia only both parse, to documents that are the same up to places and
violate the rules at the same tokens, or both fail in the same way at the same token. -/
theorem trivia_noninterference {sql sql' : String} {tokens tokens' : List Token} (h : tokenize sql = .ok tokens)
    (h' : tokenize sql' = .ok tokens') (hsame : (Terminals.ofTokens tokens).SameButTrivia (.ofTokens tokens')) :
    (∃ d d', parse sql = .ok d ∧ parse sql' = .ok d' ∧ d.Counterpart d') ∨
      ∃ e e', parse sql = .error e ∧ parse sql' = .error e' ∧
        ParseError.Alike (.ofTokens tokens) (.ofTokens tokens') 0 e e' := by
  let ρ := hsame.relocation (Terminals.ordered_of_tokenize h) (Terminals.ordered_of_tokenize h')
  have hparse := parse_of_tokenize h
  have hparse' := parse_of_tokenize h'
  have hmirrors : ρ.Outcome (Grammar.script (.ofTokens tokens) 0) (Grammar.script (.ofTokens tokens') 0) :=
    Grammar.script_mirrors 0
  generalize Grammar.script (.ofTokens tokens) 0 = r, Grammar.script (.ofTokens tokens') 0 = r' at *
  cases hmirrors with
  | ok script pos => exact .inl ⟨_, _, hparse, hparse', counterpart hparse hparse' hsame rfl⟩
  | error halike => exact .inr ⟨_, _, hparse, hparse', halike⟩

/-- Comments, blanks and more line breaks move the bare alias from the first line to the second. -/
theorem trivia_noninterference_alias :
    let sql := "SELECT a b\nFROM t"
    let sql' := "-- one column\nSELECT /**/ a   b\n\n  FROM t"
    ∃ tokens tokens' d d', tokenize sql = .ok tokens ∧ tokenize sql' = .ok tokens' ∧
      (Terminals.ofTokens tokens).SameButTrivia (.ofTokens tokens') ∧
      parse sql = .ok d ∧ parse sql' = .ok d' ∧ d.Counterpart d' ∧
      (Rule.columnAlias.violations d).map Violation.location = [⟨1, 10⟩] := by
  intro sql sql'
  obtain ⟨tokens, htokens, tokens', htokens', hsame⟩ : ∃ tokens ∈ (tokenize sql).toOption,
      ∃ tokens' ∈ (tokenize sql').toOption, (Terminals.ofTokens tokens).SameButTrivia (.ofTokens tokens') := by
    decide +kernel
  obtain ⟨d, hd, hplaces⟩ : ∃ d ∈ (parse sql).toOption,
      (Rule.columnAlias.violations d).map Violation.location = [⟨1, 10⟩] := by
    decide +kernel
  have h := eq_ok_of_mem_toOption htokens
  have h' := eq_ok_of_mem_toOption htokens'
  have hd := eq_ok_of_mem_toOption hd
  rcases trivia_noninterference h h' hsame with ⟨_, d', hparse, hparse', hcounterpart⟩ | ⟨_, _, herror, _⟩
  · cases hd.symm.trans hparse
    exact ⟨tokens, tokens', d, d', h, h', hsame, hd, hparse', hcounterpart, hplaces⟩
  · cases hd.symm.trans herror

end Document

end TransactLint
