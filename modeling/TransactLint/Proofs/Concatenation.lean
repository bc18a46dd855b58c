import Mathlib.Data.List.Induction
import TransactLint.Proofs.Places

/-!
# Concatenation

A chain with a separator is judged by what it concatenates: the values with the separator between them, and once
more at the end if the chain ends with it. The two rules for chains that replace NULL share these chains out among
them.
-/

namespace TransactLint

/-! ## Searching an operand -/

namespace Expr

theorem anyWithin_iff {p : Expr → Bool} {e : Expr} :
    e.anyWithin p = true ↔ ∃ x, (Node.expr e).Reaches (.expr x) ∧ p x = true := by
  rw [anyWithin, Node.any_eq, List.any_eq_true]
  constructor
  · rintro ⟨n, hn, hp⟩
    cases n with
    | expr x => exact ⟨x, Node.mem_preorder.mp hn, hp⟩
    | _ => cases hp
  · rintro ⟨x, hx, hp⟩
    exact ⟨.expr x, Node.mem_preorder.mpr hx, hp⟩

theorem reaches_unwrap (e : Expr) : (Node.expr e).Reaches (.expr e.unwrap) := by
  obtain ⟨kind, span⟩ := e
  cases kind with
  | nested inner =>
    have hchild : Node.expr inner ∈ (Node.expr ⟨.nested inner, span⟩).children :=
      Node.mem_children.mpr List.mem_cons_self
    exact Node.reaches_iff.mpr (.inr ⟨_, hchild, reaches_unwrap inner⟩)
  | _ => exact .refl

end Expr

namespace Chain

/-! ## Places in a chain -/

mutual

theorem evens_sublist {α : Type} : ∀ as : List α, (evens as).Sublist as
  | [] => .slnil
  | a :: as => (odds_sublist as).cons_cons a

theorem odds_sublist {α : Type} : ∀ as : List α, (odds as).Sublist as
  | [] => .slnil
  | a :: as => (evens_sublist as).cons a

end

theorem separator?_eq_some {operands : List Expr} {sep : String} (h : separator? operands = some sep) :
    5 ≤ operands.length ∧ sep ≠ "" ∧ (∀ e ∈ odds operands, e.unwrap.stringValue? = some sep) ∧
      ∃ e ∈ evens operands, e.containsCall nullHandling = true := by
  unfold separator? at h
  split at h
  · cases h
  · rename_i hlength
    split at h
    · cases h
    · split at h
      · rename_i hsep
        cases h
        simpa [and_assoc, Nat.not_lt.mp hlength] using hsep
      · cases h

/-! ## What a chain concatenates -/

/-- The texts that the operands stand for, if those at even places have the given values: a literal at an odd place
stands for itself. -/
def texts (value : Nat → String) (operands : List Expr) : List String :=
  operands.mapIdx fun i e => if i % 2 = 0 then value i else e.unwrap.stringValue?.getD ""

theorem texts_cons_cons (value : Nat → String) (a b : Expr) (rest : List Expr) :
    texts value (a :: b :: rest) =
      value 0 :: b.unwrap.stringValue?.getD "" :: texts (fun i => value (i + 2)) rest := by
  simp [texts, List.mapIdx_cons, Nat.add_assoc]

/-- Induction takes a value and the separator after it away. -/
theorem join_texts {sep : String} (value : Nat → String) (operands : List Expr) (hne : operands ≠ [])
    (hsep : ∀ e ∈ odds operands, e.unwrap.stringValue? = some sep) :
    String.join (texts value operands) =
      sep.intercalate (evens (texts value operands)) ++ if operands.length % 2 = 0 then sep else "" := by
  -- a value and the separator after it at a time
  induction operands using List.twoStepInduction generalizing value with
  | nil => exact absurd rfl hne
  | singleton a => simp [texts, evens, odds]
  | cons_cons a b rest ih _ =>
    have hb : b.unwrap.stringValue? = some sep := hsep b List.mem_cons_self
    rw [texts_cons_cons, hb]
    by_cases hrest : rest = []
    · subst hrest
      simp [texts, evens, odds]
    · have hvalues : evens (texts (fun i => value (i + 2)) rest) ≠ [] := by
        obtain ⟨c, rest, rfl⟩ := List.exists_cons_of_ne_nil hrest
        simp [texts, List.mapIdx_cons, evens]
      have hjoin := ih (fun i => value (i + 2)) hrest fun e he => hsep e (List.mem_cons_of_mem _ he)
      have hlength : (a :: b :: rest).length % 2 = rest.length % 2 := Nat.add_mod_right rest.length 2
      rw [hlength, String.join_cons, String.join_cons, hjoin]
      simp only [evens, odds, Option.getD_some]
      rw [String.intercalate_cons_of_ne_nil hvalues, String.append_assoc, String.append_assoc]

/-- A chain with a separator concatenates its values with the separator between them, as `CONCAT_WS` does, if and
only if it does not end with the separator. -/
theorem joins_values_iff {operands : List Expr} {sep : String} (h : separator? operands = some sep)
    (value : Nat → String) :
    String.join (texts value operands) = sep.intercalate (evens (texts value operands)) ↔
      operands.length % 2 = 1 := by
  obtain ⟨hlength, hne, hsep, _⟩ := separator?_eq_some h
  have hoperands : operands ≠ [] := by
    rintro rfl
    simp at hlength
  rw [join_texts value operands hoperands hsep]
  rcases Nat.mod_two_eq_zero_or_one operands.length with heven | hodd
  · simp [heven, hne]
  · simp [hodd]

/-- One of the separators is a national string in parentheses. -/
theorem joins_values_parenthesized :
    ∃ d c, Document.parse "SELECT a + ', ' + ISNULL(b, '') + (N', ') + c" = .ok d ∧
    c ∈ d.chains .add ∧ separator? c.operands = some ", " ∧ ∀ value,
      String.join (texts value c.operands) = ", ".intercalate (evens (texts value c.operands)) := by
  obtain ⟨d, hd, c, hc, hsep, hlength⟩ :
      ∃ d ∈ (Document.parse "SELECT a + ', ' + ISNULL(b, '') + (N', ') + c").toOption, ∃ c ∈ d.chains .add,
        separator? c.operands = some ", " ∧ c.operands.length % 2 = 1 := by
    decide +kernel
  exact ⟨d, c, eq_ok_of_mem_toOption hd, hc, hsep, fun value => (joins_values_iff hsep value).mpr hlength⟩

/-- A separator after the last value is not between values, and is lost. -/
theorem trailing_separator_lost :
    ∃ d c, Document.parse "SELECT a + ',' + ISNULL(b, '') + ',' + c + ','" = .ok d ∧
    c ∈ d.chains .add ∧ separator? c.operands = some "," ∧
      String.join (texts (fun _ => "x") c.operands) = "x,x,x," ∧
      ",".intercalate (evens (texts (fun _ => "x") c.operands)) = "x,x,x" := by
  obtain ⟨d, hd, c, hc, hsep, hjoin, hvalues⟩ :
      ∃ d ∈ (Document.parse "SELECT a + ',' + ISNULL(b, '') + ',' + c + ','").toOption, ∃ c ∈ d.chains .add,
        separator? c.operands = some "," ∧ String.join (texts (fun _ => "x") c.operands) = "x,x,x," ∧
        ",".intercalate (evens (texts (fun _ => "x") c.operands)) = "x,x,x" := by
    decide +kernel
  exact ⟨d, c, eq_ok_of_mem_toOption hd, hc, hsep, hjoin, hvalues⟩

/-! ## Chains that replace NULL -/

def PatchesNull (c : Chain) : Prop :=
  (∃ e ∈ c.operands, ∃ x, (Node.expr e).Reaches (.expr x) ∧ x.stringValue?.isSome = true) ∧
    ∃ e ∈ c.operands, ∃ x, (Node.expr e).Reaches (.expr x) ∧ x.calls nullHandling = true

theorem patchesNull_iff {c : Chain} : c.PatchesNull ↔ c.operands.any Expr.containsString = true ∧
    (c.operands.any fun e => e.containsCall nullHandling) = true := by
  simp only [PatchesNull, List.any_eq_true, Expr.containsString, Expr.containsCall, Expr.anyWithin_iff]

theorem patchesNull_of_isSeparated {c : Chain} (h : c.isSeparated = true) : c.PatchesNull := by
  obtain ⟨sep, hsep⟩ := Option.isSome_iff_exists.mp h
  obtain ⟨hlength, _, hodds, value, hvalue, hcall⟩ := separator?_eq_some hsep
  obtain ⟨literal, hliteral⟩ : ∃ e, e ∈ odds c.operands := by
    match c.operands, hlength with
    | _ :: b :: _, _ => exact ⟨b, List.mem_cons_self⟩
  refine ⟨⟨literal, (odds_sublist _).subset hliteral, literal.unwrap, literal.reaches_unwrap, ?_⟩,
    value, (evens_sublist _).subset hvalue, Expr.anyWithin_iff.mp hcall⟩
  rw [hodds literal hliteral]
  rfl

theorem replacesNull_iff {c : Chain} : c.replacesNull = true ↔ c.PatchesNull ∧ c.isSeparated = false := by
  simp only [replacesNull, Bool.and_eq_true, Bool.not_eq_true', patchesNull_iff]
  tauto

end Chain

namespace Document

section
variable {sql : String} {d : Document} (h : parse sql = .ok d)
include h

/-- No two chains begin at one place, so a chain is reported for what it is itself. -/
theorem start_mem_concatenations {p : Chain → Bool} {c : Chain} (hc : c ∈ d.chains .add) :
    c.span.start ∈ d.concatenations p ↔ p c = true := by
  rw [concatenations, List.mem_map]
  constructor
  · rintro ⟨c', hc', hstart⟩
    rw [List.mem_filter] at hc'
    rw [← List.inj_on_of_nodup_map (chains_anchored h .add).nodup hc'.1 hc hstart]
    exact hc'.2
  · intro hp
    exact ⟨c, List.mem_filter.mpr ⟨hc, hp⟩, rfl⟩

end

/-- Every outermost chain of `+` that holds a string and replaces NULL is reported, at its start, by one of two
rules, according to whether it has a separator. No other is reported by them, and no place is reported twice. -/
theorem patched_chains_shared {sql : String} {d : Document} (h : parse sql = .ok d) :
    let separated := Rule.separatedConcatenation.locations d
    let replacing := Rule.nullReplacingConcatenation.locations d
    (∀ c ∈ d.chains .add, c.PatchesNull →
      (c.span.start ∈ separated ↔ (Chain.separator? c.operands).isSome = true) ∧
        (c.span.start ∈ replacing ↔ c.span.start ∉ separated)) ∧
      (∀ c ∈ d.chains .add, ¬ c.PatchesNull → c.span.start ∉ separated ∧ c.span.start ∉ replacing) ∧
      (∀ place ∈ separated ++ replacing, ∃ c ∈ d.chains .add, c.PatchesNull ∧ c.span.start = place) ∧
      (separated ++ replacing).Nodup := by
  intro separated replacing
  have hseparated : ∀ c ∈ d.chains .add, c.span.start ∈ separated ↔ c.isSeparated = true :=
    fun c hc => start_mem_concatenations h hc
  have hreplacing : ∀ c ∈ d.chains .add, c.span.start ∈ replacing ↔ c.PatchesNull ∧
      c.isSeparated = false :=
    fun c hc => (start_mem_concatenations h hc).trans Chain.replacesNull_iff
  refine ⟨fun c hc hpatches => ⟨hseparated c hc, ?_⟩, fun c hc hnot => ⟨?_, ?_⟩,
    fun place hplace => ?_, ?_⟩
  · rw [hreplacing c hc, hseparated c hc, Bool.not_eq_true]
    exact and_iff_right hpatches
  · rw [hseparated c hc]
    exact fun hsep => hnot (Chain.patchesNull_of_isSeparated hsep)
  · rw [hreplacing c hc]
    exact fun hreplaces => hnot hreplaces.1
  · rcases List.mem_append.mp hplace with hplace | hplace
    · obtain ⟨c, hc, rfl⟩ := List.mem_map.mp hplace
      rw [List.mem_filter] at hc
      exact ⟨c, hc.1, Chain.patchesNull_of_isSeparated hc.2, rfl⟩
    · obtain ⟨c, hc, rfl⟩ := List.mem_map.mp hplace
      rw [List.mem_filter] at hc
      exact ⟨c, hc.1, (Chain.replacesNull_iff.mp hc.2).1, rfl⟩
  · apply (locations_anchored h .separatedConcatenation).nodup.append
      (locations_anchored h .nullReplacingConcatenation).nodup
    intro place hplace hplace'
    obtain ⟨c, hc, rfl⟩ := List.mem_map.mp hplace
    rw [List.mem_filter] at hc
    -- a place that both report is the start of one chain, which would be separated and not
    have hnot := ((hreplacing c hc.1).mp hplace').2
    rw [hc.2] at hnot
    cases hnot

/-- Of four chains one has a separator, one has two different ones, one replaces nothing, and one is an argument. -/
theorem patched_chains_shared_four :
    let sql := "SELECT a + '-' + ISNULL(b, '') + '-' + c, a + '-' + COALESCE(b, '') + '/' + c, " ++
      "a + 'x' + 'y', LEN(d + ISNULL(e, ''))"
    ∃ d, parse sql = .ok d ∧ (d.chains .add).length = 4 ∧
      Rule.separatedConcatenation.locations d = [⟨1, 8⟩] ∧
      Rule.nullReplacingConcatenation.locations d = [⟨1, 43⟩, ⟨1, 99⟩] ∧
      (∀ c ∈ d.chains .add, c.PatchesNull →
        (c.span.start ∈ Rule.nullReplacingConcatenation.locations d ↔
          c.span.start ∉ Rule.separatedConcatenation.locations d)) ∧
      (Rule.separatedConcatenation.locations d ++ Rule.nullReplacingConcatenation.locations d).Nodup := by
  intro sql
  obtain ⟨d, hd, hchains, hseparated, hreplacing⟩ :
      ∃ d ∈ (parse sql).toOption, (d.chains .add).length = 4 ∧
        Rule.separatedConcatenation.locations d = [⟨1, 8⟩] ∧
        Rule.nullReplacingConcatenation.locations d = [⟨1, 43⟩, ⟨1, 99⟩] := by
    decide +kernel
  have hd := eq_ok_of_mem_toOption hd
  obtain ⟨hpatched, _, _, hnodup⟩ := patched_chains_shared hd
  exact ⟨d, hd, hchains, hseparated, hreplacing, fun c hc hc' => (hpatched c hc hc').2, hnodup⟩

end Document

end TransactLint
