import TransactLint.Proofs.Anchors
import TransactLint.Proofs.Extent
import TransactLint.Proofs.Gap
import TransactLint.Rule

/-!
# Aliases without `AS`

An alias is read where what it names ends, or one terminal later if `AS` stands there. So the gap before it holds
`AS` if and only if the alias follows `AS`, and no `AS` inside what is named lies in the gap.
-/

namespace TransactLint

theorem lastToken_lt_of_keywordBetween? {tokens : List Token} {left right : Span} {k : Keyword} {b : Bool}
    (hb : keywordBetween? tokens left right k = some b) : left.lastToken < right.firstToken := by
  by_contra hnot
  rw [keywordBetween?, Gap.between?, if_neg hnot] at hb
  cases hb

/-! ## The token before a name -/

namespace Document

def tokenBefore? (d : Document) (i : Nat) : Option Token :=
  ((d.tokens.take i).filter fun t => !t.isTrivia).getLast?

def followsAs (d : Document) (name : Ident) : Bool :=
  (d.tokenBefore? name.span.firstToken).any fun t => t.kind = .keyword .AS

theorem tokenBefore?_index {sql : String} {d : Document} (h : parse sql = .ok d) {a : Nat}
    (ha : a < d.terminals.size) :
    d.tokenBefore? d.terminals[a].index = (d.terminals.last? a).map Terminal.token := by
  rw [tokenBefore?, Terminals.filter_take (terminals_ordered h) (Array.getElem?_eq_getElem ha), List.getLast?_map]
  cases a with
  | zero => rfl
  | succ a =>
    have hlast : (d.terminals.toList.take (a + 1)).getLast? = d.terminals[a]? := by
      rw [List.take_add_one, Array.getElem?_toList, Array.getElem?_eq_getElem (by omega)]
      simp
    exact congrArg _ hlast

end Document

/-! ## Aliases as they are read -/

namespace Grammar

open TransactLint.Parser

variable {ts : Terminals} {inner : Level} {pos pos' : Nat}

structure NamesAt (ts : Terminals) (a : Nat) (x : Ident) : Prop where
  here : a < ts.size
  span : x.span = ts.span a (a + 1)

/-- The name is read as an alias at `pos`: it stands there, or after the word `AS`. -/
def AliasAt (ts : Terminals) (pos : Nat) (x : Ident) : Prop :=
  NamesAt ts pos x ∨ ts.isKeyword pos .AS = true ∧ NamesAt ts (pos + 1) x

theorem anyIdent_namesAt {x : Ident} (h : anyIdent ts pos = .ok (x, pos')) : NamesAt ts pos x := by
  obtain ⟨t, ht, -, rfl⟩ := anyIdent_ok h
  obtain ⟨_, -, rfl⟩ := spanned_ok h
  exact ⟨token?_isSome (by rw [ht]; rfl), rfl⟩

theorem ident_namesAt {x : Ident} (h : ident ts pos = .ok (x, pos')) : NamesAt ts pos x := by
  rw [ident, bind_look] at h
  split at h
  · exact anyIdent_namesAt h
  · exact absurd h failExpected_ne_ok

theorem columnAlias_namesAt {x : Ident} (h : columnAlias ts pos = .ok (x, pos')) : NamesAt ts pos x := by
  rw [columnAlias, bind_look] at h
  split at h
  · exact anyIdent_namesAt h
  · exact ident_namesAt h

theorem tableAlias_aliasAt {x : Ident} (h : tableAlias ts pos = .ok (some x, pos')) : AliasAt ts pos x := by
  rcases ifConsume_ok h with ⟨hword, h⟩ | ⟨-, h⟩
  · obtain ⟨_, _, hx, h⟩ := bind_ok h
    cases h
    exact .inr ⟨hword, ident_namesAt hx⟩
  · rw [bind_look] at h
    split at h
    · obtain ⟨_, _, hx, h⟩ := bind_ok h
      cases h
      exact .inl (ident_namesAt hx)
    · cases h

theorem optionalColumnAlias_aliasAt {x : Ident} (h : optionalColumnAlias ts pos = .ok (some x, pos')) :
    AliasAt ts pos x := by
  rcases ifConsume_ok h with ⟨hword, h⟩ | ⟨-, h⟩
  · obtain ⟨_, _, hx, h⟩ := bind_ok h
    cases h
    exact .inr ⟨hword, columnAlias_namesAt hx⟩
  · rw [optionIf, bind_look] at h
    split at h
    · obtain ⟨_, _, hx, h⟩ := bind_ok h
      cases h
      exact .inl (columnAlias_namesAt hx)
    · cases h

/-- What is named reaches to before `j`, and the alias is read at `p`, after something that is not `AS`. -/
structure Aliases (ts : Terminals) (named : Span) (x : Ident) (j p : Nat) : Prop where
  named : ∃ i < j, named = ts.span i j
  le : j ≤ p
  between : ∀ t ∈ ts.within j p, t.kind ≠ .keyword .AS
  mayEnd : ts.MayEnd p
  aliasAt : AliasAt ts p x

theorem Aliases.firstToken_lt (ho : ts.Ordered) {named : Span} {x : Ident} {j p : Nat}
    (h : Aliases ts named x j p) :
    named.firstToken < x.span.lastToken := by
  obtain ⟨⟨i, hij, rfl⟩, hjp, -, -, hat⟩ := h
  obtain ⟨a, hja, hx⟩ : ∃ a, j ≤ a ∧ NamesAt ts a x := by
    rcases hat with hx | ⟨-, hx⟩
    · exact ⟨p, hjp, hx⟩
    · exact ⟨p + 1, Nat.le_succ_of_le hjp, hx⟩
  have ha := hx.here
  have hi : i < ts.size := by omega
  rw [Terminals.firstToken_span hi, hx.span, ho.span_eq (Nat.lt_succ_self a) ha]
  exact (ho.index_lt_iff hi ha).mpr (by omega)

theorem namedSource_aliases {name : ObjectName} {x : Ident} {hints : List Ident}
    (h : namedSource inner ts pos = .ok (.named name (some x) hints, pos')) :
    ∃ j, Aliases ts name.span x j j := by
  obtain ⟨_, mid, hname, h⟩ := bind_ok h
  rw [atKind, bind_look] at h
  split at h
  · obtain ⟨_, _, -, h⟩ := bind_ok h
    obtain ⟨_, _, -, h⟩ := bind_ok h
    obtain ⟨_, _, -, h⟩ := bind_ok h
    obtain ⟨_, _, -, h⟩ := bind_ok h
    obtain ⟨_, _, -, h⟩ := bind_ok h
    cases h
  · obtain ⟨_, _, halias, h⟩ := bind_ok h
    obtain ⟨_, _, -, h⟩ := bind_ok h
    cases h
    have hstands := objectName_stands (Nat.le_of_lt (objectName_lt hname)) hname
    exact ⟨mid, ⟨pos, hstands.lt, hstands.span_eq⟩, Nat.le_refl mid, by simp,
      objectName_ends pos _ mid trivial hname, tableAlias_aliasAt halias⟩

/-- The gap of a derived table begins with the parenthesis that closes it. -/
theorem derivedTable_aliases {n : Nat} {q : Query} {x : Ident} {columns : List Ident}
    (h : derivedTable (level n) ts pos = .ok (.derived q (some x) columns, pos')) :
    ∃ j, Aliases ts q.span x j (j + 1) := by
  obtain ⟨_, j, hquery, h⟩ := bind_ok h
  obtain ⟨_, _, hparen, h⟩ := bind_ok h
  obtain ⟨_, _, halias, h⟩ := bind_ok h
  obtain ⟨_, _, -, h⟩ := bind_ok h
  cases h
  obtain ⟨hat, rfl⟩ := expect_ok hparen
  obtain ⟨t, ht, hkind⟩ := Terminals.isKind_iff.mp hat
  obtain ⟨hspan, hlt, -⟩ := nestedQuery_extent hquery
  refine ⟨j, ⟨pos, hlt, hspan⟩, Nat.le_succ j, ?_, mayEnd_succ ht (by rw [hkind]; rfl),
    tableAlias_aliasAt halias⟩
  intro u hu
  rw [Terminals.within_succ (Nat.le_refl j) ht, Terminals.within_self, List.nil_append, List.mem_singleton] at hu
  rw [hu, hkind]
  decide

theorem expression_extent {n : Nat} {e : Expr} (h : (level n).expression ts pos = .ok (e, pos')) :
    Occupies ts pos e pos' ∧ pos < pos' ∧ pos' ≤ ts.size := by
  have hoccupies := expression_occupies h
  exact ⟨hoccupies, (level_reads n).expression.lt hoccupies.here h⟩

theorem leadingAlias_namesAt {n : Nat} {e : Expr} {x : Ident}
    (h : leadingAlias (level n) ts pos = .ok (.expression e (some x), pos')) :
    NamesAt ts pos x ∧ ts.isKind (pos + 1) .eq = true ∧ ∃ j, pos + 2 < j ∧ j ≤ ts.size ∧
      e.span = ts.span (pos + 2) j := by
  obtain ⟨_, _, hx, h⟩ := bind_ok h
  obtain ⟨_, _, heq, h⟩ := bind_ok h
  obtain ⟨_, _, he, h⟩ := bind_ok h
  cases h
  obtain ⟨-, -, -, -, rfl⟩ := ident_ok hx
  obtain ⟨hat, rfl⟩ := expect_ok heq
  obtain ⟨hoccupies, hlt, hle⟩ := expression_extent he
  exact ⟨ident_namesAt hx, hat, pos', hlt, hle, hoccupies.span⟩

theorem trailingAlias_aliases {n : Nat} {e : Expr} {x : Ident}
    (h : trailingAlias (level n) ts pos = .ok (.expression e (some x), pos')) : ∃ j, Aliases ts e.span x j j := by
  obtain ⟨_, j, he, h⟩ := bind_ok h
  obtain ⟨_, _, halias, h⟩ := bind_ok h
  cases h
  obtain ⟨hoccupies, hlt, -⟩ := expression_extent he
  exact ⟨j, ⟨_, hlt, hoccupies.span⟩, Nat.le_refl j, by simp, hoccupies.mayEnd,
    optionalColumnAlias_aliasAt halias⟩

/-- An alias after its expression, or `alias = expr`. -/
theorem selectElement_aliases {n : Nat} {e : Expr} {x : Ident} {span : Span}
    (h : selectElement (level n) ts pos = .ok (⟨.expression e (some x), span⟩, pos')) :
    (∃ j, Aliases ts e.span x j j) ∨
      NamesAt ts pos x ∧ ts.isKind (pos + 1) .eq = true ∧ ∃ j, pos + 2 < j ∧ j ≤ ts.size ∧
        e.span = ts.span (pos + 2) j := by
  obtain ⟨_, hkind, hmk⟩ := spanned_ok h
  cases hmk
  -- neither star nor an assignment to a variable is an expression with an alias
  rcases ifConsume_ok hkind with ⟨-, hkind⟩ | ⟨-, hkind⟩
  · cases hkind
  rw [bind_look] at hkind
  split at hkind
  · obtain ⟨_, _, -, hkind⟩ := bind_ok hkind
    obtain ⟨_, _, -, hkind⟩ := bind_ok hkind
    obtain ⟨_, _, -, hkind⟩ := bind_ok hkind
    cases hkind
  rw [atPair, bind_look] at hkind
  split at hkind
  · obtain ⟨_, _, -, hkind⟩ := bind_ok hkind
    obtain ⟨_, _, -, hkind⟩ := bind_ok hkind
    obtain ⟨_, _, -, hkind⟩ := bind_ok hkind
    cases hkind
  rw [bind_look] at hkind
  split at hkind
  · exact .inr (leadingAlias_namesAt hkind)
  · exact .inl (trailingAlias_aliases hkind)

end Grammar

/-! ## Aliases of a document -/

namespace Node

def trailingAlias? : Node → Option Ident
  | .selectElement ⟨.expression e (some x), _⟩ => if e.span.lastToken < x.span.firstToken then some x else none
  | _ => none

/-- The alias of a selected expression that is written `alias = expr`. -/
def leadingAlias? (d : Document) : Node → Option Ident
  | .selectElement ⟨.expression e (some x), _⟩ =>
    if x.span.lastToken < e.span.firstToken && (d.tokenBefore? e.span.firstToken).any (·.kind = .eq)
      then some x else none
  | _ => none

def sourceAlias? : Node → Option Ident
  | .tableSource ⟨.named _ x? _, _⟩ | .tableSource ⟨.derived _ x? _, _⟩ => x?
  | _ => none

theorem trailingAlias?_of_none {n : Node} (h : n.columnAlias? = none) : n.trailingAlias? = none := by
  unfold trailingAlias?
  split
  · cases h
  · rfl

theorem sourceAlias?_of_none {n : Node} (h : n.tableAlias? = none) : n.sourceAlias? = none := by
  unfold sourceAlias?
  split
  · rename_i x? _ _
    cases x? <;> first | rfl | cases h
  · rename_i x? _ _
    cases x? <;> first | rfl | cases h
  · rfl

end Node

namespace Document

section
variable {sql : String} {d : Document} (h : parse sql = .ok d)
include h

theorem firstToken_namesAt {a : Nat} {x : Ident} (hx : Grammar.NamesAt d.terminals a x) :
    d.tokenBefore? x.span.firstToken = (d.terminals.last? a).map Terminal.token := by
  rw [hx.span, Terminals.firstToken_span hx.here, tokenBefore?_index h hx.here]

/-- There is a gap before an alias, and it holds `AS` if and only if the alias follows `AS`. -/
theorem keywordBetween?_aliases {named : Span} {x : Ident} {j p : Nat}
    (hx : Grammar.Aliases d.terminals named x j p) :
    keywordBetween? d.tokens named x.span .AS = some (d.followsAs x) := by
  obtain ⟨⟨i, hij, rfl⟩, hjp, hbetween, ⟨last, hlast, hends⟩, hat⟩ := hx
  have hgap : ∀ {a : Nat}, Grammar.NamesAt d.terminals a x → j ≤ a →
      keywordBetween? d.tokens (d.terminals.span i j) x.span .AS =
      some ((d.terminals.within j a).any fun t => t.kind = .keyword .AS) := by
    intro a hnames hja
    obtain ⟨g, hg, hfind⟩ := gap_between h hij hja (Nat.lt_succ_self a) hnames.here
    rw [keywordBetween?, hnames.span, hg, Option.map_some, Gap.contains, hfind _ rfl, List.isSome_find?]
  rcases hat with hnames | ⟨hword, hnames⟩
  · -- without `AS` the terminal before the alias ends what is named
    have hnone : ((d.terminals.within j p).any fun t => t.kind = .keyword .AS) = false := by simpa using hbetween
    have hnot : last.token.kind ≠ .keyword .AS := by
      intro hkind
      rw [hkind] at hends
      cases hends
    rw [hgap hnames hjp, hnone, followsAs, firstToken_namesAt h hnames, hlast]
    simp [hnot]
  · obtain ⟨t, ht, hkind⟩ := Terminals.isKind_iff.mp hword
    have hbefore : (d.terminals.last? (p + 1)).map Terminal.token = some t := ht
    rw [hgap hnames (Nat.le_succ_of_le hjp), followsAs, firstToken_namesAt h hnames, Terminals.within_succ hjp ht,
      hbefore]
    simp [hkind]

/-- In `alias = expr` the expression stands after the alias and the sign. -/
theorem leading_tokens {a j : Nat} {e : Expr} {x : Ident} (hx : Grammar.NamesAt d.terminals a x)
    (heq : d.terminals.isKind (a + 1) .eq = true) (hlt : a + 2 < j) (hle : j ≤ d.terminals.size)
    (he : e.span = d.terminals.span (a + 2) j) :
    x.span.lastToken < e.span.firstToken ∧ x.span.firstToken ≤ e.span.lastToken ∧
      ∃ t ∈ d.tokenBefore? e.span.firstToken, t.kind = .eq := by
  have ho := terminals_ordered h
  have ha := hx.here
  obtain ⟨t, ht, hkind⟩ := Terminals.isKind_iff.mp heq
  have hfirst : a + 2 < d.terminals.size := by omega
  have hlast : j - 1 < d.terminals.size := by omega
  rw [he, hx.span, ho.span_eq hlt hle, ho.span_eq (Nat.lt_succ_self a) ha]
  refine ⟨(ho.index_lt_iff ha hfirst).mpr (by omega), Nat.le_of_lt ((ho.index_lt_iff ha hlast).mpr (by omega)),
    t, ?_, hkind⟩
  exact (tokenBefore?_index h hfirst).trans ht

/-- An alias in the select list stands after its expression, or it is written `alias = expr`. -/
theorem columnAlias_cases {n : Node} (hn : n ∈ d.nodes) {named : Span} {x : Ident}
    (hx : n.columnAlias? = some (named, x)) :
    (n.trailingAlias? = some x ∧ n.leadingAlias? d = none ∧
        keywordBetween? d.tokens named x.span .AS = some (d.followsAs x)) ∨
      (n.trailingAlias? = none ∧ n.leadingAlias? d = some x ∧
        keywordBetween? d.tokens named x.span .AS = none) := by
  have hproper := proper_of_mem h hn
  unfold Node.columnAlias? at hx
  split at hx
  · cases hx
    obtain ⟨k, pos, pos', hread⟩ := hproper
    rcases Grammar.selectElement_aliases hread with ⟨j, haliases⟩ | ⟨hnames, heq, j, hlt, hle, he⟩
    · have hword := keywordBetween?_aliases h haliases
      have hfirst := haliases.firstToken_lt (terminals_ordered h)
      refine .inl ⟨if_pos (lastToken_lt_of_keywordBetween? hword), if_neg ?_, hword⟩
      simp only [Bool.and_eq_true, decide_eq_true_eq]
      omega
    · obtain ⟨hbefore, hnot, t, ht, hkind⟩ := leading_tokens h hnames heq hlt hle he
      refine .inr ⟨if_neg (by omega), if_pos ?_, ?_⟩
      · rw [Option.mem_def.mp ht]
        simp [hbefore, hkind]
      · rw [keywordBetween?, Gap.between?, if_neg (by omega)]
        rfl
  · cases hx

end

/-- The places of the reports, if `f` gives the aliases that have a gap before them. -/
theorem bareAliases_eq {d : Document} {aliased? : Node → Option (Span × Ident)} {f : Node → Option Ident}
    (hnone : ∀ n ∈ d.nodes, aliased? n = none → f n = none)
    (hsome : ∀ n ∈ d.nodes, ∀ named x, aliased? n = some (named, x) →
      (f n = some x ∧ keywordBetween? d.tokens named x.span .AS = some (d.followsAs x)) ∨
        (f n = none ∧ keywordBetween? d.tokens named x.span .AS = none)) :
    d.bareAliases aliased? = ((d.nodes.filterMap f).filter fun x => !d.followsAs x).map fun x => x.span.start := by
  rw [bareAliases, List.filter_filterMap, List.map_filterMap]
  refine List.filterMap_congr fun n hn => ?_
  cases hx : aliased? n with
  | none =>
    rw [hnone n hn hx]
    rfl
  | some y =>
    obtain ⟨named, x⟩ := y
    rcases hsome n hn named x hx with ⟨hf, hword⟩ | ⟨hf, hword⟩
    · simp only [hf, Option.bind_some, hword]
      cases hfollows : d.followsAs x <;> simp [Option.filter, hfollows]
    · simp [hf, hword]

section
variable {sql : String} {d : Document} (h : parse sql = .ok d)
include h

/-- A table or derived table with an alias has a gap before it. -/
theorem tableAlias_cases {n : Node} (hn : n ∈ d.nodes) {named : Span} {x : Ident}
    (hx : n.tableAlias? = some (named, x)) :
    n.sourceAlias? = some x ∧ keywordBetween? d.tokens named x.span .AS = some (d.followsAs x) := by
  have hproper := proper_of_mem h hn
  unfold Node.tableAlias? at hx
  split at hx
  · cases hx
    obtain ⟨k, pos, pos', hread⟩ := hproper
    obtain ⟨j, haliases⟩ := Grammar.namedSource_aliases hread
    exact ⟨rfl, keywordBetween?_aliases h haliases⟩
  · cases hx
    obtain ⟨k, pos, pos', hread⟩ := hproper
    obtain ⟨j, haliases⟩ := Grammar.derivedTable_aliases hread
    exact ⟨rfl, keywordBetween?_aliases h haliases⟩
  · cases hx

end

/-- The two rules on aliases are exact. A column alias is reported if and only if it stands after its expression and
the significant token before it is not `AS`, the alias of a table or derived table if and only if the token before
it is not `AS`. Reports come in the order of the nodes that have the aliases, which is the order in which these
begin. A column alias that does not stand after its expression is written `alias = expr`. -/
theorem bareAliases_exact {sql : String} {d : Document} (h : parse sql = .ok d) :
    Rule.columnAlias.locations d =
        ((d.nodes.filterMap Node.trailingAlias?).filter fun x => !d.followsAs x).map (fun x => x.span.start) ∧
      Rule.tableAlias.locations d =
        ((d.nodes.filterMap Node.sourceAlias?).filter fun x => !d.followsAs x).map (fun x => x.span.start) ∧
      (∀ n ∈ d.nodes, ∀ named x, n.columnAlias? = some (named, x) →
        (n.trailingAlias? = some x ∧ n.leadingAlias? d = none) ∨
          (n.trailingAlias? = none ∧ n.leadingAlias? d = some x)) ∧
      d.nodes.Pairwise fun m n => m.span.firstToken ≤ n.span.firstToken := by
  refine ⟨bareAliases_eq (fun _ _ => Node.trailingAlias?_of_none) ?_,
    bareAliases_eq (fun _ _ => Node.sourceAlias?_of_none) ?_, ?_, nodes_ordered h⟩
  · intro n hn named x hx
    rcases columnAlias_cases h hn hx with ⟨htrailing, -, hword⟩ | ⟨htrailing, -, hword⟩
    · exact .inl ⟨htrailing, hword⟩
    · exact .inr ⟨htrailing, hword⟩
  · exact fun n hn named x hx => .inl (tableAlias_cases h hn hx)
  · intro n hn named x hx
    rcases columnAlias_cases h hn hx with ⟨htrailing, hleading, -⟩ | ⟨htrailing, hleading, -⟩
    · exact .inl ⟨htrailing, hleading⟩
    · exact .inr ⟨htrailing, hleading⟩

/-- The words `AS` of conversions, of inner aliases and of another table do not count. -/
theorem bareAliases_exact_conversion : ∃ d,
    parse "SELECT CAST(a AS INT) b, c = 1, (SELECT 2 d) AS e FROM (SELECT 3 AS f) g, h AS i, j /* AS */ k" =
      .ok d ∧
      ((d.nodes.filterMap Node.trailingAlias?).filter fun x => !d.followsAs x).map Ident.value = ["b", "d"] ∧
      ((d.nodes.filterMap Node.sourceAlias?).filter fun x => !d.followsAs x).map Ident.value = ["g", "k"] ∧
      Rule.columnAlias.locations d =
        ((d.nodes.filterMap Node.trailingAlias?).filter fun x => !d.followsAs x).map (fun x => x.span.start) ∧
      Rule.tableAlias.locations d =
        ((d.nodes.filterMap Node.sourceAlias?).filter fun x => !d.followsAs x).map (fun x => x.span.start) := by
  obtain ⟨d, hd, hcolumns, htables⟩ : ∃ d ∈ (parse
      "SELECT CAST(a AS INT) b, c = 1, (SELECT 2 d) AS e FROM (SELECT 3 AS f) g, h AS i, j /* AS */ k").toOption,
      ((d.nodes.filterMap Node.trailingAlias?).filter fun x => !d.followsAs x).map Ident.value = ["b", "d"] ∧
      ((d.nodes.filterMap Node.sourceAlias?).filter fun x => !d.followsAs x).map Ident.value = ["g", "k"] := by
    decide +kernel
  have hd := eq_ok_of_mem_toOption hd
  obtain ⟨hcolumn, htable, -⟩ := bareAliases_exact hd
  exact ⟨d, hd, hcolumns, htables, hcolumn, htable⟩

end Document

end TransactLint
