import Mathlib.Data.List.Nodup
import Mathlib.Data.List.Pairwise
import TransactLint.Proofs.Form.Statement
import TransactLint.Proofs.Spelling
import TransactLint.Proofs.TableRequirements
import TransactLint.Proofs.Termination

/-!
# Indexes inside table definitions

Table elements are read with a trace of the indexes in them, and the trace changes nothing else. A table keeps
all indexes that are elements of their own. A column has room for one index, and a later one takes the place of
an earlier one, so the last index of each element is in the tree and no other is.
-/

namespace TransactLint

/-! ## Parsers that give more -/

namespace Parser

variable {α β γ δ σ τ : Type} {ts : Terminals}

/-- `p` reads what `q` does, and `f` takes what `q` gives from what `p` gives. -/
def Projects (ts : Terminals) (f : α → β) (p : Parser α) (q : Parser β) : Prop :=
  ∀ pos, q ts pos = (p ts pos).map (Prod.map f id)

namespace Projects

variable {f : α → β} {g : γ → δ} {p p' : Parser α} {q q' : Parser β}

theorem pure {a : α} {b : β} (h : f a = b) : Projects ts f (Pure.pure a) (Pure.pure b) := by
  subst h
  exact fun _ => rfl

theorem bind {k : α → Parser γ} {l : β → Parser δ} (hp : Projects ts f p q)
    (hk : ∀ a, Projects ts g (k a) (l (f a))) : Projects ts g (p >>= k) (q >>= l) := by
  intro pos
  have hq := hp pos
  cases hread : p ts pos with
  | error e =>
    rw [hread] at hq
    rw [bind_of_error hread, bind_of_error hq]
    rfl
  | ok r =>
    obtain ⟨a, mid⟩ := r
    rw [hread] at hq
    rw [bind_of_ok hread, bind_of_ok hq]
    exact hk a mid

/-- What both read first they read alike. -/
theorem after {r : Parser σ} {k : σ → Parser γ} {l : σ → Parser δ}
    (hk : ∀ a, Projects ts g (k a) (l a)) :
    Projects ts g (r >>= k) (r >>= l) := by
  refine bind (f := id) (fun pos => ?_) hk
  cases r ts pos <;> rfl

theorem ite {c : Prop} [Decidable c] (hp : Projects ts f p q) (hp' : Projects ts f p' q') :
    Projects ts f (if c then p else p') (if c then q else q') := by
  split
  · exact hp
  · exact hp'

theorem ok (hp : Projects ts f p q) {pos pos' : Nat} {b : β} (h : q ts pos = .ok (b, pos')) :
    ∃ a, p ts pos = .ok (a, pos') ∧ f a = b := by
  rw [hp pos] at h
  cases hread : p ts pos with
  | error e =>
    rw [hread] at h
    cases h
  | ok r =>
    rw [hread] at h
    cases h
    exact ⟨r.1, rfl, rfl⟩

theorem iterate {step : σ → Parser (Option σ)} {step' : τ → Parser (Option τ)} {f : σ → τ}
    (h : ∀ s, Projects ts (Option.map f) (step s) (step' (f s))) (s : σ) :
    Projects ts f (Parser.iterate step s) (Parser.iterate step' (f s)) := by
  have hrounds : ∀ n s, Projects ts f (rounds step n s) (rounds step' n (f s)) := by
    intro n
    induction n with
    | zero => exact fun _ _ => rfl
    | succ n ih =>
      intro s pos
      simp only [rounds, h s pos]
      rcases step s ts pos with e | ⟨_ | s', mid⟩
      · rfl
      · rfl
      · exact ih s' mid
  exact fun pos => hrounds _ s pos

theorem commaSeparated (h : Projects ts f p q) :
    Projects ts (List.map f) (Parser.commaSeparated p) (Parser.commaSeparated q) := by
  have hitem : Projects ts (Option.map f) (optionIf (consume .comma) p) (optionIf (consume .comma) q) :=
    .after fun _ => .ite (h.bind fun _ => .pure rfl) (.pure rfl)
  have hmany : Projects ts (List.map f) (many (optionIf (consume .comma) p))
      (many (optionIf (consume .comma) q)) := by
    refine .bind (f := List.map f) (.iterate (fun found => hitem.bind fun a? => ?_) [])
      fun _ => .pure List.map_reverse
    cases a? <;> exact .pure rfl
  exact h.bind fun _ => hmany.bind fun _ => .pure rfl

end Projects

/-! ## What is not read -/

def Stays (ts : Terminals) (c : Parser Bool) : Prop := ∀ pos mid, c ts pos = .ok (false, mid) → mid = pos

theorem Stays.whether {c : Parser Bool} (hc : Stays ts c) {p q : Parser α} {pos : Nat} {r : α × Nat}
    (h : (c >>= fun b => if b = true then p else q) ts pos = .ok r) : (∃ mid, p ts mid = .ok r) ∨
      q ts pos = .ok r := by
  obtain ⟨b, mid, hb, hrest⟩ := bind_ok h
  cases b with
  | true => exact .inl ⟨mid, hrest⟩
  | false =>
    obtain rfl := hc pos mid hb
    exact .inr hrest

/-- Something is read where `v` holds, and nothing elsewhere. -/
theorem Stays.of_look {v : Terminals → Nat → Bool} {p : Parser Unit} :
    Stays ts (look v >>= fun b => if b = true then (do p; Pure.pure true) else Pure.pure false) := by
  intro pos mid h
  rw [bind_look] at h
  split at h
  · obtain ⟨_, _, _, h⟩ := bind_ok h
    cases h
  · cases h
    rfl

theorem consumeKeyword_stays (word : Keyword) : Stays ts (consumeKeyword word) := .of_look

theorem consumeWord_stays (word : String) : Stays ts (consumeWord word) := .of_look

theorem consumePair_stays (first second : TokenKind) : Stays ts (consumePair first second) := .of_look

theorem KeepsPlace.reads {p : Parser α} {owed : α → Bool} (hp : KeepsPlace ts p owed) :
    Reads ts p fun _ => .none := by
  intro start pos pos' a hL h
  have hle := hL.le
  obtain ⟨hpos, hsize, -⟩ := hp pos hle.2 a pos' h
  exact .none (by omega) hsize

end Parser

namespace Grammar

open TransactLint.Parser

theorem notForReplication_stays {ts : Terminals} : Stays ts notForReplication := by
  intro pos mid h
  rcases (consumePair_stays _ _).whether h with ⟨after, h⟩ | h
  · obtain ⟨_, _, _, h⟩ := bind_ok h
    cases h
  · cases h
    rfl

theorem ignoredColumnWord_stays {ts : Terminals} : Stays ts ignoredColumnWord := by
  intro pos mid h
  rcases (consumeKeyword_stays _).whether h with ⟨after, h⟩ | h
  · cases h
  rcases (consumeWord_stays _).whether h with ⟨after, h⟩ | h
  · cases h
  rcases (consumeWord_stays _).whether h with ⟨after, h⟩ | h
  · cases h
  exact consumeWord_stays _ pos mid h

section
variable {ts : Terminals} {inner : Level} {pos : Nat} {found : ColumnOptions}

/-- Only an index changes which index a column has. -/
theorem columnOption_index {next : ColumnOptions} {mid : Nat} (hword : ts.isKeyword pos .INDEX = false)
    (h : columnOption inner found ts pos = .ok (some next, mid)) : next.index = found.index := by
  rcases (consumeKeyword_stays _).whether h with ⟨_, h⟩ | h
  · cases h
    rfl
  rcases (consumePair_stays _ _).whether h with ⟨_, h⟩ | h
  · cases h
    rfl
  rcases notForReplication_stays.whether h with ⟨_, h⟩ | h
  · cases h
    rfl
  rcases (consumeKeyword_stays _).whether h with ⟨after, h⟩ | h
  · rw [atKind, bind_look] at h
    split at h
    · obtain ⟨_, _, _, h⟩ := bind_ok h
      cases h
      rfl
    · cases h
      rfl
  rcases (consumeKeyword_stays _).whether h with ⟨_, h⟩ | h
  · obtain ⟨_, _, _, h⟩ := bind_ok h
    cases h
    rfl
  rcases ignoredColumnWord_stays.whether h with ⟨_, h⟩ | h
  · cases h
    rfl
  rw [atKeyword, bind_look, hword] at h
  obtain ⟨c?, _, _, h⟩ := bind_ok h
  cases c? <;> cases h
  rfl

/-- At the word `INDEX` no other option begins. -/
theorem columnOption_of_index (hs : ts.Spelled) (hword : ts.isKeyword pos .INDEX = true) :
    columnOption inner found ts pos =
      (indexDefinition inner >>= fun index => pure (some { found with index := some index })) ts pos := by
  obtain ⟨t, ht, hkind⟩ := Terminals.isKind_iff.mp hword
  have hkeyword : ∀ word, word ≠ .INDEX → ts.isKind pos (.keyword word) = false := by
    intro word hne
    simpa [Terminals.isKind, ht, hkind] using hne.symm
  -- the words without a keyword of their own are not `INDEX` either
  have hbare : ∀ word : String, Keyword.ofWord? word.toList = none →
      consumeWord word ts pos = .ok (false, pos) := by
    intro word hnone
    refine consumeWord_of_not ?_
    simp only [Terminals.isWord, ht, (hs pos t ht).not_isWord hkind hnone]
  have hnot : ∀ second, consumePair (.keyword .NOT) second ts pos = .ok (false, pos) := by
    intro second
    rw [consumePair, atPair, bind_look, hkeyword .NOT (by decide)]
    rfl
  have hreplication : notForReplication ts pos = .ok (false, pos) := by
    rw [notForReplication, bind_of_ok (hnot _)]
    rfl
  have hignored : ignoredColumnWord ts pos = .ok (false, pos) := by
    rw [ignoredColumnWord, bind_of_ok (consumeKeyword_of_not (hkeyword .ROWGUIDCOL (by decide))), if_neg (by simp),
      bind_of_ok (hbare "SPARSE" (by decide)), if_neg (by simp), bind_of_ok (hbare "FILESTREAM" (by decide)),
      if_neg (by simp), hbare "PERSISTED" (by decide)]
  rw [columnOption, bind_of_ok (consumeKeyword_of_not (hkeyword .NULL (by decide))), if_neg (by simp),
    bind_of_ok (hnot _), if_neg (by simp), bind_of_ok hreplication, if_neg (by simp),
    bind_of_ok (consumeKeyword_of_not (hkeyword .IDENTITY (by decide))), if_neg (by simp),
    bind_of_ok (consumeKeyword_of_not (hkeyword .COLLATE (by decide))), if_neg (by simp),
    bind_of_ok hignored, if_neg (by simp), atKeyword, bind_look, if_pos hword]

end

/-! ## Traces -/

section
variable (inner : Level)

def tracedOption (found : ColumnOptions × List IndexDefinition) :
    Parser (Option (ColumnOptions × List IndexDefinition)) := do
  if ← atKeyword .INDEX then
    let index ← indexDefinition inner
    pure (some ({ found.1 with index := some index }, found.2 ++ [index]))
  else
    match ← columnOption inner found.1 with
    | some options => pure (some (options, found.2))
    | none => pure none

def tracedColumn : Parser (ColumnDefinition × List IndexDefinition) := do
  let start ← position
  let name ← ident
  let (type, computed) ← columnType inner
  let (options, indexes) ← iterate (tracedOption inner) (.none, [])
  let span ← spanFrom start
  pure (⟨name, type, computed, options.nullable, options.identity, options.constraints.reverse,
    options.index, span⟩, indexes)

def tracedElement : Parser (TableElement × List IndexDefinition) := do
  if ← atKeyword .INDEX then
    let index ← indexDefinition inner
    pure (.index index, [index])
  else
    match ← constraint inner with
    | some c => pure (.constraint c, [])
    | none =>
      let (column, indexes) ← tracedColumn inner
      pure (.column column, indexes)

def tracedElements : Parser (List (TableElement × List IndexDefinition)) := commaSeparated (tracedElement inner)

def tracedDefinition : Parser (List (TableElement × List IndexDefinition)) := do
  expect .leftParen
  let elements ← tracedElements inner
  expect .rightParen
  pure elements

end

section
variable {ts : Terminals} {inner : Level}

theorem tracedOption_projects (hs : ts.Spelled) (found : ColumnOptions × List IndexDefinition) :
    Projects ts (Option.map Prod.fst) (tracedOption inner found) (columnOption inner found.1) := by
  intro pos
  rw [tracedOption, atKeyword, bind_look]
  by_cases hword : ts.isKeyword pos .INDEX = true
  · rw [columnOption_of_index hs hword, if_pos hword]
    exact Projects.after (g := Option.map Prod.fst) (k := fun index => pure (some (_, found.2 ++ [index])))
      (fun index => .pure rfl) pos
  · rw [if_neg hword]
    cases hread : columnOption inner found.1 ts pos with
    | error e =>
      rw [bind_of_error hread]
      rfl
    | ok r =>
      obtain ⟨options?, mid⟩ := r
      rw [bind_of_ok hread]
      cases options? <;> rfl

theorem tracedColumn_projects (hs : ts.Spelled) :
    Projects ts Prod.fst (tracedColumn inner) (columnDefinition inner) :=
  .after fun _ => .after fun _ => .after fun _ => (Projects.iterate (tracedOption_projects hs) _).bind fun _ =>
    .after fun _ => .pure rfl

theorem tracedElement_projects (hs : ts.Spelled) :
    Projects ts Prod.fst (tracedElement inner) (tableElement inner) := by
  refine .after fun _ => .ite (.after fun _ => .pure rfl) (.after fun c? => ?_)
  cases c? with
  | none => exact (tracedColumn_projects hs).bind fun _ => .pure rfl
  | some c => exact .pure rfl

theorem tracedElements_projects (hs : ts.Spelled) :
    Projects ts (List.map Prod.fst) (tracedElements inner) (tableElements inner) :=
  (tracedElement_projects hs).commaSeparated

theorem tracedDefinition_projects (hs : ts.Spelled) : Projects ts (List.map Prod.fst) (tracedDefinition inner) (do
    expect .leftParen
    let elements ← tableElements inner
    expect .rightParen
    pure elements) :=
  .after fun _ => (tracedElements_projects hs).bind fun _ => .after fun _ => .pure rfl

/-! ## What is kept -/

def TableElement.index? : TableElement → Option IndexDefinition
  | .column c => c.index
  | .constraint _ => none
  | .index i => some i

theorem tracedColumn_index : Yields ts (tracedColumn inner) fun x => x.1.index = x.2.getLast? := by
  refine .after fun _ => .after fun _ => .after fun _ => ?_
  refine .bind (P := fun x => x.1.index = x.2.getLast?) ?_ fun x hx => .after fun _ => .pure hx
  intro pos x pos' h
  -- the column has the index that was read last, whatever else has been read since
  refine (iterate_keeps (I := fun x _ => x.1.index = x.2.getLast?) ?_ rfl h).elim fun _ hx => hx
  intro found next pos mid hfound hround
  rw [tracedOption, atKeyword, bind_look] at hround
  by_cases hword : ts.isKeyword pos .INDEX = true
  · rw [if_pos hword] at hround
    obtain ⟨index, _, _, hround⟩ := bind_ok hround
    cases hround
    simp
  · rw [if_neg hword] at hround
    obtain ⟨options?, _, hread, hround⟩ := bind_ok hround
    cases options? with
    | none => cases hround
    | some options =>
      cases hround
      exact (columnOption_index (by simpa using hword) hread).trans hfound

theorem tracedElements_index :
    Yields ts (tracedElements inner) fun l => ∀ x ∈ l, x.1.index? = x.2.getLast? := by
  refine .commaSeparated (.after fun _ => .ite (.after fun _ => .pure rfl) (.after fun c? => ?_))
  cases c? with
  | none => exact tracedColumn_index.bind fun x hx => .pure hx
  | some c => exact .pure rfl

theorem mem_allIndexes_definitionOf {elements : List TableElement} {span : Span} {i : IndexDefinition} :
    i ∈ (definitionOf elements span).allIndexes ↔ ∃ x ∈ elements, x.index? = some i := by
  simp only [TableDefinition.allIndexes, definitionOf, List.mem_append, List.mem_flatMap, List.mem_filterMap,
    Option.mem_toList]
  constructor
  · rintro (⟨x, hx, hi⟩ | ⟨c, ⟨x, hx, hc⟩, hi⟩)
    · cases x <;> cases hi
      exact ⟨_, hx, rfl⟩
    · cases x <;> cases hc
      exact ⟨_, hx, hi⟩
  · rintro ⟨x, hx, hi⟩
    cases x with
    | column c => exact .inr ⟨c, ⟨_, hx, rfl⟩, hi⟩
    | constraint c => cases hi
    | index j => exact .inl ⟨_, hx, hi⟩

/-! ## Where the indexes stand -/

theorem columnOption_reads (n : Nat) (found : ColumnOptions) :
    Reads ts (columnOption (level n) found) fun _ => .none := by
  have hinner : (level n).Agrees ts 1 (level n) := (level_agrees (R := .standard) n).toAgrees.later
  exact (columnOption_agrees (R := .standard) hinner found).keepsPlace.reads

theorem tracedOption_lays (n start : Nat) (found : ColumnOptions × List IndexDefinition) :
    Lays ts start (.read ++ .ofNodes (found.2.map .index)) (tracedOption (level n) found)
      fun found? => .read ++ .ofNodes ((found?.getD found).2.map .index) := by
  refine .look fun _ => .ite (fun _ => ?_) fun _ => ?_
  · exact (indexDefinition_reads (level_reads n)).then fun index => .pure (.of_eq (by simp) (by simp))
  · refine (columnOption_reads n found.1).then fun options? => ?_
    cases options? <;> exact .pure (.of_eq (by simp) (by simp))

theorem tracedColumn_reads (n : Nat) : Reads ts (tracedColumn (level n)) fun x => ⟨true, x.2.map .index⟩ := by
  refine .position fun start => ident_reads.then fun name => (columnType_reads (level_reads n)).then fun x => ?_
  refine Lays.bind (.weaken ⟨?_, by simp⟩ (Lays.iterate (tracedOption_lays n start) (.none, [])))
    fun options => ?_
  · exact List.nil_subperm
  · exact .look fun span => .pure (.of_eq (by simp) (by simp))

theorem tracedElements_reads (n : Nat) :
    Reads ts (tracedElements (level n)) fun l => ⟨true, l.flatMap fun x => x.2.map .index⟩ := by
  refine Reads.commaSeparated fun start => .look fun _ => .ite (fun _ => ?_) fun _ => ?_
  · exact (indexDefinition_reads (level_reads n)).then fun index => .pure (.of_eq (by simp) (by simp))
  refine (constraint_reads (level_reads n)).then fun c? => ?_
  cases c? with
  | none => exact (tracedColumn_reads n).then fun x => .pure (.of_eq (by simp) (by simp))
  | some c => exact .pure ⟨List.nil_subperm, by simp⟩

end

/-- No index is read twice. -/
theorem tracedElements_nodup {ts : Terminals} (ho : ts.Ordered) {n pos pos' : Nat}
    {read : List (TableElement × List IndexDefinition)}
    (hpos : pos ≤ ts.size) (h : tracedElements (level n) ts pos = .ok (read, pos')) :
    (read.flatMap Prod.snd).Nodup := by
  obtain ⟨ns, hperm, hrow⟩ := (tracedElements_reads n pos pos pos' read (.none (Nat.le_refl _) hpos) h).row
  have hnodes : ns.Nodup := hrow.pairwise fun m m' i j k l hm hm' hjk heq => by
    have hij := hm.lt
    have hlt := (hm.firstToken_lt_iff ho hm').mpr (by omega)
    exact absurd hlt (by simp [heq])
  refine List.Nodup.of_map Node.index ?_
  rw [List.map_flatMap]
  exact hperm.nodup hnodes

end Grammar

/-! ## Definitions of documents -/

/-- Where no element occurs twice, all come last in their lists exactly if no list has more than one. -/
theorem all_getLast?_iff {α β : Type} {l : List (α × List β)} (hnodup : (l.flatMap Prod.snd).Nodup) :
    (∀ x ∈ l, ∀ b ∈ x.2, ∃ y ∈ l, y.2.getLast? = some b) ↔ ∀ x ∈ l, x.2.length ≤ 1 := by
  obtain ⟨hinside, hapart⟩ := List.nodup_flatMap.mp hnodup
  have hsymm : Std.Symm (Function.onFun List.Disjoint (Prod.snd : α × List β → List β)) :=
    ⟨fun _ _ h _ hb ha => h ha hb⟩
  have hunique : ∀ x ∈ l, ∀ y ∈ l, ∀ b ∈ x.2, b ∈ y.2 → x = y := by
    intro x hx y hy b hbx hby
    by_contra hne
    exact hapart.forall hx hy hne hbx hby
  constructor
  · intro hall x hx
    rcases hbs : x.2 with _ | ⟨b, _ | ⟨c, bs⟩⟩
    · simp
    · simp
    · -- the first of several would have to be the last of the same list
      obtain ⟨y, hy, hlast⟩ := hall x hx b (by simp [hbs])
      obtain rfl := hunique x hx y hy b (by simp [hbs]) (List.mem_of_getLast? hlast)
      have honce := hinside x hx
      rw [hbs, List.nodup_cons] at honce
      rw [hbs, List.getLast?_cons_cons] at hlast
      exact absurd (List.mem_of_getLast? hlast) honce.1
  · intro hone x hx b hb
    obtain ⟨c, hc⟩ := List.length_eq_one_iff.mp (Nat.le_antisymm (hone x hx) (List.length_pos_of_mem hb))
    rw [hc, List.mem_singleton] at hb
    exact ⟨x, hx, by rw [hc, hb]; rfl⟩

namespace TableDefinition

open Grammar

/-- The definition has been read as these elements, each with the indexes that have been read in it. -/
def ReadAs (ts : Terminals) (t : TableDefinition) (read : List (TableElement × List IndexDefinition)) : Prop :=
  ∃ n, ∃ p ∈ [tracedDefinition (level n), tracedElements (level n)],
    ∃ a b, p ts a = .ok (read, b) ∧ t = definitionOf (read.map Prod.fst) (ts.span a b)

section
variable {ts : Terminals} {t : TableDefinition} {read : List (TableElement × List IndexDefinition)}

theorem exists_readAs (hs : ts.Spelled) (h : t.Proper ts) : ∃ read, t.ReadAs ts read := by
  obtain ⟨n, p, hp, a, b, hread⟩ := h
  rcases List.mem_pair.mp hp with rfl | rfl
  · obtain ⟨elements, helements, rfl⟩ := Parser.spanned_ok hread
    obtain ⟨read, htraced, rfl⟩ := (tracedDefinition_projects hs).ok helements
    exact ⟨read, n, _, List.mem_cons_self, a, b, htraced, rfl⟩
  · obtain ⟨elements, helements, rfl⟩ := Parser.spanned_ok hread
    obtain ⟨read, htraced, rfl⟩ := (tracedElements_projects hs).ok helements
    exact ⟨read, n, _, List.mem_cons_of_mem _ List.mem_cons_self, a, b, htraced, rfl⟩

theorem ReadAs.elements (h : t.ReadAs ts read) :
    ∃ n pos pos', (t.span.offset < t.span.stop → pos ≤ ts.size) ∧
    tracedElements (level n) ts pos = .ok (read, pos') := by
  obtain ⟨n, p, hp, a, b, hread, rfl⟩ := h
  rcases List.mem_pair.mp hp with rfl | rfl
  · obtain ⟨_, mid, hparen, hread⟩ := Parser.bind_ok hread
    obtain ⟨elements, last, hread, hrest⟩ := Parser.bind_ok hread
    obtain ⟨_, _, _, hrest⟩ := Parser.bind_ok hrest
    cases hrest
    obtain ⟨hkind, rfl⟩ := Parser.expect_ok hparen
    exact ⟨n, a + 1, last, fun _ => Parser.isKind_lt hkind, hread⟩
  · refine ⟨n, a, b, fun hlt => ?_, hread⟩
    by_contra hsize
    have hnone : ts[a]? = none := Array.getElem?_eq_none (by omega)
    have hempty : ts.span a b = .empty := by simp only [Terminals.span, hnone]
    simp [definitionOf, hempty, Span.stop, Span.empty] at hlt

theorem ReadAs.mem_allIndexes (h : t.ReadAs ts read) {i : IndexDefinition} :
    i ∈ t.allIndexes ↔ ∃ x ∈ read, x.2.getLast? = some i := by
  obtain ⟨m, pos, pos', _, hread⟩ := h.elements
  have hkept := tracedElements_index pos read pos' hread
  obtain ⟨n, p, hp, a, b, _, rfl⟩ := h
  simp only [mem_allIndexes_definitionOf, List.mem_map, exists_exists_and_eq_and]
  refine exists_congr fun x => and_congr_right fun hx => ?_
  rw [hkept x hx]

end

end TableDefinition

def Node.tableDefinition? : Node → Option TableDefinition
  | .tableDefinition t => some t
  | _ => none

theorem Node.mem_filterMap_tableDefinition? {ns : List Node} {t : TableDefinition} :
    t ∈ ns.filterMap tableDefinition? ↔ .tableDefinition t ∈ ns := by
  rw [List.mem_filterMap]
  constructor
  · rintro ⟨n, hn, hsome⟩
    unfold tableDefinition? at hsome
    split at hsome <;> cases hsome
    exact hn
  · exact fun h => ⟨_, h, rfl⟩

namespace Document

/-- Of the indexes read in a table definition, the last of each element is in the tree and no other is. So all are
there exactly if no column has two, and the rules that ask for an index of a table see these. -/
theorem inline_indexes_kept {sql : String} {d : Document} (h : parse sql = .ok d) {t : TableDefinition}
    (ht : .tableDefinition t ∈ d.nodes) :
    (∃ read, t.ReadAs d.terminals read) ∧ ∀ read, t.ReadAs d.terminals read →
      (∀ i, .index i ∈ (Node.tableDefinition t).preorder ↔ ∃ x ∈ read, x.2.getLast? = some i) ∧
      ((∀ x ∈ read, ∀ i ∈ x.2, .index i ∈ (Node.tableDefinition t).preorder) ↔
        ∀ x ∈ read, x.2.length ≤ 1) ∧
      ∀ rule r, (rule, r) ∈ [(Rule.heapTable, TableRequirement.clustered), (.rowIdentity, .identified)] →
        (∃ x ∈ read, ∃ i ∈ x.2.getLast?, r.index i = true) →
        ∀ name s, .statement s ∈ d.nodes → s.kind = .createTable name t ∨
          s.kind = .alterTable name (.add t) →
          ∀ created ∈ d.nodes.filterMap Node.createTable?, TableKey.ofName? created = TableKey.ofName? name →
            rule.violationAt created.location ∉ rule.violations d := by
  have htokens := (parse_ok h).1
  have ho := terminals_ordered h
  obtain ⟨a, b, hstands⟩ := stands_of_ne_script h (Node.mem_preorder.mp ht) nofun
  refine ⟨TableDefinition.exists_readAs (Terminals.spelled_of_tokenize htokens) (proper_of_mem h ht),
    fun read hread => ?_⟩
  have hkept : ∀ i, .index i ∈ (Node.tableDefinition t).preorder ↔ ∃ x ∈ read, x.2.getLast? = some i := by
    intro i
    rw [Node.mem_preorder, TableDefinition.reaches_index, hread.mem_allIndexes]
  refine ⟨hkept, ?_, ?_⟩
  · obtain ⟨n, pos, pos', hpos, helements⟩ := hread.elements
    simp only [hkept]
    exact all_getLast?_iff (Grammar.tracedElements_nodup ho (hpos (hstands.offset_lt_stop ho)) helements)
  · rintro rule r hrule ⟨x, hx, i, hi, haccepts⟩ name s hs hkind created hcreated hkey hmem
    have hindex := (hkept i).mpr ⟨x, hx, hi⟩
    have hlocations : rule.locations d = r.locations d := by
      rcases List.mem_pair.mp hrule with hr | hr <;> cases hr <;> rfl
    obtain ⟨place, hplace, hviolation⟩ := List.mem_map.mp hmem
    obtain rfl : place = created.location := congrArg Violation.location hviolation
    rw [hlocations] at hplace
    -- the statement that has the index satisfies the requirement for its table
    refine r.not_mem_locations h hcreated (fun key hsome => ?_) hplace
    rw [hkey] at hsome
    obtain ⟨kind, span⟩ := s
    rcases hkind with rfl | rfl
    · exact .createTable hs hsome hindex haccepts
    · exact .alterTable hs hsome hindex haccepts

/-- One index is an element of the table, the other stands at a column. -/
theorem inline_indexes_kept_once :
    ∃ d t, parse "CREATE TABLE t (a INT INDEX i UNIQUE, INDEX j CLUSTERED (a))" = .ok d ∧
      .tableDefinition t ∈ d.nodes ∧ t.allIndexes.map (fun i => i.name.value) = ["j", "i"] ∧
      ∃ read, t.ReadAs d.terminals read ∧ ∀ i ∈ t.allIndexes, ∃ x ∈ read, x.2.getLast? = some i := by
  obtain ⟨d, hd, t, ht, hnames⟩ :
      ∃ d ∈ (parse "CREATE TABLE t (a INT INDEX i UNIQUE, INDEX j CLUSTERED (a))").toOption,
        ∃ t ∈ d.nodes.filterMap Node.tableDefinition?,
        t.allIndexes.map (fun i => i.name.value) = ["j", "i"] := by
    decide +kernel
  have hd := eq_ok_of_mem_toOption hd
  have ht := Node.mem_filterMap_tableDefinition?.mp ht
  obtain ⟨⟨read, hread⟩, hall⟩ := inline_indexes_kept hd ht
  refine ⟨d, t, hd, ht, hnames, read, hread, fun i hi => ((hall read hread).1 i).mp ?_⟩
  exact Node.mem_preorder.mpr (TableDefinition.reaches_index.mpr hi)

/-- The first index of the column is read and then forgotten, though it would satisfy both rules. -/
theorem inline_index_lost :
    let sql := "CREATE TABLE t (a INT INDEX i UNIQUE CLUSTERED INDEX j)"
    ∃ d t read b i, parse sql = .ok d ∧ .tableDefinition t ∈ d.nodes ∧
      Grammar.tracedDefinition (Grammar.level (nestingLimit - 1)) d.terminals 3 = .ok (read, b) ∧
        t.span = d.terminals.span 3 b ∧
      (∃ x ∈ read, i ∈ x.2) ∧ TableRequirement.clustered.index i = true ∧
        TableRequirement.identified.index i = true ∧
      .index i ∉ d.nodes ∧ (Rule.heapTable.violations d).map Violation.location = [⟨1, 14⟩] ∧
      (Rule.rowIdentity.violations d).map Violation.location = [⟨1, 14⟩] := by
  intro sql
  obtain ⟨d, hd, ⟨read, b⟩, hread, ⟨x, hx, i, hi, hclustered, hunique⟩, ⟨t, ht, hspan⟩, hnone,
      hheap, hidentity⟩ :
      ∃ d ∈ (parse sql).toOption,
        ∃ r ∈ (Grammar.tracedDefinition (Grammar.level (nestingLimit - 1)) d.terminals 3).toOption,
        (∃ x ∈ r.1, ∃ i ∈ x.2, TableRequirement.clustered.index i = true ∧
          TableRequirement.identified.index i = true) ∧
        (∃ t ∈ d.nodes.filterMap Node.tableDefinition?, t.span = d.terminals.span 3 r.2) ∧
        (∀ n ∈ d.nodes, TableRequirement.identified.accepts n = false) ∧
        (Rule.heapTable.violations d).map Violation.location = [⟨1, 14⟩] ∧
        (Rule.rowIdentity.violations d).map Violation.location = [⟨1, 14⟩] := by
    decide +kernel
  refine ⟨d, t, read, b, i, eq_ok_of_mem_toOption hd, Node.mem_filterMap_tableDefinition?.mp ht,
    eq_ok_of_mem_toOption hread, hspan, ⟨x, hx, hi⟩, hclustered, hunique, fun hmem => ?_, hheap, hidentity⟩
  have hlost := hnone _ hmem
  rw [TableRequirement.accepts, hunique] at hlost
  cases hlost

end Document

end TransactLint
