import TransactLint.Proofs.Excerpt.Definition
import TransactLint.Proofs.Gap
import TransactLint.Rule.TableRequirement

/-!
# What a table key tells

A key is one text, with periods between the parts of the name. So it tells the pieces between all periods, those
inside of parts too, and not which of them stood in a part of their own; and a part that is left out leaves no
trace. Names without such periods and with all their parts have the same key only if they have the same parts.
-/

namespace TransactLint

open TransactLint.Parser

/-! ## Joined texts -/

/-- Splitting a joined text splits the texts. -/
theorem splitOn_intercalate_eq_flatMap {c : Char} {l : List (List Char)} (hl : l ≠ []) :
    ([c].intercalate l).splitOn c = l.flatMap (List.splitOn c) := by
  induction l with
  | nil => exact absurd rfl hl
  | cons x l ih =>
    cases l with
    | nil => simp
    | cons y l =>
      rw [List.intercalate_cons_cons, List.append_assoc, List.singleton_append, List.flatMap_cons,
        ← ih (List.cons_ne_nil y l)]
      exact List.splitOnP_append_cons _ _ (beq_self_eq_true c)

theorem intercalate_eq_iff {c : Char} {l l' : List (List Char)} (hl : l ≠ []) (hl' : l' ≠ []) :
    [c].intercalate l = [c].intercalate l' ↔ l.flatMap (List.splitOn c) = l'.flatMap (List.splitOn c) := by
  rw [← splitOn_intercalate_eq_flatMap hl, ← splitOn_intercalate_eq_flatMap hl']
  refine ⟨congrArg _, fun h => ?_⟩
  calc
    [c].intercalate l = [c].intercalate (([c].intercalate l).splitOn c) := (List.intercalate_splitOn c).symm
    _ = [c].intercalate (([c].intercalate l').splitOn c) := by rw [h]
    _ = [c].intercalate l' := List.intercalate_splitOn c

/-! ## Periods in lower case -/

namespace Text

theorem trimStart_subset (cs : List Char) : trimStart cs ⊆ cs := (List.dropWhile_sublist _).subset

theorem trim_subset (cs : List Char) : trim cs ⊆ cs := by
  intro c hc
  exact trimStart_subset cs (List.mem_reverse.mp (trimStart_subset _ (List.mem_reverse.mp hc)))

theorem ofNat_ne_period {n : Nat} (hn : 46 < n) : Char.ofNat n ≠ '.' := by
  intro h
  by_cases hvalid : n.isValidChar
  · have hofNat : Char.ofNat n = Char.ofNatAux n hvalid := dif_pos hvalid
    have htoNat : n = 46 := congrArg Char.toNat (hofNat.symm.trans h)
    omega
  · have hofNat : Char.ofNat n = '\x00' := dif_neg hvalid
    exact absurd (hofNat.symm.trans h) (by decide)

theorem toLower_eq_period {c : Char} (h : c.toLower = '.') : c = '.' := by
  unfold Char.toLower at h
  split at h
  · rename_i hupper
    have hval : c.val + ('a'.val - 'A'.val) = '.'.val := congrArg Char.val h
    have hval' := congrArg UInt32.toNat hval
    have h1 := UInt32.le_iff_toNat_le.mp hupper.1
    have h2 := UInt32.le_iff_toNat_le.mp hupper.2
    simp at hval' h1 h2
    omega
  · exact h

theorem period_mem_lowerChar {c : Char} (h : '.' ∈ lowerChar c) : c = '.' := by
  have htargets : ∀ run ∈ caseRuns, 46 < run.target := by decide +kernel
  unfold lowerChar at h
  split at h
  · exact toLower_eq_period (List.mem_singleton.mp h).symm
  · split at h
    · exact absurd h (by decide)
    · split at h
      · rename_i n hn
        obtain ⟨run, hrun, happly⟩ := List.exists_of_findSome?_eq_some hn
        have hle : 46 < n := by
          unfold CaseRun.apply? at happly
          split at happly
          · cases happly
            exact Nat.lt_add_right _ (htargets run hrun)
          · cases happly
        exact absurd (List.mem_singleton.mp h).symm (ofNat_ne_period hle)
      · exact (List.mem_singleton.mp h).symm

theorem period_mem_lower {cs : List Char} (h : '.' ∈ lower cs) : '.' ∈ cs := by
  have hfrom : ∀ before, '.' ∈ lowerFrom before cs → '.' ∈ cs := by
    clear h
    induction cs with
    | nil => exact fun _ h => h
    | cons c cs ih =>
      intro before h
      rw [lowerFrom] at h
      rcases List.mem_append.mp h with h | h
      · split at h
        · unfold lowerSigma at h
          split at h <;> simp at h
        · rw [period_mem_lowerChar h]
          exact List.mem_cons_self
      · exact List.mem_cons_of_mem _ (ih _ h)
  exact hfrom [] h

end Text

/-! ## The parts of a name -/

namespace Terminals

/-- The tokens between the periods from `start` to before `stop`. In a name there is one for each part, and none for
a part that is left out. -/
def writtenParts (ts : Terminals) (start stop : Nat) : List (List Token) :=
  (ts.within start stop).splitOnP fun t => t.kind == .period

/-- At most one token stands between two periods, and these tokens have the given values. -/
structure Parts (ts : Terminals) (start stop : Nat) (values : List String) : Prop where
  values_eq : (ts.writtenParts start stop).flatten.map Token.value = values
  single : ∀ part ∈ ts.writtenParts start stop, part.length ≤ 1

namespace Parts

variable {ts : Terminals} {start stop : Nat} {values : List String} {t : Token}

theorem first (ht : ts.token? start = some t) (hkind : t.kind ≠ .period) :
    ts.Parts start (start + 1) [t.value] := by
  have hparts : ts.writtenParts start (start + 1) = [[t]] := by
    rw [writtenParts, within_succ (Nat.le_refl _) ht, within_self]
    exact List.splitOnP_eq_singleton (by simpa using hkind)
  exact ⟨by simp [hparts], by simp [hparts]⟩

/-- One more part of at most one token. -/
theorem append (h : ts.Parts start stop values) {stop' : Nat} {part : List Token} (hpart : part.length ≤ 1)
    (hparts : ts.writtenParts start stop' = ts.writtenParts start stop ++ [part]) :
    ts.Parts start stop' (values ++ part.map Token.value) := by
  refine ⟨by simp [hparts, ← h.values_eq], ?_⟩
  rw [hparts, List.forall_mem_append, List.forall_mem_singleton]
  exact ⟨h.single, hpart⟩

theorem period (h : ts.Parts start stop values) (hle : start ≤ stop) (hperiod : ts.isKind stop .period = true) :
    ts.Parts start (stop + 1) values := by
  obtain ⟨t, ht, hkind⟩ := isKind_iff.mp hperiod
  have hparts : ts.writtenParts start (stop + 1) = ts.writtenParts start stop ++ [[]] := by
    rw [writtenParts, within_succ hle ht]
    exact List.splitOnP_append_cons _ _ (by simp [hkind])
  simpa using h.append (by simp) hparts

theorem periods {last : Nat} (h : ts.Parts start stop values) (hle : start ≤ stop) (hlast : stop ≤ last)
    (hperiods : ∀ i, stop ≤ i → i < last → ts.isKind i .period = true) : ts.Parts start last values := by
  induction hlast with
  | refl => exact h
  | step hlast ih =>
    have hbefore := ih fun i hi hlt => hperiods i hi (Nat.lt_succ_of_lt hlt)
    exact hbefore.period (Nat.le_trans hle hlast) (hperiods _ hlast (Nat.lt_succ_self _))

theorem part (h : ts.Parts start stop values) (hle : start ≤ stop) (hperiod : ts.isKind stop .period = true)
    (ht : ts.token? (stop + 1) = some t) (hkind : t.kind ≠ .period) :
    ts.Parts start (stop + 2) (values ++ [t.value]) := by
  obtain ⟨u, hu, hperiod⟩ := isKind_iff.mp hperiod
  have hsingle : [t].splitOnP (fun t => t.kind == .period) = [[t]] :=
    List.splitOnP_eq_singleton (by simpa using hkind)
  have hparts : ts.writtenParts start (stop + 2) = ts.writtenParts start stop ++ [[t]] := by
    rw [writtenParts, within_succ (Nat.le_succ_of_le hle) ht, within_succ hle hu, List.append_assoc,
      List.singleton_append, List.splitOnP_append_cons _ _ (by simp [hperiod]), hsingle, writtenParts]
  exact h.append (by simp) hparts

end Parts

end Terminals

namespace Grammar

variable {ts : Terminals} {start pos pos' : Nat} {x : Ident} {values : List String}

theorem ident_part (h : ident ts pos = .ok (x, pos')) :
    ∃ t, ts.token? pos = some t ∧ t.kind ≠ .period ∧ x.value = t.value ∧ pos' = pos + 1 := by
  obtain ⟨t, ht, hident, hvalue, rfl⟩ := ident_ok h
  refine ⟨t, ht, fun hkind => ?_, hvalue, rfl⟩
  simp [Token.isIdentifier, hkind, TokenKind.isIdentifier] at hident

theorem periods_ok {u : Unit} (h : repeatWhile (consume .period) ts pos = .ok (u, pos')) :
    pos ≤ pos' ∧ ∀ i, pos ≤ i → i < pos' → ts.isKind i .period = true := by
  refine repeatWhile_keeps (P := fun mid => pos ≤ mid ∧ ∀ i, pos ≤ i → i < mid →
    ts.isKind i .period = true)
    (fun mid hmid hkind => ?_) ⟨Nat.le_refl _, fun i hi hlt => by omega⟩ h
  refine ⟨Nat.le_succ_of_le hmid.1, fun i hi hlt => ?_⟩
  rcases Nat.lt_or_eq_of_le (Nat.le_of_lt_succ hlt) with hlt | rfl
  · exact hmid.2 i hi hlt
  · exact hkind

/-- One or more periods and a part. -/
theorem nextPart_ok (h : nextPart ts pos = .ok (some x, pos')) : ∃ last t, pos ≤ last ∧
    (∀ i, pos ≤ i → i ≤ last → ts.isKind i .period = true) ∧ ts.token? (last + 1) = some t ∧
      t.kind ≠ .period ∧ x.value = t.value ∧ pos' = last + 2 := by
  rw [nextPart, optionIf, bind_look] at h
  split at h
  · rename_i hlook
    obtain ⟨y, _, hpart, h⟩ := bind_ok h
    cases h
    obtain ⟨_, mid, hperiods, hident⟩ := bind_ok hpart
    obtain ⟨hle, hperiods⟩ := periods_ok hperiods
    obtain ⟨t, ht, hkind, hvalue, rfl⟩ := ident_part hident
    -- the first period has been read, for no part begins with it
    have hlt : pos < mid := by
      refine Nat.lt_of_le_of_ne hle ?_
      rintro rfl
      simp only [Bool.and_eq_true] at hlook
      obtain ⟨u, hu, hperiod⟩ := Terminals.isKind_iff.mp hlook.1
      cases ht.symm.trans hu
      exact hkind hperiod
    obtain ⟨last, rfl⟩ : ∃ last, mid = last + 1 := ⟨mid - 1, by omega⟩
    exact ⟨last, t, by omega, fun i hi hlast => hperiods i hi (by omega), ht, hkind, hvalue, rfl⟩
  · cases h

theorem nextPart_lt (h : nextPart ts pos = .ok (some x, pos')) : pos < pos' ∧ pos' ≤ ts.size := by
  obtain ⟨last, t, hpos, -, ht, -, -, rfl⟩ := nextPart_ok h
  have hlt : last + 1 < ts.size := token?_isSome (by rw [ht]; rfl)
  omega

theorem nextPart_none (h : nextPart ts pos = .ok (none, pos')) : pos' = pos := by
  rw [nextPart, optionIf, bind_look] at h
  split at h
  · obtain ⟨_, _, -, h⟩ := bind_ok h
    cases h
  · cases h
    rfl

theorem nextPart_parts (hparts : ts.Parts start pos values) (hle : start ≤ pos)
    (h : nextPart ts pos = .ok (some x, pos')) : ts.Parts start pos' (values ++ [x.value]) := by
  obtain ⟨last, t, hpos, hperiods, ht, hkind, hvalue, rfl⟩ := nextPart_ok h
  have hlast := hparts.periods hle hpos fun i hi hlt => hperiods i hi (Nat.le_of_lt hlt)
  rw [hvalue]
  exact hlast.part (Nat.le_trans hle hpos) (hperiods last hpos (Nat.le_refl _)) ht hkind

theorem readsAll_nextPart {rest : List Ident} (hparts : ts.Parts start pos values) (hle : start ≤ pos)
    (h : ReadsAll nextPart ts pos rest pos') : ts.Parts start pos' (values ++ rest.map Ident.value) := by
  induction rest generalizing pos values with
  | nil =>
    obtain rfl : pos = pos' := h
    simpa using hparts
  | cons x rest ih =>
    obtain ⟨mid, hx, hlt, -, hrest⟩ := h
    simpa using ih (nextPart_parts hparts hle hx) (Nat.le_trans hle (Nat.le_of_lt hlt)) hrest

/-- A name gives the values of what is written between its periods. -/
theorem objectName_parts {name : ObjectName} (h : objectName ts start = .ok (name, pos)) :
    ts.Parts start pos (name.parts.map Ident.value) := by
  obtain ⟨parts, hparts, rfl⟩ := spanned_ok h
  -- a variable or a name first, and the parts after either
  have hrest : ∀ {first : Ident} {t : Token}, ts.token? start = some t → t.kind ≠ .period →
      first.value = t.value →
      (many nextPart >>= fun rest => pure (first :: rest)) ts (start + 1) = .ok (parts, pos) →
        ts.Parts start pos (parts.map Ident.value) := by
    intro first t ht hkind hvalue hrest
    obtain ⟨rest, _, hmany, hrest⟩ := bind_ok hrest
    cases hrest
    obtain ⟨mid, hall, hend⟩ := readsAll_of_many (fun _ _ _ hitem => nextPart_lt hitem) hmany
    obtain rfl := nextPart_none hend
    simpa [hvalue] using readsAll_nextPart (.first ht hkind) (Nat.le_succ start) hall
  rw [atKind, bind_look] at hparts
  split at hparts
  · obtain ⟨first, mid, hfirst, hparts⟩ := bind_ok hparts
    obtain ⟨t, ht, hkind, hvalue, rfl⟩ := variableName_ok hfirst
    exact hrest ht (by simp [hkind]) hvalue hparts
  · obtain ⟨first, mid, hfirst, hparts⟩ := bind_ok hparts
    obtain ⟨t, ht, hkind, hvalue, rfl⟩ := ident_part hfirst
    exact hrest ht hkind hvalue hparts

end Grammar

/-! ## Keys -/

namespace TableKey

variable {key key' : TableKey} {values values' : List String} {parts parts' : List (List Token)}

def folded (value : String) : List Char := Text.lower (Text.trim value.toList)

theorem period_mem_folded {value : String} (h : '.' ∈ folded value) : '.' ∈ value.toList :=
  Text.trim_subset _ (Text.period_mem_lower h)

theorem canonical_eq (h : ofParts? values = some key) :
    values ≠ [] ∧ key.canonical.toList = ['.'].intercalate (values.map folded) := by
  unfold ofParts? at h
  dsimp only at h
  split at h
  · cases h
  · rename_i hgiven
    cases h
    refine ⟨?_, ?_⟩
    · rintro rfl
      simp at hgiven
    · rw [String.toList_intercalate, List.map_map, List.map_map]
      exact congrArg _ (List.map_congr_left fun _ _ => String.toList_ofList)

theorem ofParts?_of_ofName? {name : ObjectName} (h : ofName? name = some key) :
    ofParts? (name.parts.map Ident.value) = some key := by
  unfold ofName? at h
  split at h
  · cases h
  · split at h
    · cases h
    · exact h

/-- The texts between all periods of a name, those inside of its parts too. -/
def pieces (parts : List (List Token)) : List (List Char) :=
  parts.flatten.flatMap fun t => (folded t.value).splitOn '.'

theorem eq_iff_pieces (h : ofParts? (parts.flatten.map Token.value) = some key)
    (h' : ofParts? (parts'.flatten.map Token.value) = some key') : key = key' ↔ pieces parts = pieces parts' := by
  have hpieces : ∀ parts : List (List Token),
      pieces parts = ((parts.flatten.map Token.value).map folded).flatMap (List.splitOn '.') := by
    intro parts
    rw [pieces, List.map_map, List.flatMap_map]
    rfl
  obtain ⟨hne, hcanonical⟩ := canonical_eq h
  obtain ⟨hne', hcanonical'⟩ := canonical_eq h'
  rw [hpieces, hpieces, ← intercalate_eq_iff (by simpa using hne) (by simpa using hne'), ← hcanonical,
    ← hcanonical', String.toList_inj]
  cases key
  cases key'
  simp

/-- No period stands inside of a part or next to a part that is left out. -/
structure NoStrayPeriod (parts : List (List Token)) : Prop where
  given : [] ∉ parts
  undotted : ∀ t ∈ parts.flatten, '.' ∉ t.value.toList

instance (parts : List (List Token)) : Decidable (NoStrayPeriod parts) :=
  decidable_of_iff ([] ∉ parts ∧ ∀ t ∈ parts.flatten, '.' ∉ t.value.toList)
    ⟨fun h => ⟨h.1, h.2⟩, fun h => ⟨h.given, h.undotted⟩⟩

theorem NoStrayPeriod.pieces_eq (h : NoStrayPeriod parts) (hsingle : ∀ part ∈ parts, part.length ≤ 1) :
    parts.map (List.map fun t => folded t.value) = (pieces parts).map fun piece => [piece] := by
  induction parts with
  | nil => rfl
  | cons part parts ih =>
    obtain ⟨t, rfl⟩ : ∃ t, part = [t] := by
      have hle := hsingle part List.mem_cons_self
      have hne : part ≠ [] := fun hnil => h.given (hnil ▸ List.mem_cons_self)
      exact List.length_eq_one_iff.mp (by have := List.length_pos_of_ne_nil hne; omega)
    have hrest : NoStrayPeriod parts := ⟨fun hmem => h.given (List.mem_cons_of_mem _ hmem),
      fun u hu => h.undotted u (List.mem_append_right _ hu)⟩
    have hwhole : (folded t.value).splitOn '.' = [folded t.value] :=
      List.splitOn_eq_singleton fun hmem => h.undotted t List.mem_cons_self (period_mem_folded hmem)
    have hpieces : pieces ([t] :: parts) = folded t.value :: pieces parts := by
      rw [pieces, List.flatten_cons, List.singleton_append, List.flatMap_cons, hwhole]
      rfl
    rw [hpieces, List.map_cons, List.map_cons, ih hrest fun part hpart =>
      hsingle part (List.mem_cons_of_mem _ hpart)]
    rfl

/-- Two names have the same key exactly when the texts between all their periods are the same, wherever these
periods stand and whatever parts are left out. Without stray periods these are the parts. -/
theorem eq_iff_written {ts ts' : Terminals} {start stop start' stop' : Nat} {name name' : ObjectName}
    {key key' : TableKey}
    (hname : Grammar.objectName ts start = .ok (name, stop))
    (hname' : Grammar.objectName ts' start' = .ok (name', stop'))
    (hkey : ofName? name = some key) (hkey' : ofName? name' = some key') :
    (key = key' ↔ pieces (ts.writtenParts start stop) = pieces (ts'.writtenParts start' stop')) ∧
      (NoStrayPeriod (ts.writtenParts start stop) → NoStrayPeriod (ts'.writtenParts start' stop') →
        (key = key' ↔ (ts.writtenParts start stop).map (List.map fun t => folded t.value) =
          (ts'.writtenParts start' stop').map (List.map fun t => folded t.value))) := by
  obtain ⟨hvalues, hsingle⟩ := Grammar.objectName_parts hname
  obtain ⟨hvalues', hsingle'⟩ := Grammar.objectName_parts hname'
  have hpieces := eq_iff_pieces (hvalues ▸ ofParts?_of_ofName? hkey) (hvalues' ▸ ofParts?_of_ofName? hkey')
  refine ⟨hpieces, fun hstray hstray' => ?_⟩
  rw [hpieces, hstray.pieces_eq hsingle, hstray'.pieces_eq hsingle']
  exact (List.map_inj_right fun _ _ h => List.head_eq_of_cons_eq h).symm

/-- Blanks inside of the brackets and the case of letters make no difference. -/
theorem eq_iff_written_brackets :
    ∃ tokens tokens' x x' key key', tokenize "Sales.[Order Line ]" = .ok tokens ∧
      tokenize "SALES.[order line]" = .ok tokens' ∧
      Grammar.objectName (.ofTokens tokens) 0 = .ok x ∧ Grammar.objectName (.ofTokens tokens') 0 = .ok x' ∧
        ofName? x.1 = some key ∧ ofName? x'.1 = some key' ∧ key = key' := by
  obtain ⟨tokens, ht, tokens', ht', x, hx, x', hx', key, hkey, key', hkey', hstray, hstray', hparts⟩ :
      ∃ tokens ∈ (tokenize "Sales.[Order Line ]").toOption,
        ∃ tokens' ∈ (tokenize "SALES.[order line]").toOption,
        ∃ x ∈ (Grammar.objectName (.ofTokens tokens) 0).toOption,
        ∃ x' ∈ (Grammar.objectName (.ofTokens tokens') 0).toOption,
          ∃ key ∈ ofName? x.1, ∃ key' ∈ ofName? x'.1,
          NoStrayPeriod ((Terminals.ofTokens tokens).writtenParts 0 x.2) ∧
            NoStrayPeriod ((Terminals.ofTokens tokens').writtenParts 0 x'.2) ∧
              ((Terminals.ofTokens tokens).writtenParts 0 x.2).map (List.map fun t => folded t.value) =
                ((Terminals.ofTokens tokens').writtenParts 0 x'.2).map (List.map fun t => folded t.value) := by
    decide +kernel
  have hname := eq_ok_of_mem_toOption hx
  have hname' := eq_ok_of_mem_toOption hx'
  refine ⟨tokens, tokens', x, x', key, key', eq_ok_of_mem_toOption ht, eq_ok_of_mem_toOption ht', hname, hname',
    hkey, hkey', ?_⟩
  exact ((eq_iff_written hname hname' hkey hkey').2 hstray hstray').mpr hparts

def Collide (sql sql' : String) : Prop :=
  ∃ tokens ∈ (tokenize sql).toOption, ∃ tokens' ∈ (tokenize sql').toOption,
    ∃ x ∈ (Grammar.objectName (.ofTokens tokens) 0).toOption,
    ∃ x' ∈ (Grammar.objectName (.ofTokens tokens') 0).toOption,
      ∃ key ∈ ofName? x.1, key ∈ ofName? x'.1 ∧ ((Terminals.ofTokens tokens).writtenParts 0 x.2).length ≠
        ((Terminals.ofTokens tokens').writtenParts 0 x'.2).length

/-- A period inside of a part, and a part that is left out. So the index of one table counts for another. -/
theorem names_collide : Collide "[a.b]" "a.b" ∧ Collide "a..b" "a.b" ∧
    ∃ d ∈ (Document.parse "CREATE TABLE [a.b] (x INT); CREATE UNIQUE CLUSTERED INDEX i ON a.b (x)").toOption,
      TableRequirement.clustered.locations d = [] ∧ TableRequirement.identified.locations d = [] := by
  unfold Collide
  decide +kernel

end TableKey

end TransactLint
