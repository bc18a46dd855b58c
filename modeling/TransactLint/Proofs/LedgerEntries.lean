import Mathlib.Data.List.Induction
import Mathlib.Data.List.Sort
import TransactLint.Proofs.Sorting
import TransactLint.Proofs.TokenOrder
import TransactLint.TableLedger

/-!
# The entries of a ledger

A ledger is filled entry by entry. It gathers the places of each table where the table was defined first, and keeps
the satisfactions apart. In the end the places of the tables that remain are put together and sorted, so that
neither the tables nor the order of the entries can be told from the result.
-/

namespace TransactLint

theorem Location.le_antisymm {a b : Location} (hab : a ≤ b) (hba : b ≤ a) : a = b := by
  obtain ⟨line, column⟩ := a
  obtain ⟨line', column'⟩ := b
  simp only [le_def] at hab hba
  simp only [mk.injEq]
  omega

instance : Std.Antisymm fun a b : Location => a ≤ b := ⟨fun _ _ => Location.le_antisymm⟩

namespace TableLedger

/-- What is left over is in document order, whatever the ledger holds. -/
theorem unsatisfied_sorted (ledger : TableLedger) : ledger.unsatisfied.Pairwise (· ≤ ·) := by
  refine List.Pairwise.imp of_decide_eq_true (pairwise_stableSort ?_ ?_ _)
  · intro a b c hab hbc
    exact decide_eq_true (Location.le_trans (of_decide_eq_true hab) (of_decide_eq_true hbc))
  · intro a b
    simpa using Location.le_total a b

/-! ## Entries -/

inductive Entry where
  | definition (key : TableKey) (place : Location)
  | satisfaction (key : TableKey)
deriving DecidableEq

def enter (ledger : TableLedger) : Entry → TableLedger
  | .definition key place => ledger.define key place
  | .satisfaction key => ledger.satisfy key

def ofEntries (entries : List Entry) : TableLedger := entries.foldl enter empty

namespace Entry

def defined? : Entry → Option (TableKey × Location)
  | .definition key place => some (key, place)
  | .satisfaction _ => none

/-- The places of the definitions of tables with a property, one for each entry. -/
def places (p : TableKey → Bool) (entries : List Entry) : List Location :=
  ((entries.filterMap defined?).filter fun d => p d.1).map Prod.snd

/-- The tables that are defined, each once, by their first definitions. -/
def keys (entries : List Entry) : List TableKey := ((entries.filterMap defined?).map Prod.fst).eraseDups

variable {entries entries' : List Entry}

theorem places_perm (h : entries.Perm entries') (p : TableKey → Bool) :
    (places p entries).Perm (places p entries') :=
  ((h.filterMap _).filter _).map _

/-- The places of some tables are those of the ones that have a further property, and of the others. -/
theorem places_split (p q : TableKey → Bool) (entries : List Entry) :
    (places p entries).Perm (places (fun k => p k && !q k) entries ++ places (fun k => p k && q k) entries) := by
  unfold places
  rw [← List.map_append]
  refine .map _ ?_
  have hsplit := List.filter_append_perm (fun d : TableKey × Location => q d.1)
    ((entries.filterMap defined?).filter fun d => p d.1)
  simp only [List.filter_filter] at hsplit
  refine (hsplit.symm.trans List.perm_append_comm).trans ?_
  simp only [Bool.and_comm]
  exact .refl _

theorem places_congr {p q : TableKey → Bool} (h : ∀ key ∈ keys entries, p key = q key) :
    places p entries = places q entries := by
  refine congrArg _ (List.filter_congr fun d hd => h d.1 ?_)
  exact List.mem_eraseDups.mpr (List.mem_map_of_mem hd)

theorem places_eq_nil {key : TableKey} (h : key ∉ keys entries) : places (fun k => k = key) entries = [] := by
  have hnone := places_congr (p := fun k => k = key) (q := fun _ => false) fun k hk =>
    decide_eq_false (ne_of_mem_of_not_mem hk h)
  simpa [places] using hnone

theorem keys_definition (entries : List Entry) (key : TableKey) (place : Location) :
    keys (entries ++ [.definition key place]) = if key ∈ keys entries then keys entries
      else keys entries ++ [key] := by
  have hkeys : keys (entries ++ [.definition key place]) =
      keys entries ++ ([key].removeAll ((entries.filterMap defined?).map Prod.fst)).eraseDups := by
    rw [keys, List.filterMap_append, List.map_append, List.eraseDups_append]
    rfl
  rw [hkeys]
  split
  · rename_i hkey
    rw [keys, List.mem_eraseDups] at hkey
    rw [List.cons_removeAll, if_neg (by simpa using hkey)]
    exact List.append_nil _
  · rename_i hkey
    rw [keys, List.mem_eraseDups] at hkey
    rw [List.cons_removeAll, if_pos (by simpa using hkey)]
    rfl

theorem places_definition (p : TableKey → Bool) (entries : List Entry) (key : TableKey) (place : Location) :
    places p (entries ++ [.definition key place]) = places p entries ++ if p key then [place] else [] := by
  rw [places, List.filterMap_append, List.filter_append, List.map_append]
  cases hkey : p key <;> simp [places, defined?, hkey]

/-- The places of some tables, table by table. -/
theorem flatMap_places_perm (entries : List Entry) {tables : List TableKey} (h : tables.Nodup) :
    (tables.flatMap fun key => places (fun k => k = key) entries).Perm
      (places (fun k => k ∈ tables) entries) := by
  induction tables with
  | nil => simp [places]
  | cons key tables ih =>
    obtain ⟨hkey, htables⟩ := List.nodup_cons.mp h
    have hsplit := places_split (fun k => k ∈ key :: tables) (fun k => k = key) entries
    have hothers : (fun k => decide (k ∈ key :: tables) && !decide (k = key)) = fun k =>
        decide (k ∈ tables) := by
      funext k
      by_cases hk : k = key <;> simp [hk, hkey]
    have hown : (fun k => decide (k ∈ key :: tables) && decide (k = key)) = fun k => decide (k = key) := by
      funext k
      by_cases hk : k = key <;> simp [hk]
    rw [hothers, hown] at hsplit
    exact ((ih htables).append_left _).trans (List.perm_append_comm.trans hsplit.symm)

end Entry

/-! ## What a ledger of entries holds -/

open Entry

theorem ofEntries_concat (entries : List Entry) (e : Entry) :
    ofEntries (entries ++ [e]) = (ofEntries entries).enter e :=
  List.foldl_append

theorem isSatisfied_ofEntries (entries : List Entry) (key : TableKey) :
    (ofEntries entries).isSatisfied key = decide (.satisfaction key ∈ entries) := by
  rw [isSatisfied, List.contains_eq_mem, decide_eq_decide]
  induction entries using List.reverseRecOn with
  | nil => simp [ofEntries, empty]
  | append_singleton entries e ih =>
    rw [ofEntries_concat]
    cases e with
    | definition => simpa [enter, define] using ih
    | satisfaction k => simp [enter, satisfy, List.mem_insert_iff, ih, or_comm]

/-- If every table is listed once, a place is added to those of its own table only. -/
theorem withPlace_map (places : TableKey → List Location) (key : TableKey) (place : Location)
    {keys : List TableKey} (hkeys : keys.Nodup) (hnew : key ∉ keys → places key = []) :
    withPlace key place (keys.map fun k => (k, places k)) =
      (if key ∈ keys then keys else keys ++ [key]).map fun k =>
        (k, places k ++ if key = k then [place] else []) := by
  induction keys with
  | nil => simp [withPlace, hnew]
  | cons k keys ih =>
    obtain ⟨hk, hkeys⟩ := List.nodup_cons.mp hkeys
    by_cases heq : key = k
    · subst heq
      have hothers : ∀ k ∈ keys, (k, places k) = (k, places k ++ if key = k then [place] else []) := by
        intro k hmem
        rw [if_neg (ne_of_mem_of_not_mem hmem hk).symm, List.append_nil]
      simp [withPlace, List.map_congr_left hothers]
    · have hrest := ih hkeys fun hkey => hnew (by simp [hkey, heq])
      simp only [List.map_cons, withPlace, Ne.symm heq, if_false, hrest, List.mem_cons, heq, false_or]
      split <;> simp [heq]

theorem nodup_of_definitions {ledger : TableLedger} {keys : List TableKey} {places : TableKey → List Location}
    (h : ledger.definitions = keys.map fun k => (k, places k)) : keys.Nodup := by
  simpa [h, Function.comp_def] using ledger.distinct

/-- The tables of a ledger stand in the order of their first definitions, each with the places of all its
definitions in the order of the entries. -/
theorem definitions_ofEntries (entries : List Entry) :
    (ofEntries entries).definitions = (keys entries).map fun key => (key, places (fun k => k = key) entries) := by
  induction entries using List.reverseRecOn with
  | nil => rfl
  | append_singleton entries e ih =>
    rw [ofEntries_concat]
    cases e with
    | definition key place =>
      simp only [enter, define, ih, keys_definition, places_definition, decide_eq_true_eq]
      exact withPlace_map _ key place (nodup_of_definitions ih) places_eq_nil
    | satisfaction key => simpa [enter, satisfy, keys, places, defined?, List.filterMap_cons] using ih

/-- What remains are the definitions of the tables that no entry satisfies. -/
theorem unsatisfied_perm (entries : List Entry) :
    (ofEntries entries).unsatisfied.Perm (places (fun key => .satisfaction key ∉ entries) entries) := by
  let isLeft : TableKey → Bool := fun key => .satisfaction key ∉ entries
  have hkeys : (keys entries).Nodup := nodup_of_definitions (definitions_ofEntries entries)
  have hleft := flatMap_places_perm entries (hkeys.filter isLeft)
  have hplaces : places (fun key => key ∈ (keys entries).filter isLeft) entries = places isLeft entries :=
    places_congr fun key hkey => by simp [hkey]
  rw [hplaces] at hleft
  refine (stableSort_perm _ _).trans ?_
  rw [definitions_ofEntries, List.filter_map, List.flatMap_map]
  simpa only [Function.comp_def, isSatisfied_ofEntries, ← decide_not] using hleft

variable {entries entries' : List Entry}

theorem unsatisfied_eq_of_perm (h : entries.Perm entries') :
    (ofEntries entries').unsatisfied = (ofEntries entries).unsatisfied := by
  have hsame : (fun key => decide (.satisfaction key ∉ entries')) = fun key =>
      decide (.satisfaction key ∉ entries) :=
    funext fun key => by simp only [h.mem_iff]
  have hperm := unsatisfied_perm entries'
  rw [hsame] at hperm
  exact (hperm.trans ((places_perm h _).symm.trans (unsatisfied_perm entries).symm)).eq_of_pairwise'
    (unsatisfied_sorted _) (unsatisfied_sorted _)

/-- One more satisfaction, at the front, takes the places of its table away. -/
theorem unsatisfied_perm_append (entries : List Entry) (key : TableKey) :
    (ofEntries entries).unsatisfied.Perm ((ofEntries (.satisfaction key :: entries)).unsatisfied ++
      places (fun k => .satisfaction k ∉ entries ∧ k = key) entries) := by
  have hmore := unsatisfied_perm (.satisfaction key :: entries)
  have hsplit := places_split (fun k => .satisfaction k ∉ entries) (fun k => k = key) entries
  have hplaces : places (fun k => .satisfaction k ∉ .satisfaction key :: entries) (.satisfaction key :: entries) =
      places (fun k => decide (.satisfaction k ∉ entries) && !decide (k = key)) entries := by
    have hsame : (fun k => decide (.satisfaction k ∉ Entry.satisfaction key :: entries)) =
        fun k => decide (.satisfaction k ∉ entries) && !decide (k = key) := by
      funext k
      simp [not_or, Bool.and_comm]
    rw [hsame]
    rfl
  rw [hplaces] at hmore
  refine (unsatisfied_perm entries).trans (hsplit.trans ?_)
  simpa only [Bool.decide_and] using hmore.symm.append_right _

/-- A ledger forgets the order of its entries. There remain the places of all definitions, repeated ones
included, of tables that no entry satisfies, by line and column. Hence the entries may come in any order, and
one more satisfaction among them takes the places of its own table away and no others. -/
theorem unsatisfied_of_entries (entries : List Entry) :
    (ofEntries entries).unsatisfied.Perm (places (fun key => .satisfaction key ∉ entries) entries) ∧
      (ofEntries entries).unsatisfied.Pairwise (· ≤ ·) ∧
      (∀ entries', entries.Perm entries' →
        (ofEntries entries').unsatisfied = (ofEntries entries).unsatisfied) ∧
      ∀ before after key, entries = before ++ after →
        (ofEntries (before ++ .satisfaction key :: after)).unsatisfied.Sublist (ofEntries entries).unsatisfied ∧
          (ofEntries entries).unsatisfied.Perm ((ofEntries (before ++ .satisfaction key :: after)).unsatisfied ++
            places (fun k => .satisfaction k ∉ entries ∧ k = key) entries) := by
  refine ⟨unsatisfied_perm entries, unsatisfied_sorted _, fun _ h => unsatisfied_eq_of_perm h, ?_⟩
  rintro before after key rfl
  have hperm := unsatisfied_perm_append (before ++ after) key
  rw [unsatisfied_eq_of_perm List.perm_middle] at hperm
  refine ⟨?_, hperm⟩
  refine List.sublist_of_subperm_of_pairwise
    (r := fun a b : Location => a ≤ b) ?_ (unsatisfied_sorted _) (unsatisfied_sorted _)
  exact (List.sublist_append_left _ _).subperm.trans hperm.symm.subperm

/-- One table is defined twice, and later in the script first; another is satisfied before it is defined. -/
theorem unsatisfied_of_entries_twice :
    let entries := [Entry.definition ⟨"dbo.a"⟩ ⟨5, 14⟩, .satisfaction ⟨"dbo.b"⟩,
      .definition ⟨"dbo.a"⟩ ⟨1, 14⟩, .definition ⟨"dbo.b"⟩ ⟨3, 14⟩,
      .definition ⟨"c"⟩ ⟨1, 9⟩]
    (ofEntries entries).unsatisfied = [⟨1, 9⟩, ⟨1, 14⟩, ⟨5, 14⟩] ∧
      (ofEntries entries.reverse).unsatisfied = [⟨1, 9⟩, ⟨1, 14⟩, ⟨5, 14⟩] ∧
      (ofEntries (entries.take 1 ++ .satisfaction ⟨"dbo.a"⟩ :: entries.drop 1)).unsatisfied = [⟨1, 9⟩] ∧
      [⟨1, 9⟩, ⟨1, 14⟩, ⟨5, 14⟩].Perm ([⟨1, 9⟩] ++ [(⟨5, 14⟩ : Location), ⟨1, 14⟩]) := by
  intro entries
  have hleft : (ofEntries entries).unsatisfied = [⟨1, 9⟩, ⟨1, 14⟩, ⟨5, 14⟩] := by decide +kernel
  have hmore : (ofEntries (entries.take 1 ++ .satisfaction ⟨"dbo.a"⟩ :: entries.drop 1)).unsatisfied =
      [⟨1, 9⟩] := by
    decide +kernel
  have htaken :
      places (fun k => .satisfaction k ∉ entries ∧ k = ⟨"dbo.a"⟩) entries = [⟨5, 14⟩, ⟨1, 14⟩] := by
    decide +kernel
  obtain ⟨-, -, horder, hinsert⟩ := unsatisfied_of_entries entries
  have hremoved := (hinsert (entries.take 1) (entries.drop 1) ⟨"dbo.a"⟩
    (List.take_append_drop 1 entries).symm).2
  rw [hleft, hmore, htaken] at hremoved
  exact ⟨hleft, (horder entries.reverse (List.reverse_perm entries).symm).trans hleft, hmore, hremoved⟩

end TableLedger

end TransactLint
