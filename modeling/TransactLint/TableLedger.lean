import TransactLint.StableSort
import TransactLint.TableKey

/-!
# Table ledgers

A ledger notes where tables are defined and which of them meet a requirement. Both may come in any
order; in the end the definitions that were never satisfied remain.
-/

namespace TransactLint

structure TableLedger where
  /-- The tables that were defined, by their first definition, each with the places of all of them. -/
  definitions : List (TableKey × List Location)
  satisfied : List TableKey
  distinct : (definitions.map Prod.fst).Nodup

namespace TableLedger

def empty : TableLedger := ⟨[], [], List.nodup_nil⟩

/-- Adds a place to those of its table. A new table comes last. -/
def withPlace (key : TableKey) (place : Location) :
    List (TableKey × List Location) → List (TableKey × List Location)
  | [] => [(key, [place])]
  | (k, places) :: rest =>
    if k = key then (k, places ++ [place]) :: rest else (k, places) :: withPlace key place rest

theorem keys_withPlace (key : TableKey) (place : Location) (tables : List (TableKey × List Location)) :
    (withPlace key place tables).map Prod.fst =
      if key ∈ tables.map Prod.fst then tables.map Prod.fst else tables.map Prod.fst ++ [key] := by
  induction tables with
  | nil => simp [withPlace]
  | cons table rest ih =>
    obtain ⟨k, places⟩ := table
    by_cases hk : k = key
    · simp [withPlace, hk]
    · have hk' : key ≠ k := Ne.symm hk
      simp only [withPlace, hk, if_false, List.map_cons, ih, List.mem_cons, hk', false_or]
      split <;> rfl

theorem distinct_withPlace {key : TableKey} {place : Location} {tables : List (TableKey × List Location)}
    (h : (tables.map Prod.fst).Nodup) : ((withPlace key place tables).map Prod.fst).Nodup := by
  rw [keys_withPlace]
  split
  · exact h
  · rename_i hnew
    refine List.nodup_append.mpr ⟨h, by simp, fun k hk k' hk' => ?_⟩
    rw [List.mem_singleton.mp hk']
    exact fun heq => hnew (heq ▸ hk)

/-- Notes a definition. A table may be defined more than once. -/
def define (ledger : TableLedger) (key : TableKey) (place : Location) : TableLedger :=
  { ledger with
    definitions := withPlace key place ledger.definitions
    distinct := distinct_withPlace ledger.distinct }

/-- Notes that a table meets the requirement. -/
def satisfy (ledger : TableLedger) (key : TableKey) : TableLedger :=
  { ledger with satisfied := ledger.satisfied.insert key }

def isSatisfied (ledger : TableLedger) (key : TableKey) : Bool :=
  ledger.satisfied.contains key

/-- The places of all definitions of tables that were never satisfied, in document order. -/
def unsatisfied (ledger : TableLedger) : List Location :=
  stableSort (fun a b => a ≤ b)
    ((ledger.definitions.filter fun d => !ledger.isSatisfied d.1).flatMap Prod.snd)

end TableLedger

end TransactLint
