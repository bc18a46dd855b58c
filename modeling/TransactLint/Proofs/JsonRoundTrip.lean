import TransactLint.Configuration.Json
import TransactLint.Proofs.JsonScalars
import TransactLint.Violation.Json

/-!
# Configurations and violations as JSON

What is written of a configuration or of a violation is read back as the same. Arrays and objects are read entry by
entry, with a comma before each entry but the first; what one entry adds is stated once, and the whole array or
object follows by induction on the entries.
-/

namespace TransactLint

namespace Json

/-! ## Entries with commas between them -/

/-- The texts of entries, with a comma before each, or before each but the `first` one. -/
def separated : Bool → List (List Char) → List Char
  | _, [] => []
  | true, x :: xs => x ++ separated false xs
  | false, x :: xs => ',' :: x ++ separated false xs

theorem intercalate_eq_separated (xs : List (List Char)) : [','].intercalate xs = separated true xs := by
  cases xs with
  | nil => rfl
  | cons x xs =>
    induction xs generalizing x with
    | nil => simp [separated]
    | cons y ys ih => simp [List.intercalate_cons_cons, ih y, separated]

theorem length_le_separated (first : Bool) (xs : List (List Char)) :
    xs.length ≤ (separated first xs).length + 1 := by
  have hrest : ∀ xs : List (List Char), xs.length ≤ (separated false xs).length := by
    intro xs
    induction xs with
    | nil => simp
    | cons x xs ih =>
      simp only [separated, List.length_cons, List.length_append]
      omega
  match first, xs with
  | _, [] => simp
  | false, x :: xs => exact Nat.le_succ_of_le (hrest (x :: xs))
  | true, x :: xs =>
    have := hrest xs
    simp only [separated, List.length_cons, List.length_append]
    omega

theorem writeList_eq {α : Type} (write : α → List Char) (as : List α) (rest : List Char) :
    writeList write as ++ rest = '[' :: (separated true (as.map write) ++ ']' :: rest) := by
  simp [writeList, intercalate_eq_separated]

def writeField (f : String × List Char) : List Char := writeQuoted f.1 ++ ':' :: f.2

theorem writeObject_eq (fs : List (String × List Char)) (rest : List Char) :
    writeObject fs ++ rest = '\x7b' :: (separated true (fs.map writeField) ++ '\x7d' :: rest) := by
  have hfields : (fs.map fun f => writeQuoted f.1 ++ ':' :: f.2) = fs.map writeField := rfl
  simp [writeObject, hfields, intercalate_eq_separated]

namespace Reader

variable {α β σ : Type}

/-- What stands after an entry may follow a value: a comma, or the end of the array or object. -/
theorem follows_separated (xs : List (List Char)) {close : Char} (h : close = ']' ∨ close = '\x7d')
    (rest : List Char) :
    Follows (separated false xs ++ close :: rest) := by
  cases xs with
  | nil => exact .inr h
  | cons x xs => exact .inl rfl

theorem Reads.map {r : Reader α} {text : List Char} {a : α} (h : Reads r text a) (f : α → β) :
    Reads (do return f (← r)) text (f a) := by
  intro rest hrest
  simp [h rest hrest]

/-! ## Arrays -/

/-- The text begins as an element of an array does: not by a blank, and not by the end of the array. -/
def Opens (text : List Char) : Prop := ∃ c cs, text = c :: cs ∧ isBlank c = false ∧ c ≠ ']'

theorem opens_writeQuoted (s : String) : Opens (writeQuoted s) := ⟨'"', _, rfl, by decide, by decide⟩

theorem hasElement_end (first : Bool) (rest : List Char) :
    hasElement first (']' :: rest) = .ok (false, ']' :: rest) := by
  simp [hasElement, peek_cons, isBlank]

theorem hasElement_separated {x : List Char} (hx : Opens x) (first : Bool) (xs : List (List Char))
    (rest : List Char) :
    hasElement first (separated first (x :: xs) ++ rest) = .ok (true, x ++ (separated false xs ++ rest)) := by
  obtain ⟨c, cs, rfl, hblank, hclose⟩ := hx
  cases first with
  | true => simp [hasElement, separated, peek_cons hblank, hclose]
  | false => simp [hasElement, separated, peek_cons, isBlank, peek_cons hblank, hclose]

/-- Induction on the elements left; those found so far stay in front. -/
theorem elements_separated {item : Reader α} {write : α → List Char} {as : List α}
    (h : ∀ a ∈ as, Reads item (write a) a ∧ Opens (write a)) (found : List α) {fuel : Nat}
    (hfuel : as.length < fuel)
    (rest : List Char) : elements item fuel found (separated found.isEmpty (as.map write) ++ ']' :: rest) =
      .ok (found.reverse ++ as, ']' :: rest) := by
  induction as generalizing found fuel with
  | nil =>
    obtain ⟨fuel, rfl⟩ := Nat.exists_eq_add_one_of_ne_zero (Nat.ne_zero_of_lt hfuel)
    simp [elements, separated, hasElement_end]
  | cons a as ih =>
    obtain ⟨fuel, rfl⟩ := Nat.exists_eq_add_one_of_ne_zero (Nat.ne_zero_of_lt hfuel)
    obtain ⟨hreads, hopens⟩ := h a List.mem_cons_self
    have hitem := hreads _ (follows_separated (as.map write) (.inl rfl) rest)
    have hrest := ih (fun b hb => h b (List.mem_cons_of_mem a hb)) (a :: found) (by simpa using hfuel)
    rw [List.map_cons, elements, bind_apply, hasElement_separated hopens]
    simp only [if_true, bind_apply, hitem]
    simpa using hrest

theorem reads_list {item : Reader α} {write : α → List Char} {as : List α}
    (h : ∀ a ∈ as, Reads item (write a) a ∧ Opens (write a)) : Reads (list item) (writeList write as) as := by
  intro rest _
  have hfuel : as.length < (separated true (as.map write) ++ ']' :: rest).length + 1 := by
    have := length_le_separated true (as.map write)
    simp only [List.length_map, List.length_append, List.length_cons] at *
    omega
  have helements : elements item _ [] (separated true (as.map write) ++ ']' :: rest) = .ok (as, ']' :: rest) :=
    elements_separated h [] hfuel rest
  have hclose : endArray (']' :: rest) = .ok ((), rest) := by simp [endArray, peek_cons, isBlank]
  rw [writeList_eq]
  simp only [list, bind_apply, peek_cons (show isBlank '[' = false by decide), if_true, next_cons]
  refine (bind_of_ok helements).trans ?_
  simp only [bind_apply, hclose, pure_apply]

/-! ## Records -/

theorem hasKey_end (first : Bool) (rest : List Char) :
    hasKey first ('\x7d' :: rest) = .ok (false, '\x7d' :: rest) := by
  simp [hasKey, peek_cons, isBlank]

theorem hasKey_separated (f : String × List Char) (first : Bool) (xs : List (List Char)) (rest : List Char) :
    hasKey first (separated first (writeField f :: xs) ++ rest) =
      .ok (true, writeQuoted f.1 ++ (':' :: f.2 ++ (separated false xs ++ rest))) := by
  cases first with
  | true => simp [hasKey, separated, writeField, writeQuoted, peek_cons, isBlank]
  | false => simp [hasKey, separated, writeField, writeQuoted, peek_cons, isBlank]

theorem key_writeQuoted (k : String) (rest : List Char) : key (writeQuoted k ++ rest) = .ok (k, rest) := by
  simp [key, writeQuoted, peek_cons, isBlank, quoted_write]

/-- Reading the written fields one after another fills the record `s` up to `s'`. -/
inductive Fills (field : σ → String → Reader σ) : σ → List (String × List Char) → σ → Prop where
  | nil (s : σ) : Fills field s [] s
  | cons {s s' s'' : σ} {key : String} {text : List Char} {fs : List (String × List Char)}
      (h : Reads (field s key) (':' :: text) s') (hrest : Fills field s' fs s'') :
      Fills field s ((key, text) :: fs) s''

theorem Fills.fields {field : σ → String → Reader σ} {s s' : σ} {fs : List (String × List Char)}
    (h : Fills field s fs s') (first : Bool) {fuel : Nat} (hfuel : fs.length < fuel) (rest : List Char) :
    Reader.fields field fuel first s (separated first (fs.map writeField) ++ '\x7d' :: rest) =
      .ok (s', '\x7d' :: rest) := by
  induction h generalizing first fuel with
  | nil s =>
    obtain ⟨fuel, rfl⟩ := Nat.exists_eq_add_one_of_ne_zero (Nat.ne_zero_of_lt hfuel)
    simp [Reader.fields, separated, hasKey_end]
  | @cons s s' s'' key text fs hfield _ ih =>
    obtain ⟨fuel, rfl⟩ := Nat.exists_eq_add_one_of_ne_zero (Nat.ne_zero_of_lt hfuel)
    have hstored := hfield _ (follows_separated (fs.map writeField) (.inr rfl) rest)
    have hrest := ih false (Nat.lt_of_succ_lt_succ hfuel)
    rw [List.map_cons, Reader.fields, bind_apply, hasKey_separated]
    simp only [if_true, bind_apply, key_writeQuoted, hstored, hrest]

/-- A record is read back from its written fields if they fill it and none is missing then. -/
theorem Fills.reads_record {field : σ → String → Reader σ} {start s : σ} {fs : List (String × List Char)}
    {done : σ → Reader α} {a : α} (h : Fills field start fs s) (hdone : ∀ cs, done s cs = .ok (a, cs))
    (inOrder : Reader α) : Reads (record field start done inOrder) (writeObject fs) a := by
  intro rest _
  have hfuel : fs.length < (separated true (fs.map writeField) ++ '\x7d' :: rest).length + 1 := by
    have := length_le_separated true (fs.map writeField)
    simp only [List.length_map, List.length_append, List.length_cons] at *
    omega
  have hfields := h.fields true hfuel rest
  rw [writeObject_eq]
  simp only [record, bind_apply, peek_cons (show isBlank '\x7b' = false by decide), if_true, next_cons]
  refine (bind_of_ok hfields).trans ?_
  simp only [bind_apply, hdone, next_cons, pure_apply]

theorem Reads.once {value : Reader α} {text : List Char} {a : α} (h : Reads value text a) :
    Reads (once none value) (':' :: text) (some a) := by
  intro rest hrest
  simp [Reader.once, colon, peek_cons, isBlank, h rest hrest]

end Reader

end Json

/-! ## Configurations -/

namespace Configuration

open Json Json.Reader

theorem reads_enabled (k : Known) (hk : k.enabled = none) (enabled : Bool) :
    Reads (field k "enabled") (':' :: writeBool enabled) { k with enabled := some enabled } := by
  rw [field, if_pos rfl, hk]
  exact (reads_bool enabled).once.map fun b => { k with enabled := b }

theorem reads_disabledRules (k : Known) (hk : k.disabledRules = none) (ids : List String) :
    Reads (field k "disabledRules") (':' :: writeList writeQuoted ids) { k with disabledRules := some ids } := by
  have hids : Reads (list string) (writeList writeQuoted ids) ids :=
    reads_list fun id _ => ⟨reads_string id, opens_writeQuoted id⟩
  rw [field, if_neg (by decide), if_pos rfl, hk]
  exact hids.once.map fun ids => { k with disabledRules := ids }

/-- An empty list of rules is not written; a missing one is read as empty. -/
theorem reads_toJson (c : Configuration) : Reads reader c.toJson.toList c := by
  obtain ⟨enabled, ids⟩ := c
  rw [toJson, String.toList_ofList]
  cases ids with
  | nil =>
    have hfills := (Fills.nil _).cons (reads_enabled Known.none rfl enabled)
    exact hfills.reads_record (fun _ => rfl) inOrder
  | cons id ids =>
    have hfills := ((Fills.nil _).cons (reads_disabledRules _ rfl (id :: ids))).cons
      (reads_enabled Known.none rfl enabled)
    exact hfills.reads_record (fun _ => rfl) inOrder

theorem unknownRule?_eq_none_iff {c : Configuration} :
    c.unknownRule? = none ↔ ∀ id ∈ c.disabledRules, id ∈ Rule.all.map Rule.id := by
  simp [unknownRule?]

theorem ofJson_toJson_of_known {c : Configuration} (h : ∀ id ∈ c.disabledRules, id ∈ Rule.all.map Rule.id) :
    ofJson c.toJson = .ok c := by
  simp only [ofJson, (reads_toJson c).whole, unknownRule?_eq_none_iff.mpr h]

end Configuration

/-! ## Violations -/

namespace Severity

theorem ofName?_name (severity : Severity) : ofName? severity.name = some severity := by
  cases severity <;> decide

open Json Json.Reader in
theorem reads_name (severity : Severity) : Reads reader (writeQuoted severity.name) severity := by
  intro rest hrest
  have hname := reads_string severity.name rest hrest
  have hpeek : peek (writeQuoted severity.name ++ rest) = .ok ('"', writeQuoted severity.name ++ rest) :=
    peek_cons (by decide) _
  simp only [reader, bind_apply, hpeek, if_true, hname, ofName?_name]
  rfl

end Severity

namespace Violation

open Json Json.Reader

/-- The fields of a violation are read one by one, in the order in which they are written. -/
theorem fills_fields (ruleId message : String) {line column : Nat} (severity : Severity)
    (hline : line < Number.wordSize) (hcolumn : column < Number.wordSize) :
    Fills field Known.none [("ruleId", writeQuoted ruleId), ("message", writeQuoted message),
      ("line", Number.write line), ("column", Number.write column), ("severity", writeQuoted severity.name)]
      ⟨some ruleId, some message, some line, some column, some severity⟩ := by
  apply Fills.cons
  · rw [field, if_pos rfl]
    exact (reads_string ruleId).once.map fun s => Known.mk s none none none none
  apply Fills.cons
  · rw [field, if_neg (by decide), if_pos rfl]
    exact (reads_string message).once.map fun s => Known.mk (some ruleId) s none none none
  apply Fills.cons
  · rw [field, if_neg (by decide), if_neg (by decide), if_pos rfl]
    exact (reads_natural hline).once.map fun n => Known.mk (some ruleId) (some message) n none none
  apply Fills.cons
  · rw [field, if_neg (by decide), if_neg (by decide), if_neg (by decide), if_pos rfl]
    exact (reads_natural hcolumn).once.map fun n => Known.mk (some ruleId) (some message) (some line) n none
  apply Fills.cons
  · rw [field, if_neg (by decide), if_neg (by decide), if_neg (by decide), if_neg (by decide), if_pos rfl]
    exact severity.reads_name.once.map fun s => Known.mk (some ruleId) (some message) (some line) (some column) s
  exact .nil _

theorem ofJson_toJson_of_lt {v : Violation} (hline : v.location.line < Number.wordSize)
    (hcolumn : v.location.column < Number.wordSize) : ofJson v.toJson = .ok v := by
  have hreads : Reads reader (writeObject _) v :=
    (fills_fields v.ruleId v.message v.severity hline hcolumn).reads_record (fun _ => rfl) inOrder
  rw [ofJson, toJson, String.toList_ofList]
  exact hreads.whole

end Violation

/-- Reading gives back what was written: every configuration whose rules all exist, and every violation whose line
and column fit in 64 bits. -/
theorem json_round_trip :
    (∀ c : Configuration, (∀ id ∈ c.disabledRules, id ∈ Rule.all.map Rule.id) →
      Configuration.ofJson c.toJson = .ok c) ∧
      ∀ v : Violation, v.location.line < Nat.pow 2 64 → v.location.column < Nat.pow 2 64 →
        Violation.ofJson v.toJson = .ok v :=
  ⟨fun _ h => Configuration.ofJson_toJson_of_known h,
    fun _ hline hcolumn => Violation.ofJson_toJson_of_lt hline hcolumn⟩

/-- A configuration without rules and one with a rule that is switched off twice; and characters that need an escape
or lie beyond four hexadecimal digits, at the largest line. -/
theorem json_round_trip_escapes :
    (let c : Configuration := ⟨true, []⟩
    c.toJson = "\x7b\"enabled\":true\x7d" ∧ Configuration.ofJson c.toJson = .ok c) ∧
      (let c : Configuration := ⟨false, ["prefer-concat-ws", "avoid-heap-table", "prefer-concat-ws"]⟩
      Configuration.ofJson c.toJson = .ok c) ∧
      let v : Violation := ⟨"\"\\/", "\n\x00\x1f😀", ⟨Nat.pow 2 64 - 1, 0⟩, .error⟩
      v.toJson = "\x7b\"ruleId\":\"\\\"\\\\/\",\"message\":\"\\n\\u0000\\u001f😀\"," ++
        "\"line\":18446744073709551615,\"column\":0,\"severity\":\"error\"\x7d" ∧
        Violation.ofJson v.toJson = .ok v :=
  ⟨⟨by decide, json_round_trip.1 _ (by decide)⟩, json_round_trip.1 _ (by decide), by decide +kernel,
    json_round_trip.2 _ (by decide) (by decide)⟩

end TransactLint
