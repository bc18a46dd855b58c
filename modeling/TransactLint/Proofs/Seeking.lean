import TransactLint.Proofs.Tiling

/-!
# Seeking a place

A cursor may have been sent to any places before, found or not. It finds a place exactly if the script has it at the
cursor's byte or behind it. The place of a byte is counted anew, from the text before it; that the cursor carries
the same place along is the invariant. Places increase from one character to the next, so no two bytes share one.
-/

namespace TransactLint

/-! ## The place of a byte -/

namespace Location

/-- The place of the byte at `offset`: its line counts the line feeds before it, its column the characters since the
last of them. A byte within a character or beyond the end has none. -/
def atByte? (sql : String) (offset : Nat) : Option Location :=
  (Text.slice? sql 0 offset).map fun before =>
    ⟨1 + before.toList.count '\n', 1 + (before.toList.reverse.takeWhile (· ≠ '\n')).length⟩

theorem counted_eq_after (cs : List Char) :
    (⟨1 + cs.count '\n', 1 + (cs.reverse.takeWhile (· ≠ '\n')).length⟩ : Location) = origin.after cs := by
  have hline : (origin.after cs).line = 1 + cs.count '\n' := line_after origin cs
  rw [← hline, ← column_after_origin]

/-- What stands before two bytes of one text with one place is the same. -/
theorem after_injOn {l : Location} {before rest before' rest' : List Char}
    (htext : before ++ rest = before' ++ rest') (h : l.after before = l.after before') : before = before' := by
  have hlonger : ∀ {cs ds : List Char}, l.after cs = l.after (cs ++ ds) → ds = [] := by
    intro cs ds h
    cases ds with
    | nil => rfl
    | cons d ds =>
      rw [after_append] at h
      have hlt := (l.after cs).lt_after_cons d ds
      rw [← h] at hlt
      exact absurd hlt (lt_irrefl _)
  rcases List.append_eq_append_iff.mp htext with ⟨passed, rfl, -⟩ | ⟨passed, rfl, -⟩
  · rw [hlonger h, List.append_nil]
  · rw [hlonger h.symm, List.append_nil]

end Location

namespace Text

/-- A text has a piece up to a byte exactly if it can be split there. -/
theorem slice?_zero_eq_some_iff {s piece : String} {offset : Nat} :
    slice? s 0 offset = some piece ↔ ∃ rest, s.toList = piece.toList ++ rest ∧
      byteSize piece.toList = offset := by
  constructor
  · intro h
    have hvalid : String.Pos.Raw.isValid s ⟨0 + offset⟩ = true := by
      simp only [slice?, Option.ite_none_right_eq_some, Bool.and_eq_true] at h
      exact h.1.2
    rw [String.Pos.Raw.isValid_eq_true_iff, String.Pos.Raw.isValid_iff_exists_append] at hvalid
    obtain ⟨before, rest, rfl, hoffset⟩ := hvalid
    have hsize : offset = byteSize before.toList := by
      rw [byteSize_toList, ← Nat.zero_add offset]
      exact congrArg String.Pos.Raw.byteIdx hoffset
    have hslice := slice?_append [] before.toList rest.toList
    rw [List.nil_append, String.ofList_append, String.ofList_toList, String.ofList_toList, ← hsize] at hslice
    cases hslice.symm.trans h
    exact ⟨rest.toList, String.toList_append, hsize.symm⟩
  · rintro ⟨rest, htext, rfl⟩
    have hslice := slice?_append [] piece.toList rest
    rwa [List.nil_append, ← htext, String.ofList_toList, String.ofList_toList] at hslice

end Text

theorem Location.atByte?_eq_some_iff {sql : String} {offset : Nat} {l : Location} :
    atByte? sql offset = some l ↔
      ∃ before rest, sql.toList = before ++ rest ∧ Text.byteSize before = offset ∧
        origin.after before = l := by
  unfold atByte?
  simp only [counted_eq_after, Option.map_eq_some_iff, Text.slice?_zero_eq_some_iff]
  constructor
  · rintro ⟨piece, ⟨rest, htext, hsize⟩, hplace⟩
    exact ⟨piece.toList, rest, htext, hsize, hplace⟩
  · rintro ⟨before, rest, htext, hsize, hplace⟩
    refine ⟨String.ofList before, ⟨rest, ?_, ?_⟩, ?_⟩
    all_goals rwa [String.toList_ofList]

/-- No two bytes have the same place. -/
theorem Location.atByte?_inj {sql : String} {offset offset' : Nat} {l : Location} (h : atByte? sql offset = some l)
    (h' : atByte? sql offset' = some l) : offset = offset' := by
  obtain ⟨before, rest, htext, rfl, hplace⟩ := atByte?_eq_some_iff.mp h
  obtain ⟨before', rest', htext', rfl, hplace'⟩ := atByte?_eq_some_iff.mp h'
  rw [after_injOn (htext.symm.trans htext') (hplace.trans hplace'.symm)]

namespace Cursor

/-! ## Where a cursor stands -/

/-- The cursor stands in a text, right behind `before`, and knows its place. -/
structure StandsBehind (before text : List Char) (cursor : Cursor) : Prop where
  text_eq : text = before ++ cursor.rest
  offset_eq : cursor.offset = Text.byteSize before
  location_eq : cursor.location = Location.origin.after before

variable {before text : List Char} {cursor : Cursor}

theorem standsBehind_ofText (text : List Char) : StandsBehind [] text (ofText text) := ⟨rfl, rfl, rfl⟩

/-- Moving passes over some characters, and counts their lines, columns and bytes. -/
theorem moveFrom_passes (target : Location) : ∀ (cs : List Char) (here : Location) (offset : Nat),
    ∃ passed, cs = passed ++ (moveFrom target here offset cs).rest ∧
      (moveFrom target here offset cs).location = here.after passed ∧
      (moveFrom target here offset cs).offset = offset + Text.byteSize passed
  | [], _, _ => ⟨[], rfl, rfl, rfl⟩
  | c :: cs, here, offset => by
    unfold moveFrom
    split
    · obtain ⟨passed, hcs, hplace, hbytes⟩ := moveFrom_passes target cs (here.advance c) (offset + c.utf8Size)
      refine ⟨c :: passed, ?_, hplace, ?_⟩
      · rw [List.cons_append, ← hcs]
      · rw [hbytes, Text.byteSize_cons, Nat.add_assoc]
    · exact ⟨[], rfl, rfl, rfl⟩

/-- One step: a cursor that is sent to a place stands behind what was before it and what it has passed over. -/
theorem StandsBehind.seek (h : StandsBehind before text cursor) (target : Location) :
    ∃ passed, StandsBehind (before ++ passed) text (cursor.seek target).1 := by
  obtain ⟨passed, hrest, hplace, hbytes⟩ := moveFrom_passes target cursor.rest cursor.location cursor.offset
  refine ⟨passed, ⟨?_, ?_, ?_⟩⟩
  · rw [List.append_assoc, h.text_eq]
    exact congrArg (before ++ ·) hrest
  · rw [Text.byteSize_append, ← h.offset_eq]
    exact hbytes
  · rw [Location.after_append, ← h.location_eq]
    exact hplace

def seekAll (cursor : Cursor) (targets : List Location) : Cursor :=
  targets.foldl (fun cursor target => (cursor.seek target).1) cursor

theorem StandsBehind.seekAll (h : StandsBehind before text cursor) (targets : List Location) :
    ∃ before', StandsBehind before' text (cursor.seekAll targets) := by
  induction targets generalizing before cursor with
  | nil => exact ⟨before, h⟩
  | cons target targets ih =>
    obtain ⟨passed, hseek⟩ := h.seek target
    exact ih hseek

theorem StandsBehind.atByte? {sql : String} (h : StandsBehind before sql.toList cursor) :
    Location.atByte? sql cursor.offset = some cursor.location :=
  Location.atByte?_eq_some_iff.mpr ⟨before, cursor.rest, h.text_eq, h.offset_eq.symm, h.location_eq.symm⟩

theorem StandsBehind.rest_eq {sql : String} (h : StandsBehind before sql.toList cursor) :
    Text.slice? sql cursor.offset (sql.utf8ByteSize - cursor.offset) = some (String.ofList cursor.rest) := by
  have hslice := Text.slice?_append before cursor.rest []
  have hsize : sql.utf8ByteSize - cursor.offset = Text.byteSize cursor.rest := by
    rw [← Text.byteSize_toList, h.text_eq, Text.byteSize_append, h.offset_eq]
    omega
  rwa [List.append_nil, ← h.text_eq, String.ofList_toList, ← h.offset_eq, ← hsize] at hslice

/-! ## Finding a place -/

/-- A byte that is not before the cursor has what the cursor passed over before it, and more. -/
theorem StandsBehind.ahead (h : StandsBehind before text cursor) {before' rest' : List Char}
    (htext : text = before' ++ rest') (hle : cursor.offset ≤ Text.byteSize before') :
    ∃ between, before' = before ++ between ∧ cursor.rest = between ++ rest' := by
  rcases List.append_eq_append_iff.mp (h.text_eq.symm.trans htext) with hahead | ⟨back, rfl, hrest⟩
  · exact hahead
  · rw [h.offset_eq, Text.byteSize_append] at hle
    cases back with
    | nil => exact ⟨[], by simp, hrest.symm⟩
    | cons c back =>
      rw [Text.byteSize_cons] at hle
      have := c.utf8Size_pos
      omega

/-- The byte found is the one ahead that has the place sought. -/
theorem StandsBehind.seek_eq_some_iff {sql : String} (h : StandsBehind before sql.toList cursor) {target : Location}
    {offset : Nat} : (cursor.seek target).2 = some offset ↔
      cursor.offset ≤ offset ∧ Location.atByte? sql offset = some target := by
  constructor
  · intro hfound
    obtain ⟨hplace, hoffset, -, hforward, -⟩ :=
      seek_some (Prod.ext rfl hfound : cursor.seek target = (_, some offset))
    obtain ⟨passed, hmoved⟩ := h.seek target
    have hbyte := hmoved.atByte?
    rw [hplace, hoffset] at hbyte
    exact ⟨hforward, hbyte⟩
  · rintro ⟨hle, hbyte⟩
    obtain ⟨before', rest', htext, rfl, hplace⟩ := Location.atByte?_eq_some_iff.mp hbyte
    obtain ⟨between, rfl, hrest⟩ := h.ahead htext hle
    rw [Location.after_append, ← h.location_eq] at hplace
    have hmove := moveFrom_after cursor.location cursor.offset between rest'
    rw [hplace, ← hrest] at hmove
    rw [Text.byteSize_append, ← h.offset_eq]
    simp [Cursor.seek, moveTo, hmove]

/-- Wherever a cursor was sent before, it finds the byte that has the place sought, if that is not before it, and
none otherwise. No other byte has that place. The cursor never goes back. It always rests between two characters or
at an end of the script, at the byte found if there is one, knows the place there and has the rest of the script
ahead. -/
theorem seek_exact (sql : String) (targets : List Location) (target : Location) :
    let cursor := (ofText sql.toList).seekAll targets
    let moved := (cursor.seek target).1
    let found := (cursor.seek target).2
    (∀ offset, found = some offset ↔ cursor.offset ≤ offset ∧ Location.atByte? sql offset = some target) ∧
      (∀ offset offset', Location.atByte? sql offset = some target →
        Location.atByte? sql offset' = some target → offset = offset') ∧
      (∀ offset, found = some offset → moved.offset = offset ∧ moved.location = target) ∧
      (cursor.offset ≤ moved.offset ∧ cursor.location ≤ moved.location) ∧
      Location.atByte? sql moved.offset = some moved.location ∧
      Text.slice? sql moved.offset (sql.utf8ByteSize - moved.offset) = some (String.ofList moved.rest) := by
  intro cursor moved found
  obtain ⟨before, hcursor⟩ := (standsBehind_ofText sql.toList).seekAll targets
  obtain ⟨passed, hmoved⟩ := hcursor.seek target
  refine ⟨fun offset => hcursor.seek_eq_some_iff, fun offset offset' => Location.atByte?_inj, ?_, ⟨?_, ?_⟩,
    hmoved.atByte?, hmoved.rest_eq⟩
  · intro offset hfound
    obtain ⟨hplace, hoffset, -⟩ := seek_some (Prod.ext rfl hfound : cursor.seek target = (moved, some offset))
    exact ⟨hoffset, hplace⟩
  · rw [hcursor.offset_eq, hmoved.offset_eq, Text.byteSize_append]
    exact Nat.le_add_right _ _
  · rw [hcursor.location_eq, hmoved.location_eq, Location.after_append]
    exact Location.le_after _ passed

/-- A letter of two bytes and two lines. A place beyond the end of the first line sends the cursor to the second
line. There it finds no place of the first line any more, but the end of the text, and nothing beyond it. -/
theorem seek_exact_lines :
    let cursor := (ofText "é\nab".toList).seekAll [⟨1, 9⟩]
    (cursor.offset = 3 ∧ cursor.location = ⟨2, 1⟩) ∧
      Location.atByte? "é\nab" 1 = none ∧
      (Location.atByte? "é\nab" 2 = some ⟨1, 2⟩ ∧ (cursor.seek ⟨1, 2⟩).2 = none) ∧
      (Location.atByte? "é\nab" 5 = some ⟨2, 3⟩ ∧ (cursor.seek ⟨2, 3⟩).2 = some 5) ∧
      ∀ offset, (cursor.seek ⟨2, 4⟩).2 ≠ some offset ∧
        ¬ (3 ≤ offset ∧ Location.atByte? "é\nab" offset = some ⟨2, 4⟩) := by
  intro cursor
  have hend : Location.atByte? "é\nab" 5 = some ⟨2, 3⟩ := by decide +kernel
  have hbeyond : (cursor.seek ⟨2, 4⟩).2 = none := by decide
  refine ⟨⟨by decide, by decide⟩, by decide +kernel, ⟨by decide +kernel, by decide⟩, ⟨hend, ?_⟩,
    fun offset => ?_⟩
  · exact ((seek_exact "é\nab" [⟨1, 9⟩] ⟨2, 3⟩).1 5).mpr ⟨by decide, hend⟩
  · have hnone : (cursor.seek ⟨2, 4⟩).2 ≠ some offset := by simp [hbeyond]
    exact ⟨hnone, fun h => hnone (((seek_exact "é\nab" [⟨1, 9⟩] ⟨2, 4⟩).1 offset).mpr h)⟩

end Cursor

end TransactLint
