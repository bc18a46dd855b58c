import TransactLint.Proofs.TokenOrder

/-!
# Scanning

The tokens of a script are found in two passes, the second of which counts the bytes of what the first
has read. `Scans` describes both as one pass over the text.
-/

namespace TransactLint

namespace Text

theorem byteSize_cons (c : Char) (cs : List Char) : byteSize (c :: cs) = c.utf8Size + byteSize cs := by
  have hfold : ∀ (cs : List Char) (n : Nat), cs.foldl (fun n c => n + c.utf8Size) n = n + byteSize cs := by
    intro cs
    induction cs with
    | nil => simp [byteSize]
    | cons c cs ih =>
      intro n
      simp only [byteSize, List.foldl_cons]
      rw [ih, ih (0 + c.utf8Size)]
      omega
  simp only [byteSize, List.foldl_cons]
  rw [hfold, Nat.zero_add, byteSize]

theorem byteSize_append (cs ds : List Char) : byteSize (cs ++ ds) = byteSize cs + byteSize ds := by
  induction cs with
  | nil => simp [byteSize]
  | cons c cs ih => rw [List.cons_append, byteSize_cons, byteSize_cons, ih, Nat.add_assoc]

theorem takeBytesOnto?_append (cs rest taken : List Char) :
    takeBytesOnto? taken (byteSize cs) (cs ++ rest) = some (taken.reverse ++ cs) := by
  induction cs generalizing taken with
  | nil => simp [byteSize, takeBytesOnto?]
  | cons c cs ih =>
    have hpos := c.utf8Size_pos
    obtain ⟨n, hn⟩ : ∃ n, byteSize (c :: cs) = n + 1 :=
      ⟨byteSize (c :: cs) - 1, by rw [byteSize_cons]; omega⟩
    have hleft : n + 1 - c.utf8Size = byteSize cs := by
      rw [← hn, byteSize_cons]
      omega
    have hle : c.utf8Size ≤ n + 1 := by
      rw [← hn, byteSize_cons]
      omega
    rw [hn, List.cons_append, takeBytesOnto?, if_pos hle, hleft, ih]
    simp

theorem takeBytes?_append (cs rest : List Char) : takeBytes? (byteSize cs) (cs ++ rest) = some cs :=
  takeBytesOnto?_append cs rest []

end Text

theorem Location.after_append (l : Location) (cs ds : List Char) : l.after (cs ++ ds) = (l.after cs).after ds :=
  List.foldl_append

namespace Cursor

theorem moveFrom_self (here : Location) (offset : Nat) (cs : List Char) :
    moveFrom here here offset cs = ⟨here, offset, cs⟩ := by
  cases cs with
  | nil => rfl
  | cons c cs => rw [moveFrom, if_neg (Location.lt_irrefl here)]

theorem moveFrom_after (here : Location) (offset : Nat) (cs rest : List Char) :
    moveFrom (here.after cs) here offset (cs ++ rest) = ⟨here.after cs, offset + Text.byteSize cs, rest⟩ := by
  induction cs generalizing here offset with
  | nil => exact moveFrom_self here offset rest
  | cons c cs ih =>
    rw [List.cons_append, moveFrom, if_pos (here.lt_after_cons c cs)]
    have hmoved := ih (here.advance c) (offset + c.utf8Size)
    rw [Text.byteSize_cons, ← Nat.add_assoc]
    exact hmoved

end Cursor

/-! ## One lexeme -/

/-- The cursor finds a lexeme that begins where it stands and takes up the next characters. -/
theorem Lexeme.token_of_stop {x : Lexeme} {here : Location} {piece : List Char} (hstart : x.start = here)
    (hstop : x.stop = here.after piece) (offset : Nat) (rest : List Char) :
    x.token ⟨here, offset, piece ++ rest⟩ =
      .ok (⟨x.kind, String.ofList piece, String.ofList x.value, here, offset, Text.byteSize piece⟩,
        ⟨here.after piece, offset + Text.byteSize piece, rest⟩) := by
  have hbefore : Cursor.seek ⟨here, offset, piece ++ rest⟩ here = (⟨here, offset, piece ++ rest⟩,
      some offset) := by
    simp [Cursor.seek, Cursor.moveTo, Cursor.moveFrom_self]
  have hafter : Cursor.seek ⟨here, offset, piece ++ rest⟩ (here.after piece) =
      (⟨here.after piece, offset + Text.byteSize piece, rest⟩, some (offset + Text.byteSize piece)) := by
    simp [Cursor.seek, Cursor.moveTo, Cursor.moveFrom_after]
  simp only [token, hstart, hstop, hbefore, hafter, Nat.add_sub_cancel_left, Text.takeBytes?_append]

namespace Scan

def piece (s : Scan) (c : Char) (cs : List Char) : List Char := c :: cs.take s.extra

theorem piece_append_drop (s : Scan) (c : Char) (cs : List Char) : s.piece c cs ++ cs.drop s.extra = c :: cs := by
  simp [piece]

def token (s : Scan) (here : Location) (offset : Nat) (piece : List Char) : Token :=
  ⟨s.kind, String.ofList piece, String.ofList s.value, here, offset, Text.byteSize piece⟩

theorem token_lexeme (s : Scan) (here : Location) (offset : Nat) (c : Char) (cs : List Char) :
    (⟨s.kind, s.value, here, here.after (s.piece c cs)⟩ : Lexeme).token ⟨here, offset, c :: cs⟩ =
      .ok (s.token here offset (s.piece c cs),
        ⟨here.after (s.piece c cs), offset + Text.byteSize (s.piece c cs), cs.drop s.extra⟩) := by
  rw [← s.piece_append_drop c cs]
  exact Lexeme.token_of_stop rfl rfl offset _

end Scan

/-! ## A whole text -/

/-- The tokens of a text that begins at a place and a byte. -/
inductive Scans : Location → Nat → Bool → List Char → List Token → Prop where
  | nil (here : Location) (offset : Nat) (afterWord : Bool) : Scans here offset afterWord [] []
  | cons {here : Location} {offset : Nat} {afterWord : Bool} {c : Char} {cs : List Char} {s : Scan}
      {tokens : List Token} (h : Lexeme.scan here afterWord c cs = .ok s)
      (hrest : Scans (here.after (s.piece c cs)) (offset + Text.byteSize (s.piece c cs)) s.kind.isWordLike
        (cs.drop s.extra) tokens) :
      Scans here offset afterWord (c :: cs) (s.token here offset (s.piece c cs) :: tokens)

open Lexeme

theorem Scans.lexemesFrom {here : Location} {offset : Nat} {afterWord : Bool} {text : List Char}
    {tokens : List Token} (h : Scans here offset afterWord text tokens) (found : List Lexeme) :
    ∃ xs, Lexeme.lexemesFrom found here afterWord text = .ok (found.reverse ++ xs) ∧
      ∀ before, tokensFrom before ⟨here, offset, text⟩ xs = .ok (before.reverse ++ tokens) := by
  induction h generalizing found with
  | nil => exact ⟨[], by simp [Lexeme.lexemesFrom], fun before => by simp [tokensFrom]⟩
  | @cons here offset afterWord c cs s tokens hscan _ ih =>
    obtain ⟨xs, hxs, htokens⟩ := ih (⟨s.kind, s.value, here, here.after (s.piece c cs)⟩ :: found)
    refine ⟨⟨s.kind, s.value, here, here.after (s.piece c cs)⟩ :: xs, ?_, fun before => ?_⟩
    · rw [Lexeme.lexemesFrom]
      simp only [hscan]
      exact hxs.trans (by simp)
    · simp only [tokensFrom, s.token_lexeme, htokens]
      simp

theorem scans_of_lexemesFrom {found all : List Lexeme} {here : Location} {afterWord : Bool} {text : List Char}
    (h : Lexeme.lexemesFrom found here afterWord text = .ok all) (offset : Nat) :
    ∃ tokens, Scans here offset afterWord text tokens := by
  fun_induction Lexeme.lexemesFrom found here afterWord text generalizing offset with
  | case1 => exact ⟨[], .nil _ _ _⟩
  | case2 => cases h
  | case3 found here afterWord c cs s hs stop ih =>
    obtain ⟨tokens, htokens⟩ := ih h (offset + Text.byteSize (s.piece c cs))
    exact ⟨_, .cons hs htokens⟩

theorem tokenize_iff {sql : String} {tokens : List Token} :
    tokenize sql = .ok tokens ↔ Scans .origin 0 false sql.toList tokens := by
  have htokenize : ∀ {found}, Scans .origin 0 false sql.toList found → tokenize sql = .ok found := by
    intro found h
    obtain ⟨xs, hxs, htokens⟩ := h.lexemesFrom []
    have hlexemes : lexemes sql.toList = .ok xs := hxs
    simp only [tokenize, hlexemes]
    exact htokens []
  refine ⟨fun h => ?_, htokenize⟩
  cases hlexemes : lexemes sql.toList with
  | error e =>
    simp only [tokenize, hlexemes] at h
    cases h
  | ok all =>
    obtain ⟨found, hfound⟩ := scans_of_lexemesFrom hlexemes 0
    cases h.symm.trans (htokenize hfound)
    exact hfound

/-! ## The place of a text -/

namespace Scans

variable {here : Location} {offset : Nat} {afterWord : Bool} {text : List Char} {tokens : List Token}

/-- No token begins after the end of the text. -/
theorem start_le (h : Scans here offset afterWord text tokens) : ∀ t ∈ tokens, t.start ≤ here.after text := by
  induction h with
  | nil => simp
  | @cons here offset afterWord c cs s tokens _ _ ih =>
    rw [← s.piece_append_drop c cs, Location.after_append]
    intro t ht
    rcases List.mem_cons.mp ht with rfl | ht
    · rw [← Location.after_append]
      exact here.le_after _
    · exact ih t ht

end Scans

end TransactLint
