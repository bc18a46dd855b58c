import TransactLint.Proofs.LineEnd

/-!
# Joining scripts at a separator

A script, a line `GO` and another script have together the terminals of the one, the separator and the
terminals of the other, further down.
-/

namespace TransactLint

open Lexeme

namespace Scans

variable {here : Location} {offset : Nat} {afterWord : Bool} {text rest : List Char} {tokens more : List Token}

theorem tokens_nil (h : Scans here offset afterWord [] tokens) : tokens = [] := by
  cases h
  rfl

/-- A lexeme whose characters are known. -/
theorem of_piece {c : Char} {cs piece : List Char} {s : Scan} (h : scan here afterWord c cs = .ok s)
    (hsplit : c :: cs = piece ++ rest) (hlength : piece.length = s.extra + 1)
    (hrest : Scans (here.after piece) (offset + Text.byteSize piece) s.kind.isWordLike rest tokens) :
    Scans here offset afterWord (c :: cs) (s.token here offset piece :: tokens) := by
  obtain ⟨d, piece, rfl⟩ := List.exists_cons_of_length_eq_add_one hlength
  rw [List.cons_append, List.cons.injEq] at hsplit
  obtain ⟨rfl, rfl⟩ := hsplit
  have hextra : s.extra = piece.length := by simpa using hlength.symm
  have hpiece : s.piece c (piece ++ rest) = c :: piece := by simp [Scan.piece, hextra]
  rw [← hpiece] at hrest ⊢
  exact .cons h (by simpa [hextra] using hrest)

theorem line (h : Scans (here.after ['\n']) (offset + Text.byteSize ['\n']) false rest more) (afterWord : Bool) :
    ∃ t, t.isTrivia = true ∧ Scans here offset afterWord ('\n' :: rest) (t :: more) :=
  ⟨_, rfl, .cons scan_line h⟩

def EndsClosed (tokens : List Token) : Prop :=
  ∀ t ∈ (tokens.filter fun t => !t.isTrivia).getLast?, t.kind = .semicolon

theorem EndsClosed.tail {t : Token} (h : EndsClosed (t :: tokens)) : EndsClosed tokens := by
  intro u hu
  refine h u ?_
  by_cases htrivia : t.isTrivia = true
  · simpa [htrivia] using hu
  · simp only [Bool.not_eq_true] at htrivia
    simp only [List.filter_cons, htrivia, Bool.not_false, if_true, List.getLast?_cons]
    rw [Option.mem_def.mp hu]
    rfl

theorem EndsClosed.mayEnd {t : Token} (h : EndsClosed [t]) : mayEnd t.kind = true := by
  by_cases htrivia : t.isTrivia = true
  · simp [Lexeme.mayEnd, show t.kind.isTrivia = true from htrivia]
  · simp [Lexeme.mayEnd, h t (by simp [htrivia])]

/-- A text that ends with `;` or trivia has the same significant tokens before a line end. -/
theorem append_line (h : Scans here offset afterWord text tokens) (hlast : EndsClosed tokens)
    (hmore : Scans (here.after (text ++ ['\n'])) (offset + Text.byteSize (text ++ ['\n'])) false rest more) :
    ∃ kept tail tail', tokens = kept ++ tail ∧ (∀ t ∈ tail, t.isTrivia = true) ∧
      (∀ t ∈ tail', t.isTrivia = true) ∧
      Scans here offset afterWord (text ++ '\n' :: rest) (kept ++ (tail' ++ more)) := by
  induction h with
  | nil here offset afterWord =>
    obtain ⟨t, ht, hline⟩ := line hmore afterWord
    exact ⟨[], [], [t], rfl, by simp, by simpa using ht, hline⟩
  | @cons here offset afterWord c cs s tokens hscan hrest ih =>
    obtain ⟨s', hs', hkept⟩ := scan_append rest s hscan
    by_cases hextra : s.extra < cs.length
    · obtain ⟨rfl, hle⟩ | ⟨_, _, hall, _⟩ := hkept (.inl hextra)
      · have htext : ∀ ds, c :: cs ++ ds = s'.piece c cs ++ (cs.drop s'.extra ++ ds) := by
          intro ds
          rw [← List.append_assoc, s'.piece_append_drop]
        rw [htext, Location.after_append, Text.byteSize_append, ← Nat.add_assoc] at hmore
        obtain ⟨kept, tail, tail', rfl, htail, htail', hscans⟩ := ih hlast.tail hmore
        exact ⟨_ :: kept, tail, tail', rfl, htail, htail',
          of_piece hs' (htext _) (by simp [Scan.piece, hle]) hscans⟩
      · omega
    · -- the lexeme is the last one
      have hnil : cs.drop s.extra = [] := List.drop_eq_nil_of_le (Nat.le_of_not_lt hextra)
      have hpiece := s.piece_append_drop c cs
      rw [hnil, List.append_nil] at hpiece
      rw [hnil] at hrest
      obtain rfl := hrest.tokens_nil
      obtain ⟨rfl, hle⟩ | ⟨htrivia, hkind, hall, hmoreExtra⟩ := hkept (.inr hlast.mayEnd)
      · rw [Location.after_append, Text.byteSize_append, ← Nat.add_assoc] at hmore
        obtain ⟨t, ht, hline⟩ := line hmore s'.kind.isWordLike
        rw [hpiece]
        refine ⟨[_], [], [t], rfl, by simp, by simpa using ht, of_piece hs' rfl ?_ hline⟩
        simp
        omega
      · have hword : s'.kind.isWordLike = false := by
          rw [hkind]
          cases hs : s.kind <;> simp_all [TokenKind.isTrivia, TokenKind.isWordLike]
        rw [← hword] at hmore
        refine ⟨[], _, [_], rfl, ?_, ?_, of_piece hs' ?_ ?_ hmore⟩
        · simpa [Scan.token, Token.isTrivia] using htrivia
        · simpa [Scan.token, Token.isTrivia, hkind] using htrivia
        · simp
        · simp [hmoreExtra]

theorem separator (h : Scans (here.after ['G', 'O', '\n']) (offset + Text.byteSize ['G', 'O', '\n'])
    false rest more) :
    ∃ go line, go.kind = .identifier ∧ go.value = "GO" ∧ go.start = here ∧ line.isTrivia = true ∧
      Scans here offset false ('G' :: 'O' :: '\n' :: rest) (go :: line :: more) := by
  have hword : scan here false 'G' ('O' :: '\n' :: rest) = .ok ⟨.identifier, ['G', 'O'], 1⟩ := rfl
  obtain ⟨line, hline, hscans⟩ :=
    @line (here.after ['G', 'O']) (offset + Text.byteSize ['G', 'O']) rest more h true
  exact ⟨_, line, rfl, rfl, rfl, hline, of_piece hword rfl rfl hscans⟩

end Scans

/-! ## Displacement -/

/-- How far a text is moved down, in tokens, bytes and lines. -/
structure Displacement where
  tokens : Nat
  bytes : Nat
  lines : Nat

namespace Displacement

variable (k : Displacement)

def location (l : Location) : Location := ⟨l.line + k.lines, l.column⟩

def token (t : Token) : Token := { t with start := k.location t.start, offset := t.offset + k.bytes }

theorem location_after (l : Location) (cs : List Char) : (k.location l).after cs = k.location (l.after cs) := by
  induction cs generalizing l with
  | nil => rfl
  | cons c cs ih =>
    have hstep : (k.location l).advance c = k.location (l.advance c) := by
      unfold Location.advance
      split
      · simp [location, Nat.add_right_comm]
      · rfl
    change ((k.location l).advance c).after cs = k.location ((l.advance c).after cs)
    rw [hstep, ih]

end Displacement

theorem Scans.displace {here : Location} {offset : Nat} {afterWord : Bool} {text : List Char} {tokens : List Token}
    (h : Scans here offset afterWord text tokens) (k : Displacement) :
    Scans (k.location here) (offset + k.bytes) afterWord text (tokens.map k.token) := by
  induction h with
  | nil => exact .nil _ _ _
  | cons hscan _ ih =>
    rw [Nat.add_right_comm, ← k.location_after] at ih
    exact .cons (scan_place hscan) ih

/-! ## Terminals -/

def Displacement.terminal (k : Displacement) (x : Terminal) : Terminal := ⟨k.token x.token, x.index + k.tokens⟩

namespace Terminals

/-- The terminals among tokens of which the first has the index `n`. -/
def significant (n : Nat) (tokens : List Token) : List Terminal :=
  ((tokens.zipIdx n).filter fun x => !x.1.isTrivia).map fun x => ⟨x.1, x.2⟩

theorem significant_append (n : Nat) (xs ys : List Token) :
    significant n (xs ++ ys) = significant n xs ++ significant (n + xs.length) ys := by
  simp [significant, List.zipIdx_append]

theorem significant_cons {n : Nat} {t : Token} (h : t.isTrivia = false) (tokens : List Token) :
    significant n (t :: tokens) = ⟨t, n⟩ :: significant (n + 1) tokens := by
  simp [significant, List.zipIdx_cons, h]

theorem significant_cons_trivia {n : Nat} {t : Token} (h : t.isTrivia = true) (tokens : List Token) :
    significant n (t :: tokens) = significant (n + 1) tokens := by
  simp [significant, List.zipIdx_cons, h]

theorem significant_trivia {n : Nat} {tokens : List Token} (h : ∀ t ∈ tokens, t.isTrivia = true) :
    significant n tokens = [] := by
  induction tokens generalizing n with
  | nil => rfl
  | cons t tokens ih =>
    simp only [List.forall_mem_cons] at h
    rw [significant_cons_trivia h.1, ih h.2]

theorem significant_displace (k : Displacement) (n : Nat) (tokens : List Token) :
    significant (n + k.tokens) (tokens.map k.token) = (significant n tokens).map k.terminal := by
  induction tokens generalizing n with
  | nil => rfl
  | cons t tokens ih =>
    have hrest := ih (n + 1)
    rw [Nat.add_right_comm] at hrest
    cases h : t.isTrivia with
    | true =>
      have hmoved : (k.token t).isTrivia = true := h
      rw [List.map_cons, significant_cons_trivia hmoved, significant_cons_trivia h, hrest]
    | false =>
      have hmoved : (k.token t).isTrivia = false := h
      rw [List.map_cons, significant_cons hmoved, significant_cons h, hrest]
      rfl

theorem significant_join {kept tail tail' tokens₂ : List Token} {go line : Token} {k : Displacement}
    (htail : ∀ t ∈ tail, t.isTrivia = true) (htail' : ∀ t ∈ tail', t.isTrivia = true)
    (hgo : go.isTrivia = false) (hline : line.isTrivia = true) (hk : k.tokens = (kept ++ tail').length + 2) :
    significant 0 (kept ++ (tail' ++ go :: line :: tokens₂.map k.token)) =
      significant 0 (kept ++ tail) ++ ⟨go, (kept ++ tail').length⟩ :: (significant 0 tokens₂).map
        k.terminal := by
  have hmoved := significant_displace k 0 tokens₂
  rw [Nat.zero_add] at hmoved
  rw [← List.append_assoc, significant_append, significant_append 0 kept, significant_append 0 kept,
    significant_trivia htail, significant_trivia htail', significant_cons hgo, significant_cons_trivia hline,
    Nat.zero_add, ← hmoved, hk]

/-- The terminals of a script and those of another that is displaced, with a separator between them. -/
structure Joined (ts ts₂ all : Terminals) (go : Terminal) (k : Displacement) : Prop where
  toList : all.toList = ts.toList ++ go :: ts₂.toList.map k.terminal
  kind : go.token.kind = .identifier
  word : go.token.isWord "GO" = true
  below : ∀ x ∈ ts.toList, x.token.start.line < go.token.start.line
  above : ∀ x ∈ ts₂.toList, go.token.start.line < (k.terminal x).token.start.line

end Terminals

theorem Location.after_line (l : Location) (cs : List Char) :
    l.after (cs ++ ['\n']) = ⟨(l.after cs).line + 1, 1⟩ := by
  rw [Location.after_append]
  rfl

open Terminals in
theorem tokenize_join {a b : String} {tokens tokens₂ : List Token} (ha : tokenize a = .ok tokens)
    (hb : tokenize b = .ok tokens₂) (hlast : Scans.EndsClosed tokens) :
    ∃ all go k, tokenize (a ++ "\nGO\n" ++ b) = .ok all ∧
      Terminals.Joined (.ofTokens tokens) (.ofTokens tokens₂) (.ofTokens all) go k := by
  have hplaced := (tokenize_ordered hb).2
  rw [tokenize_iff] at ha hb
  let bytes := Text.byteSize (a.toList ++ ['\n']) + Text.byteSize ['G', 'O', '\n']
  let lines := (Location.origin.after a.toList).line + 1
  -- the tokens of `b` behind the separator, which still have to be given their indices
  have hmoved := hb.displace ⟨0, bytes, lines⟩
  have hplace : Location.origin.after (a.toList ++ ['\n']) = ⟨lines, 1⟩ := Location.after_line _ _
  have hdown : (Location.origin.after (a.toList ++ ['\n'])).after ['G', 'O', '\n'] = ⟨1 + lines, 1⟩ := by
    rw [hplace, Nat.add_comm]
    rfl
  rw [show Displacement.location ⟨0, bytes, lines⟩ .origin = _ from hdown.symm, ← Nat.add_assoc] at hmoved
  obtain ⟨go, line, hkind, hvalue, hstart, hline, hseparator⟩ := Scans.separator hmoved
  obtain ⟨kept, tail, tail', rfl, htail, htail', hall⟩ := ha.append_line hlast hseparator
  have hgo : go.isTrivia = false := by simp [Token.isTrivia, hkind, TokenKind.isTrivia]
  have hword : go.isWord "GO" = true := by
    rw [Token.isWord, hkind, hvalue]
    decide
  have htext : (a ++ "\nGO\n" ++ b).toList = a.toList ++ '\n' :: 'G' :: 'O' :: '\n' :: b.toList := by simp
  rw [← htext] at hall
  let k : Displacement := ⟨(kept ++ tail').length + 2, bytes, lines⟩
  change Scans _ _ _ _ (kept ++ (tail' ++ go :: line :: tokens₂.map k.token)) at hall
  have hterminals := @significant_join kept tail tail' tokens₂ go line k htail htail' hgo hline rfl
  refine ⟨_, ⟨go, (kept ++ tail').length⟩, k, tokenize_iff.mpr hall, hterminals, hkind, hword, fun x hx => ?_,
    fun x hx => ?_⟩
  · have hle := ha.start_le _ (List.mem_of_getElem? (Terminals.mem_ofTokens.mp hx).1)
    rw [Location.le_def] at hle
    rw [hstart, hplace]
    dsimp only [lines]
    omega
  · have hle := (hplaced _ (List.mem_of_getElem? (Terminals.mem_ofTokens.mp hx).1)).2
    rw [Location.le_def] at hle
    rw [hstart, hplace]
    simp only [Displacement.terminal, Displacement.token, Displacement.location, k, Location.origin] at *
    omega

end TransactLint
