import TransactLint.Proofs.LineEnd
import TransactLint.Proofs.Reading
import TransactLint.Proofs.Tiling

/-!
# The line of a separator

`GO` is a separator if the terminal before it begins on an earlier line. It then stands alone on its line, with
nothing but blanks and comments before it, unless that terminal holds a line feed and ends next to it. Only
literals, delimited names, dollar quotes and the names after `#` and `@` can do so.
-/

namespace TransactLint

/-! ## The lines of a token -/

namespace Token

def OnLine (t : Token) (line : Nat) : Prop :=
  ∃ before c after, t.text.toList = before ++ c :: after ∧ (t.start.after before).line = line

def lastLine (t : Token) : Nat := (t.start.after t.text.toList.dropLast).line

end Token

theorem Location.line_le_of_le {a b : Location} (h : a ≤ b) : a.line ≤ b.line := by
  rw [le_def] at h
  omega

section
variable {t : Token} {line : Nat}

theorem Token.onLine_start (ht : t.text.toList ≠ []) : t.OnLine t.start.line := by
  obtain ⟨c, cs, hcs⟩ := List.exists_cons_of_ne_nil ht
  exact ⟨[], c, cs, hcs, rfl⟩

theorem Token.onLine_lastLine (ht : t.text.toList ≠ []) : t.OnLine t.lastLine :=
  ⟨t.text.toList.dropLast, t.text.toList.getLast ht, [], (List.dropLast_append_getLast ht).symm, rfl⟩

theorem Token.OnLine.le_lastLine (h : t.OnLine line) : line ≤ t.lastLine := by
  obtain ⟨before, c, after, htext, rfl⟩ := h
  rw [lastLine, htext, List.dropLast_append_of_ne_nil (List.cons_ne_nil c after), Location.after_append]
  exact Location.line_le_of_le (Location.le_after _ _)

theorem Token.lastLine_le : t.lastLine ≤ (t.start.after t.text.toList).line := by
  rw [lastLine, Location.line_after, Location.line_after]
  have hcount := (List.dropLast_sublist t.text.toList).count_le '\n'
  omega

/-- A token without line feeds stands on one line. -/
theorem Token.lastLine_eq (ht : '\n' ∉ t.text.toList) : t.lastLine = t.start.line := by
  have hcount : t.text.toList.dropLast.count '\n' = 0 :=
    List.count_eq_zero.mpr fun hmem => ht (List.dropLast_subset _ hmem)
  rw [lastLine, Location.line_after, hcount, Nat.add_zero]

end

/-! ## Lexemes without line feeds -/

/-- Whether a token of this kind that begins with `first` may hold a line feed. -/
def TokenKind.mayBreak (kind : TokenKind) (first : Option Char) : Bool :=
  match kind with
  | .quotedIdentifier | .stringLiteral | .nationalStringLiteral | .binaryLiteral | .localVariable | .other
  | .blank | .comment => true
  | .identifier => first == some '#'
  | _ => false

def Token.mayBreak (t : Token) : Bool := t.kind.mayBreak t.text.toList.head?

theorem Keyword.ofWord?_newline {word : List Char} (h : '\n' ∈ word) : ofWord? word = none := by
  have hspelling : ∀ k : Keyword, '\n' ∉ k.spelling.toList := by
    intro k
    cases k <;> decide
  -- the upper form of a word keeps its line feeds
  have hupper : ∀ form, Text.upperWord? word = some form → '\n' ∈ form := by
    induction word with
    | nil => cases h
    | cons c cs ih =>
      intro form hform
      rw [Text.upperWord?] at hform
      split at hform
      · rename_i first rest hfirst hrest
        cases hform
        rcases List.mem_cons.mp h with rfl | h
        · cases hfirst
          exact List.mem_cons_self
        · exact List.mem_append_right _ (ih h rest hrest)
      · cases hform
  have hfolded : (Text.upperWord? word).bind (fun form => folded.find? fun k => k.spelling.toList == form) =
      none := by
    rw [Option.bind_eq_none_iff]
    intro form hform
    refine List.find?_eq_none.mpr fun k _ hk => hspelling k ?_
    rw [eq_of_beq hk]
    exact hupper form hform
  have hplain : plain.find? (fun k => k.spelling.toList == Text.upperAscii word) = none := by
    refine List.find?_eq_none.mpr fun k _ hk => hspelling k ?_
    rw [eq_of_beq hk]
    exact List.mem_map.mpr ⟨'\n', h, rfl⟩
  rw [ofWord?, hfolded, hplain]

namespace Lexeme

variable {here : Location} {afterWord : Bool} {c closer : Char} {cs : List Char} {s : Scan}

/-- A lexeme that an attempt finds before `cs` holds no line feed, unless its kind may hold one. -/
def Unbroken (c : Char) (cs : List Char) (x : Except LexicalError Scan) : Prop :=
  ∀ s, x = .ok s → s.kind.mayBreak (some c) = false → '\n' ∉ s.piece c cs

section
variable {x y : Except LexicalError Scan}

theorem Unbroken.ok (h : s.kind.mayBreak (some c) = false → '\n' ∉ s.piece c cs) : Unbroken c cs (.ok s) := by
  rintro _ ⟨⟩
  exact h

theorem Unbroken.ofKind (h : s.kind.mayBreak (some c) = true) : Unbroken c cs (.ok s) :=
  .ok fun hkind => absurd h (Bool.eq_false_iff.mp hkind)

theorem Unbroken.error {e : LexicalError} : Unbroken c cs (.error e) := by
  intro s h
  cases h

theorem Unbroken.ite {p : Prop} [Decidable p] (hx : p → Unbroken c cs x) (hy : ¬ p → Unbroken c cs y) :
    Unbroken c cs (if p then x else y) := by
  by_cases hp : p
  · rw [if_pos hp]
    exact hx hp
  · rw [if_neg hp]
    exact hy hp

end

theorem quotedLiteral_unbroken {kind : TokenKind} {lead : Nat} {body : Option (List Char × Nat)}
    (hkind : kind.mayBreak (some c) = true) : Unbroken c cs (quotedLiteral kind here lead body) := by
  cases body with
  | none => exact .error
  | some r => exact .ofKind hkind

theorem delimitedIdentifier_unbroken : Unbroken c cs (delimitedIdentifier here closer cs) := by
  unfold delimitedIdentifier
  split
  · exact .ofKind rfl
  · exact .error

theorem blockComment_unbroken : Unbroken c cs (blockComment here cs) := by
  unfold blockComment
  split
  · exact .ofKind rfl
  · exact .error

theorem dollar_unbroken : Unbroken c cs (dollar here cs) := by
  unfold dollar
  dsimp only
  split
  · split
    · exact .ofKind rfl
    · exact .error
  · exact .ofKind rfl

/-! ### Numbers -/

theorem newline_not_mem_digits : '\n' ∉ cs.takeWhile Char.isDigit :=
  fun hmem => absurd (List.mem_takeWhile_imp hmem) (by decide)

theorem newline_not_mem_exponentPart : '\n' ∉ exponentPart cs := by
  cases cs with
  | nil => exact List.not_mem_nil
  | cons e cs =>
    have hsign : '\n' ∉ cs.take (if cs.head? = some '+' || cs.head? = some '-' then 1 else 0) := by
      cases cs with
      | nil => simp
      | cons d cs =>
        by_cases hplus : d = '+'
        · simp [hplus]
        · by_cases hminus : d = '-' <;> simp [hplus, hminus]
    unfold exponentPart
    dsimp only
    generalize cs.take (if cs.head? = some '+' || cs.head? = some '-' then 1 else 0) = sign at *
    split
    · rename_i hexponent
      have he : '\n' ≠ e := by
        rintro rfl
        simp at hexponent
      simp only [List.cons_append, List.mem_cons, List.mem_append, not_or]
      exact ⟨he, hsign, newline_not_mem_digits⟩
    · exact List.not_mem_nil

theorem newline_not_mem_mantissaPart : '\n' ∉ mantissaPart cs := by
  unfold mantissaPart
  dsimp only
  split
  · simp only [List.mem_append, List.mem_cons, not_or]
    exact ⟨newline_not_mem_digits, by decide, newline_not_mem_digits⟩
  · exact newline_not_mem_digits

theorem mantissaPart_ne_nil (hc : (c.isDigit || c = '.') = true) : mantissaPart (c :: cs) ≠ [] := by
  unfold mantissaPart
  by_cases hdigit : c.isDigit = true
  · simp only [List.takeWhile_cons, hdigit, if_true]
    split <;> simp
  · have hperiod : c = '.' := by simpa [hdigit] using hc
    simp [hperiod]

theorem number_unbroken (hc : (c.isDigit || c = '.') = true) : Unbroken c cs (.ok (number (c :: cs))) := by
  by_cases hbinary : ∃ rest, c :: cs = '0' :: 'x' :: rest
  · obtain ⟨rest, hrest⟩ := hbinary
    rw [hrest]
    exact .ofKind rfl
  have hfirst : '\n' ≠ c := by
    rintro rfl
    simp at hc
  rw [number.eq_2 _ fun rest h => hbinary ⟨rest, h⟩]
  dsimp only
  split
  · refine .ok fun _ => ?_
    simpa [Scan.piece] using hfirst
  · refine .ok fun _ => ?_
    have hpiece : ∀ n, c :: cs.take n = (c :: cs).take (n + 1) := fun _ => rfl
    have hvalue : mantissaPart (c :: cs) ++ exponentPart ((c :: cs).drop (mantissaPart (c :: cs)).length)
        <+: c :: cs :=
      append_isPrefix mantissaPart_isPrefix exponentPart_isPrefix
    have hplain : '\n' ∉ mantissaPart (c :: cs) ++
        exponentPart ((c :: cs).drop (mantissaPart (c :: cs)).length) := by
      simp [newline_not_mem_mantissaPart, newline_not_mem_exponentPart]
    have hpos : 0 < (mantissaPart (c :: cs) ++
        exponentPart ((c :: cs).drop (mantissaPart (c :: cs)).length)).length := by
      have hne : mantissaPart (c :: cs) ≠ [] := mantissaPart_ne_nil hc
      have := List.length_pos_of_ne_nil hne
      simp only [List.length_append]
      omega
    generalize mantissaPart (c :: cs) ++ exponentPart ((c :: cs).drop (mantissaPart (c :: cs)).length) = value at *
    obtain ⟨left, hleft⟩ := hvalue
    rw [Scan.piece, hpiece, Nat.sub_add_cancel (by omega), ← hleft, List.take_length_add_append,
      List.mem_append, not_or]
    refine ⟨hplain, ?_⟩
    rw [List.drop_left]
    -- what follows the value is one capital `L`, or nothing
    cases left with
    | nil => simp
    | cons d left => by_cases hd : d = 'L' <;> simp [hd]

theorem numberOrPeriod_unbroken (hc : (c.isDigit || c = '.') = true) :
    Unbroken c cs (numberOrPeriod here afterWord (c :: cs)) := by
  unfold numberOrPeriod
  split
  · rename_i heq
    cases heq
    refine .ite (fun _ => .ok fun _ => ?_) fun _ => .error
    simp [Scan.piece]
  · exact number_unbroken hc

/-! ### Words and symbols -/

theorem word_piece (c : Char) (lead : Nat) (cs : List Char) :
    (word c lead cs).piece c cs = c :: (cs.take lead ++ (cs.drop lead).takeWhile isWordPart) := by
  have htail : cs.take lead ++ (cs.drop lead).takeWhile isWordPart <+: cs := by
    conv_rhs => rw [← List.take_append_drop lead cs]
    exact (List.prefix_append_right_inj _).mpr (List.takeWhile_prefix _)
  rw [Scan.piece, word, List.prefix_iff_eq_take.mp htail]
  simp

/-- A name after `#` may take a line feed with it, but then it is no keyword. -/
theorem hashWord_unbroken : Unbroken '#' cs (.ok (hashWord cs)) := by
  have hword : Unbroken '#' cs (.ok (word '#' 1 cs)) := by
    refine .ok fun hkind hmem => ?_
    rw [word_piece] at hmem
    have hidentifier : (word '#' 1 cs).kind = .identifier := by
      simp only [word, wordKind, Keyword.ofWord?_newline hmem]
      rfl
    rw [hidentifier] at hkind
    cases hkind
  unfold hashWord
  split
  all_goals first
    | exact .ofKind rfl
    | exact hword

theorem atWord_unbroken : Unbroken '@' cs (.ok (atWord cs)) := by
  unfold atWord
  split
  case h_7 => split <;> exact .ofKind rfl
  all_goals exact .ofKind rfl

theorem plainWord_unbroken (hc : isWordStart c = true) : Unbroken c cs (.ok (word c 0 cs)) := by
  refine .ok fun _ hmem => ?_
  rw [word_piece] at hmem
  rcases List.mem_cons.mp hmem with rfl | hmem
  · exact absurd hc (by decide)
  · exact absurd (List.mem_takeWhile_imp hmem) (by decide)

theorem symbol_unbroken : Unbroken c cs (.ok (symbol c cs)) := by
  have hspelling : ∀ op ∈ operators, '\n' ∉ op.spelling.toList ∧ 0 < op.spelling.length := by decide
  unfold symbol
  cases hfind : operators.find? fun op => op.spelling.toList.isPrefixOf (c :: cs) with
  | none => exact .ofKind rfl
  | some op =>
    refine .ok fun _ => ?_
    obtain ⟨hplain, hpos⟩ := hspelling op (List.mem_of_find?_eq_some hfind)
    have hfront := List.find?_some hfind
    have hpiece : c :: cs.take (op.spelling.length - 1) = op.spelling.toList := by
      have htake := List.prefix_iff_eq_take.mp (List.isPrefixOf_iff_prefix.mp hfront)
      rw [String.length_toList] at htake
      rw [htake]
      obtain ⟨n, hn⟩ : ∃ n, op.spelling.length = n + 1 := ⟨op.spelling.length - 1, by omega⟩
      simp [hn]
    rw [Scan.piece, hpiece]
    exact hplain

theorem scan_unbroken : Unbroken c cs (scan here afterWord c cs) := by
  unfold scan
  refine .ite (fun _ => quotedLiteral_unbroken rfl) fun _ => .ite (fun _ => quotedLiteral_unbroken rfl) fun _ => ?_
  refine .ite (fun _ => quotedLiteral_unbroken rfl) fun _ => .ite (fun _ => delimitedIdentifier_unbroken)
    fun _ => ?_
  refine .ite (fun _ => delimitedIdentifier_unbroken) fun _ => .ite numberOrPeriod_unbroken fun _ => ?_
  refine .ite (fun _ => .ofKind rfl) fun _ => .ite (fun _ => blockComment_unbroken) fun _ => ?_
  refine .ite (fun hc => hc ▸ hashWord_unbroken) fun _ => .ite (fun hc => hc ▸ atWord_unbroken) fun _ => ?_
  refine .ite (fun _ => .ofKind rfl) fun _ => .ite (fun _ => dollar_unbroken) fun _ => ?_
  refine .ite (fun _ => ?_) fun _ => .ite plainWord_unbroken fun _ => symbol_unbroken
  refine .ofKind ?_
  unfold blank
  split
  · rfl
  · split <;> rfl

end Lexeme

/-! ## Tokens of a script -/

namespace Scans

variable {here : Location} {offset : Nat} {afterWord : Bool} {text : List Char} {tokens : List Token}

/-- Every token has been read as a lexeme. -/
theorem scanned (h : Scans here offset afterWord text tokens) : ∀ t ∈ tokens, ∃ here afterWord c cs s,
    Lexeme.scan here afterWord c cs = .ok s ∧ t.kind = s.kind ∧ t.text.toList = s.piece c cs := by
  induction h with
  | nil => simp
  | @cons here offset afterWord c cs s tokens hscan _ ih =>
    intro t ht
    rcases List.mem_cons.mp ht with rfl | ht
    · exact ⟨here, afterWord, c, cs, s, hscan, rfl, String.toList_ofList⟩
    · exact ih t ht

theorem text_ne_nil (h : Scans here offset afterWord text tokens) {t : Token} (ht : t ∈ tokens) :
    t.text.toList ≠ [] := by
  obtain ⟨_, _, c, cs, s, -, -, htext⟩ := h.scanned t ht
  rw [htext]
  exact List.cons_ne_nil _ _

theorem newline_not_mem (h : Scans here offset afterWord text tokens) {t : Token} (ht : t ∈ tokens)
    (hkind : t.mayBreak = false) : '\n' ∉ t.text.toList := by
  obtain ⟨_, _, c, cs, s, hscan, hsame, htext⟩ := h.scanned t ht
  rw [Token.mayBreak, hsame, htext] at hkind
  rw [htext]
  exact Lexeme.scan_unbroken s hscan hkind

/-- A token ends before the next begins. -/
theorem ends_pairwise (h : Scans here offset afterWord text tokens) :
    tokens.Pairwise fun a b => a.start.after a.text.toList ≤ b.start := by
  induction h with
  | nil => exact .nil
  | @cons here offset afterWord c cs s tokens _ hrest ih =>
    refine .cons (fun t ht => ?_) ih
    obtain ⟨before, _, _, _, _, _, _, hstart⟩ := hrest.pieces.splits t ht
    rw [hstart, Scan.token, String.toList_ofList]
    exact Location.le_after _ _

end Scans

/-! ## Separators -/

namespace Terminals

/-- No terminal before the one at `pos` has a part on the line on which that one begins. -/
def Alone (ts : Terminals) (pos : Nat) : Prop :=
  ∀ i t u, i < pos → ts.token? i = some t → ts.token? pos = some u → ¬ t.OnLine u.start.line

variable {tokens : List Token} {pos : Nat} {go : Token}

theorem mem_of_token? {t : Token} (h : (ofTokens tokens).token? pos = some t) : t ∈ tokens := by
  obtain ⟨x, hx, rfl⟩ := Option.map_eq_some_iff.mp h
  exact List.mem_of_getElem? (mem_ofTokens.mp (Array.mem_toList_iff.mpr (Array.mem_of_getElem? hx))).1

/-- Terminals stand as their tokens do. -/
theorem related_of_pairwise {r : Token → Token → Prop} (h : tokens.Pairwise r) {i : Nat} {t u : Token}
    (hi : i < pos) (ht : (ofTokens tokens).token? i = some t) (hu : (ofTokens tokens).token? pos = some u) :
    r t u := by
  have hpairwise : (ofTokens tokens).toList.Pairwise fun x y => r x.token y.token := by
    refine List.pairwise_map.mpr (List.Pairwise.filter _ ?_)
    rw [← List.pairwise_map (f := Prod.fst), List.zipIdx_map_fst]
    exact h
  obtain ⟨x, hx, rfl⟩ := Option.map_eq_some_iff.mp ht
  obtain ⟨y, hy, rfl⟩ := Option.map_eq_some_iff.mp hu
  rw [← Array.getElem?_toList, List.getElem?_eq_some_iff] at hx hy
  obtain ⟨hi', rfl⟩ := hx
  obtain ⟨hpos', rfl⟩ := hy
  exact List.pairwise_iff_getElem.mp hpairwise i pos hi' hpos' hi

theorem token?_of_mem_last? {last : Terminal} (h : last ∈ (ofTokens tokens).last? pos) :
    ∃ i, i + 1 = pos ∧ (ofTokens tokens).token? i = some last.token := by
  cases pos with
  | zero => cases h
  | succ i => exact ⟨i, rfl, Option.map_eq_some_iff.mpr ⟨last, h, rfl⟩⟩

theorem exists_mem_last? (hpos : 0 < pos) (hgo : (ofTokens tokens).token? pos = some go) :
    ∃ last, last ∈ (ofTokens tokens).last? pos := by
  obtain ⟨i, rfl⟩ := Nat.exists_eq_add_one.mpr hpos
  obtain ⟨x, hx, -⟩ := Option.map_eq_some_iff.mp hgo
  have hi : i < (ofTokens tokens).size := Nat.lt_of_succ_lt (Array.getElem?_eq_some_iff.mp hx).1
  exact ⟨(ofTokens tokens)[i], Array.getElem?_eq_getElem hi⟩

theorem isSeparator_iff (hgo : (ofTokens tokens).token? pos = some go) (hkind : go.kind = .identifier)
    (hword : go.isWord "GO" = true) : (ofTokens tokens).isSeparator pos = true ↔
      ∀ last ∈ (ofTokens tokens).last? pos, last.token.start.line < go.start.line := by
  rw [isSeparator, hgo]
  cases (ofTokens tokens).last? pos <;> simp [hkind, hword]

section
variable {sql : String} (h : tokenize sql = .ok tokens)
include h

theorem lastLine_le_start {i : Nat} (hi : i < pos) {t u : Token} (ht : (ofTokens tokens).token? i = some t)
    (hu : (ofTokens tokens).token? pos = some u) : t.lastLine ≤ u.start.line :=
  Nat.le_trans Token.lastLine_le
    (Location.line_le_of_le (related_of_pairwise (tokenize_iff.mp h).ends_pairwise hi ht hu))

/-- Whether a terminal stands alone on its line is a matter of the one before it. -/
theorem alone_iff (hgo : (ofTokens tokens).token? pos = some go) :
    (ofTokens tokens).Alone pos ↔ ∀ last ∈ (ofTokens tokens).last? pos,
      last.token.lastLine < go.start.line := by
  have hscans := tokenize_iff.mp h
  constructor
  · intro halone last hlast
    obtain ⟨i, rfl, hi⟩ := token?_of_mem_last? hlast
    have hle := lastLine_le_start h (Nat.lt_succ_self i) hi hgo
    have hne : last.token.lastLine ≠ go.start.line := by
      intro heq
      have hline := Token.onLine_lastLine (hscans.text_ne_nil (mem_of_token? hi))
      exact halone i last.token go (Nat.lt_succ_self i) hi hgo (heq ▸ hline)
    omega
  · intro hlast i t u hi ht hu hline
    cases hgo.symm.trans hu
    obtain ⟨last, hmem⟩ := exists_mem_last? (Nat.zero_lt_of_lt hi) hgo
    obtain ⟨j, rfl, hj⟩ := token?_of_mem_last? hmem
    have hlt := hlast last hmem
    have hle := hline.le_lastLine
    -- a token further back ends where the last one begins, or sooner
    rcases Nat.lt_or_eq_of_le (Nat.le_of_lt_succ hi) with hij | rfl
    · have hend := lastLine_le_start h hij ht hj
      have hstart := (Token.onLine_start (hscans.text_ne_nil (mem_of_token? hj))).le_lastLine
      omega
    · cases ht.symm.trans hj
      omega

end

/-- `GO` stands alone on its line, with blanks and comments before it at most, exactly when it is a separator and
the terminal before it ends on an earlier line. A separator stands alone where that terminal is of a kind that holds
no line feed. -/
theorem separator_alone_iff {sql : String} {tokens : List Token} (h : tokenize sql = .ok tokens)
    {pos : Nat} {go : Token}
    (hgo : (ofTokens tokens).token? pos = some go) (hkind : go.kind = .identifier) (hword : go.isWord "GO" = true) :
    ((ofTokens tokens).Alone pos ↔ (ofTokens tokens).isSeparator pos = true ∧
        ∀ last ∈ (ofTokens tokens).last? pos, last.token.lastLine < go.start.line) ∧
      ((ofTokens tokens).isSeparator pos = true →
        (∀ last ∈ (ofTokens tokens).last? pos, last.token.mayBreak = false) →
          (ofTokens tokens).Alone pos) := by
  have hscans := tokenize_iff.mp h
  rw [alone_iff h hgo, isSeparator_iff hgo hkind hword]
  constructor
  · refine ⟨fun hlast => ⟨fun last hmem => ?_, hlast⟩, And.right⟩
    obtain ⟨i, -, hi⟩ := token?_of_mem_last? hmem
    have hstart := (Token.onLine_start (hscans.text_ne_nil (mem_of_token? hi))).le_lastLine
    have hlt := hlast last hmem
    omega
  · intro hbefore hplain last hmem
    obtain ⟨i, -, hi⟩ := token?_of_mem_last? hmem
    rw [Token.lastLine_eq (hscans.newline_not_mem (mem_of_token? hi) (hplain last hmem))]
    exact hbefore last hmem

/-- A string over two lines, a comment over two more, and `GO` behind it. -/
theorem separator_alone_after_string :
    ∃ tokens, tokenize "PRINT 'a\nb'/*\n*/ GO" = .ok tokens ∧ (ofTokens tokens).isSeparator 2 = true ∧
      (ofTokens tokens).Alone 2 := by
  obtain ⟨tokens, htokens, go, hgo, hkind, hword, hseparator, last, hlast, hline⟩ :
      ∃ tokens ∈ (tokenize "PRINT 'a\nb'/*\n*/ GO").toOption, ∃ go ∈ (ofTokens tokens).token? 2,
        go.kind = .identifier ∧ go.isWord "GO" = true ∧ (ofTokens tokens).isSeparator 2 = true ∧
          ∃ last ∈ (ofTokens tokens).last? 2, last.token.lastLine < go.start.line := by
    decide +kernel
  have htokens := eq_ok_of_mem_toOption htokens
  refine ⟨tokens, htokens, hseparator, (separator_alone_iff htokens hgo hkind hword).1.mpr ⟨hseparator, ?_⟩⟩
  intro last' hlast'
  cases hlast.symm.trans hlast'
  exact hline

/-- The separator stands behind the end of a string that began on the line before. -/
theorem separator_beside_string :
    ∃ tokens, tokenize "SELECT 'a\nb' GO" = .ok tokens ∧ (ofTokens tokens).isSeparator 2 = true ∧
      ¬ (ofTokens tokens).Alone 2 := by
  obtain ⟨tokens, htokens, go, hgo, hseparator, t, ht, hline⟩ :
      ∃ tokens ∈ (tokenize "SELECT 'a\nb' GO").toOption, ∃ go ∈ (ofTokens tokens).token? 2,
        (ofTokens tokens).isSeparator 2 = true ∧ ∃ t ∈ (ofTokens tokens).token? 1,
          t.text.toList = ['\'', 'a', '\n'] ++ 'b' :: ['\''] ∧
            (t.start.after ['\'', 'a', '\n']).line = go.start.line := by
    decide +kernel
  refine ⟨tokens, eq_ok_of_mem_toOption htokens, hseparator, fun halone => ?_⟩
  exact halone 1 t go (by decide) ht hgo ⟨_, _, _, hline⟩

end Terminals

end TransactLint
