import Mathlib.Data.List.Find
import Mathlib.Data.List.TakeWhile
import TransactLint.Proofs.Scanning

/-!
# Lexemes before a line end

A line feed ends every lexeme but a comment. So a text that is followed by one has the lexemes that it
has alone, unless the last is a comment or a carriage return, which takes the line feed with it, or a
mark that takes whatever comes after it.
-/

namespace TransactLint.Lexeme

variable {here there : Location} {afterWord : Bool} {c closer : Char} {cs rest : List Char} {s : Scan}

def Follows (r : Scan → Scan → Prop) (x x' : Except LexicalError Scan) : Prop :=
  ∀ s, x = .ok s → ∃ s', x' = .ok s' ∧ r s s'

section
variable {r : Scan → Scan → Prop} {x y x' y' : Except LexicalError Scan}

theorem Follows.ok {s s' : Scan} (h : r s s') : Follows r (.ok s) (.ok s') := by
  rintro _ ⟨⟩
  exact ⟨s', rfl, h⟩

theorem Follows.error {e : LexicalError} : Follows r (.error e) x' := nofun

theorem Follows.ite {p p' : Prop} [Decidable p] [Decidable p'] (hp : p ↔ p') (hx : p → Follows r x x')
    (hy : ¬ p → Follows r y y') : Follows r (if p then x else y) (if p' then x' else y') := by
  by_cases hc : p
  · rw [if_pos hc, if_pos (hp.mp hc)]
    exact hx hc
  · rw [if_neg hc, if_neg (mt hp.mpr hc)]
    exact hy hc

end

/-! ## Lexemes at other places -/

theorem quotedLiteral_place {kind : TokenKind} {lead : Nat} {body : Option (List Char × Nat)} :
    Follows Eq (quotedLiteral kind here lead body) (quotedLiteral kind there lead body) := by
  cases body with
  | none => exact .error
  | some r => exact .ok rfl

theorem delimitedIdentifier_place :
    Follows Eq (delimitedIdentifier here closer cs) (delimitedIdentifier there closer cs) := by
  unfold delimitedIdentifier
  split
  · exact .ok rfl
  · exact .error

theorem numberOrPeriod_place :
    Follows Eq (numberOrPeriod here afterWord cs) (numberOrPeriod there afterWord cs) := by
  unfold numberOrPeriod
  split
  · exact .ite .rfl (fun _ => .ok rfl) fun _ => .error
  · exact .ok rfl

theorem blockComment_place : Follows Eq (blockComment here cs) (blockComment there cs) := by
  unfold blockComment
  split
  · exact .ok rfl
  · exact .error

theorem dollar_place : Follows Eq (dollar here cs) (dollar there cs) := by
  unfold dollar
  dsimp only
  split
  · split
    · exact .ok rfl
    · exact .error
  · exact .ok rfl

/-- The place matters only where there is no lexeme. -/
theorem scan_place (h : scan here afterWord c cs = .ok s) : scan there afterWord c cs = .ok s := by
  have hfollows : Follows Eq (scan here afterWord c cs) (scan there afterWord c cs) := by
    refine .ite .rfl (fun _ => quotedLiteral_place) fun _ => .ite .rfl (fun _ => quotedLiteral_place) fun _ => ?_
    refine .ite .rfl (fun _ => quotedLiteral_place) fun _ => ?_
    refine .ite .rfl (fun _ => delimitedIdentifier_place) fun _ => ?_
    refine .ite .rfl (fun _ => delimitedIdentifier_place) fun _ => ?_
    refine .ite .rfl (fun _ => numberOrPeriod_place) fun _ => .ite .rfl (fun _ => .ok rfl) fun _ => ?_
    refine .ite .rfl (fun _ => blockComment_place) fun _ => .ite .rfl (fun _ => .ok rfl) fun _ => ?_
    refine .ite .rfl (fun _ => .ok rfl) fun _ => .ite .rfl (fun _ => .ok rfl) fun _ => ?_
    refine .ite .rfl (fun _ => dollar_place) fun _ => .ite .rfl (fun _ => .ok rfl) fun _ => ?_
    exact .ite .rfl (fun _ => .ok rfl) fun _ => .ok rfl
  obtain ⟨s', hs', rfl⟩ := hfollows s h
  exact hs'

/-! ## Lexemes before a line end -/

theorem takeWhile_append_line {p : Char → Bool} (hp : p '\n' = false) :
    (cs ++ '\n' :: rest).takeWhile p = cs.takeWhile p := by
  induction cs with
  | nil => simp [hp]
  | cons c cs ih => simp [List.takeWhile_cons, ih]

theorem head?_append_line {x : Char} (hx : x ≠ '\n') :
    (cs ++ '\n' :: rest).head? = some x ↔ cs.head? = some x := by
  cases cs with
  | nil => simp [hx.symm]
  | cons c cs => simp

theorem isPrefixOf_append_line {mark : List Char} (hmark : '\n' ∉ mark) :
    mark.isPrefixOf (cs ++ '\n' :: rest) = mark.isPrefixOf cs := by
  induction mark generalizing cs with
  | nil => simp
  | cons x mark ih =>
    rw [List.mem_cons, not_or] at hmark
    cases cs with
    | nil =>
      have hx : (x == '\n') = false := beq_eq_false_iff_ne.mpr fun h => hmark.1 h.symm
      simp [List.isPrefixOf, hx]
    | cons c cs => simp [List.isPrefixOf, ih hmark.2]

/-! ### Quotes -/

theorem quotedBody_append {r : List Char × Nat} (hcloser : closer ≠ '\n') (h : quotedBody closer cs = some r) :
    quotedBody closer (cs ++ '\n' :: rest) = some r := by
  fun_induction quotedBody closer cs generalizing r with
  | case1 => cases h
  | case2 => simpa [quotedBody, hcloser.symm] using h
  | case3 => cases h
  | case4 cs ih =>
    obtain ⟨x, hx, rfl⟩ := Option.map_eq_some_iff.mp h
    simp [quotedBody, ih hx]
  | case5 d cs hd => simpa [quotedBody, hd] using h
  | case6 c d cs hc ih =>
    obtain ⟨x, hx, rfl⟩ := Option.map_eq_some_iff.mp h
    have hrest := ih hx
    simp only [List.cons_append] at hrest ⊢
    simp [quotedBody, hc, hrest]

theorem escapedBody_append {r : List Char × Nat} (h : escapedBody cs = some r) :
    escapedBody (cs ++ '\n' :: rest) = some r := by
  fun_induction escapedBody cs generalizing r with
  | case1 => cases h
  | case2 => simpa [escapedBody] using h
  | case3 => cases h
  | case4 cs ih =>
    obtain ⟨x, hx, rfl⟩ := Option.map_eq_some_iff.mp h
    simp [escapedBody, ih hx]
  | case5 d cs hd => simpa [escapedBody, hd] using h
  | case6 d cs _ ih =>
    obtain ⟨x, hx, rfl⟩ := Option.map_eq_some_iff.mp h
    simp [escapedBody, ih hx]
  | case7 c d cs hc hc' ih =>
    obtain ⟨x, hx, rfl⟩ := Option.map_eq_some_iff.mp h
    have hrest := ih hx
    simp only [List.cons_append] at hrest ⊢
    simp [escapedBody, hc, hc', hrest]

/-! ### Numbers -/

theorem exponentPart_append : exponentPart (cs ++ '\n' :: rest) = exponentPart cs := by
  cases cs with
  | nil => simp [exponentPart]
  | cons e cs =>
    simp only [List.cons_append, exponentPart, head?_append_line (show '+' ≠ '\n' by decide),
      head?_append_line (show '-' ≠ '\n' by decide)]
    cases cs with
    | nil => simp
    | cons d cs =>
      have hdigits : (d :: (cs ++ '\n' :: rest)).takeWhile Char.isDigit = (d :: cs).takeWhile Char.isDigit :=
        @takeWhile_append_line (d :: cs) rest _ (by decide)
      split <;> simp [takeWhile_append_line, hdigits]

theorem drop_takeWhile_append (p : Char → Bool) :
    (cs ++ rest).drop (cs.takeWhile p).length = cs.drop (cs.takeWhile p).length ++ rest :=
  List.drop_append_of_le_length (List.takeWhile_sublist p).length_le

theorem mantissaPart_append : mantissaPart (cs ++ '\n' :: rest) = mantissaPart cs := by
  simp only [mantissaPart, takeWhile_append_line (show '\n'.isDigit = false by decide), drop_takeWhile_append]
  cases cs.drop (cs.takeWhile Char.isDigit).length with
  | nil => rfl
  | cons c left =>
    by_cases hc : c = '.'
    · simp [hc, takeWhile_append_line]
    · simp [hc]

theorem append_isPrefix {first second : List Char} (h : first <+: cs) (h' : second <+: cs.drop first.length) :
    first ++ second <+: cs := by
  rw [← List.prefix_iff_eq_append.mp h]
  exact (List.prefix_append_right_inj first).mpr h'

theorem exponentPart_isPrefix : exponentPart cs <+: cs := by
  cases cs with
  | nil => exact List.prefix_rfl
  | cons e cs =>
    unfold exponentPart
    dsimp only
    by_cases hdigits : ((e = 'e' || e = 'E') &&
      !((cs.drop (cs.take (if cs.head? = some '+' || cs.head? = some '-' then 1
        else 0)).length).takeWhile Char.isDigit).isEmpty) = true
    · rw [if_pos hdigits, List.cons_append, List.cons_prefix_cons]
      exact ⟨rfl, append_isPrefix ( List.take_prefix _ _) ( List.takeWhile_prefix _)⟩
    · rw [if_neg hdigits]
      exact List.nil_prefix

theorem mantissaPart_isPrefix : mantissaPart cs <+: cs := by
  have hwhole : cs.takeWhile Char.isDigit <+: cs := List.takeWhile_prefix _
  unfold mantissaPart
  dsimp only
  split
  · rename_i left hleft
    refine append_isPrefix hwhole ?_
    rw [hleft, List.cons_prefix_cons]
    exact ⟨rfl, List.takeWhile_prefix _⟩
  · exact hwhole

theorem number_append (hcs : cs ≠ []) : number (cs ++ '\n' :: rest) = number cs := by
  by_cases hbinary : ∃ left, cs = '0' :: 'x' :: left
  · obtain ⟨left, rfl⟩ := hbinary
    simp [number, takeWhile_append_line (show isHexDigit '\n' = false by decide)]
  · have hvalue : mantissaPart cs ++ exponentPart (cs.drop (mantissaPart cs).length) <+: cs :=
      append_isPrefix mantissaPart_isPrefix exponentPart_isPrefix
    have hline : ∀ left, cs ++ '\n' :: rest ≠ '0' :: 'x' :: left := by
      intro left h
      obtain _ | ⟨c, _ | ⟨d, cs⟩⟩ := cs
      · exact hcs rfl
      · simp at h
      · simp only [List.cons_append, List.cons.injEq] at h
        exact hbinary ⟨cs, by rw [h.1, h.2.1]⟩
    rw [number.eq_2 _ hline, number.eq_2 _ fun left h => hbinary ⟨left, h⟩]
    simp only [mantissaPart_append, List.drop_append_of_le_length mantissaPart_isPrefix.length_le,
      exponentPart_append, List.drop_append_of_le_length hvalue.length_le,
      head?_append_line (show 'L' ≠ '\n' by decide)]

/-! ### Words -/

theorem word_append {lead : Nat} (hlead : lead ≤ cs.length) :
    word c lead (cs ++ '\n' :: rest) = word c lead cs := by
  simp only [word, List.take_append_of_le_length hlead, List.drop_append_of_le_length hlead,
    takeWhile_append_line (show isWordPart '\n' = false by decide)]

theorem otherSymbol_append {extra : Nat} (hextra : extra ≤ cs.length) :
    otherSymbol c (cs ++ '\n' :: rest) extra = otherSymbol c cs extra := by
  simp only [otherSymbol, List.take_append_of_le_length hextra]

theorem hashWord_append (hcs : cs ≠ []) : hashWord (cs ++ '\n' :: rest) = hashWord cs := by
  obtain ⟨c, cs, rfl⟩ := List.exists_cons_of_ne_nil hcs
  have hword : word '#' 1 (c :: (cs ++ '\n' :: rest)) = word '#' 1 (c :: cs) :=
    @word_append '#' (c :: cs) rest 1 (by simp)
  by_cases hspace : c = ' '
  · simp [hashWord, hspace, otherSymbol]
  by_cases hdash : c = '-'
  · simp [hashWord, hdash, otherSymbol]
  by_cases harrow : c = '>'
  · cases cs with
    | nil => simp [hashWord, harrow, otherSymbol]
    | cons d cs => by_cases hd : d = '>' <;> simp [hashWord, harrow, hd, otherSymbol]
  · simp [hashWord, hspace, hdash, harrow, hword]

theorem atWord_append (hcs : cs ≠ []) (hcs' : cs ≠ ['@']) : atWord (cs ++ '\n' :: rest) = atWord cs := by
  obtain ⟨c, cs, rfl⟩ := List.exists_cons_of_ne_nil hcs
  by_cases hat : c = '@'
  · subst hat
    obtain ⟨d, cs, rfl⟩ := List.exists_cons_of_ne_nil (show cs ≠ [] by simpa using hcs')
    have hword : word '@' 2 ('@' :: d :: (cs ++ '\n' :: rest)) = word '@' 2 ('@' :: d :: cs) :=
      @word_append '@' ('@' :: d :: cs) rest 2 (by simp)
    by_cases hspace : d = ' ' <;> simp [atWord, hspace, otherSymbol, hword]
  have hword : word '@' 1 (c :: (cs ++ '\n' :: rest)) = word '@' 1 (c :: cs) :=
    @word_append '@' (c :: cs) rest 1 (by simp)
  by_cases harrow : c = '>'
  · simp [atWord, harrow, otherSymbol]
  by_cases hmark : c = '?'
  · simp [atWord, hmark, otherSymbol]
  · simp_all [atWord, otherSymbol]

theorem placeholder_append : placeholder (cs ++ '\n' :: rest) = placeholder cs := by
  simp only [placeholder, takeWhile_append_line (show Text.isNumeric '\n' = false by decide)]
  exact otherSymbol_append (List.takeWhile_sublist _).length_le

theorem lengthThrough?_append {mark : List Char} (hmark : '\n' ∉ mark) {n : Nat}
    (h : lengthThrough? mark cs = some n) :
    lengthThrough? mark (cs ++ '\n' :: rest) = some n := by
  induction cs generalizing n with
  | nil => cases h
  | cons c cs ih =>
    have hfront := @isPrefixOf_append_line (c :: cs) rest mark hmark
    simp only [List.cons_append] at hfront ⊢
    simp only [lengthThrough?, hfront] at h ⊢
    split at h
    · simp [*]
    · obtain ⟨m, hm, rfl⟩ := Option.map_eq_some_iff.mp h
      simp [*]

/-! ### Symbols -/

theorem symbol_append : symbol c (cs ++ '\n' :: rest) = symbol c cs := by
  have hplain : ∀ op ∈ operators, '\n' ∉ op.spelling.toList := by decide
  have hfind : operators.find? (fun op => op.spelling.toList.isPrefixOf (c :: (cs ++ '\n' :: rest))) =
      operators.find? fun op => op.spelling.toList.isPrefixOf (c :: cs) :=
    List.find?_congr fun op hop => @isPrefixOf_append_line (c :: cs) rest _ (hplain op hop)
  rw [symbol, symbol, hfind]

/-! ### Comments -/

theorem blockLength?_append {depth n : Nat} (h : blockLength? depth cs = some n) :
    blockLength? depth (cs ++ '\n' :: rest) = some n := by
  fun_induction blockLength? depth cs generalizing n with
  | case1 => cases h
  | case2 => cases h
  | case3 depth c d cs hopen ih =>
    obtain ⟨m, hm, rfl⟩ := Option.map_eq_some_iff.mp h
    simp [blockLength?, hopen, ih hm]
  | case4 c d cs hopen hclose => simpa [blockLength?, hopen, hclose] using h
  | case5 c d cs hopen hclose outer ih =>
    obtain ⟨m, hm, rfl⟩ := Option.map_eq_some_iff.mp h
    simp [blockLength?, hopen, hclose, ih hm]
  | case6 depth c d cs hopen hclose ih =>
    obtain ⟨m, hm, rfl⟩ := Option.map_eq_some_iff.mp h
    have hrest := ih hm
    simp only [List.cons_append] at hrest ⊢
    simp [blockLength?, hopen, hclose, hrest]

theorem blockLength?_le {depth n : Nat} (h : blockLength? depth cs = some n) : n ≤ cs.length := by
  fun_induction blockLength? depth cs generalizing n with
  | case1 => cases h
  | case2 => cases h
  | case3 depth c d cs hopen ih =>
    obtain ⟨m, hm, rfl⟩ := Option.map_eq_some_iff.mp h
    have := ih hm
    simp
    omega
  | case4 c d cs hopen hclose =>
    cases h
    simp
  | case5 c d cs hopen hclose outer ih =>
    obtain ⟨m, hm, rfl⟩ := Option.map_eq_some_iff.mp h
    have := ih hm
    simp
    omega
  | case6 depth c d cs hopen hclose ih =>
    obtain ⟨m, hm, rfl⟩ := Option.map_eq_some_iff.mp h
    have := ih hm
    simp at *
    omega

/-- A line comment ends with its line feed, or it takes the one that comes after the text. -/
theorem lineLength_append :
    (lineLength (cs ++ '\n' :: rest) = lineLength cs ∧ lineLength cs ≤ cs.length) ∨
      (lineLength (cs ++ '\n' :: rest) = cs.length + 1 ∧ lineLength cs = cs.length) := by
  induction cs with
  | nil => simp [lineLength]
  | cons c cs ih =>
    by_cases hc : c = '\n'
    · simp [lineLength, hc]
    · simp only [List.cons_append, lineLength, if_neg hc, List.length_cons]
      omega

/-! ### All of them -/

def mayEnd (kind : TokenKind) : Bool := kind == .semicolon || kind.isTrivia

/-- How a lexeme before `n` more characters and the lexeme before these and a line end compare. -/
def Kept (n : Nat) (s s' : Scan) : Prop :=
  s.extra < n ∨ mayEnd s.kind = true →
    (s' = s ∧ s.extra ≤ n) ∨ (s.kind.isTrivia = true ∧ s'.kind = s.kind ∧ s.extra = n ∧
      s'.extra = n + 1)

theorem kept_of_kind {n : Nat} (hkind : mayEnd s.kind = false) : Kept n s s := by
  rintro (hlt | hend)
  · exact .inl ⟨rfl, Nat.le_of_lt hlt⟩
  · simp [hkind] at hend

theorem kept_of_le {n : Nat} (h : s.extra ≤ n) : Kept n s s := fun _ => .inl ⟨rfl, h⟩

theorem mayEnd_wordKind (text : List Char) : mayEnd (wordKind text) = false := by
  unfold wordKind
  split
  · rfl
  · split <;> rfl

theorem mayEnd_word {lead : Nat} : mayEnd (word c lead cs).kind = false := mayEnd_wordKind _

theorem mayEnd_hashWord : mayEnd (hashWord cs).kind = false := by
  unfold hashWord
  split <;> first | rfl | exact mayEnd_word

theorem mayEnd_atWord : mayEnd (atWord cs).kind = false := by
  unfold atWord
  split <;> first | rfl | exact mayEnd_word | split
  · rfl
  · exact mayEnd_word

theorem mayEnd_number : mayEnd (number cs).kind = false := by
  unfold number
  split
  · rfl
  · dsimp only
    split <;> rfl

theorem quotedLiteral_append {kind : TokenKind} {lead n : Nat} {body body' : Option (List Char × Nat)}
    (hkind : mayEnd kind = false) (hbody : ∀ r, body = some r → body' = some r) :
    Follows (Kept n) (quotedLiteral kind here lead body) (quotedLiteral kind here lead body') := by
  cases body with
  | none => exact .error
  | some r =>
    rw [hbody r rfl]
    exact .ok (kept_of_kind hkind)

theorem delimitedIdentifier_append (hcloser : closer ≠ '\n') :
    Follows (Kept cs.length) (delimitedIdentifier here closer cs)
      (delimitedIdentifier here closer (cs ++ '\n' :: rest)) := by
  unfold delimitedIdentifier
  cases hbody : quotedBody closer cs with
  | none => exact .error
  | some r =>
    rw [quotedBody_append hcloser hbody]
    exact .ok (kept_of_kind rfl)

theorem numberOrPeriod_append :
    Follows (Kept cs.length) (numberOrPeriod here afterWord (c :: cs))
      (numberOrPeriod here afterWord (c :: (cs ++ '\n' :: rest))) := by
  have hnumber : number (c :: (cs ++ '\n' :: rest)) = number (c :: cs) := @number_append (c :: cs) rest (by simp)
  by_cases hname : ∃ left, c :: cs = '.' :: '_' :: left
  · obtain ⟨left, hleft⟩ := hname
    cases hleft
    exact .ite .rfl (fun _ => .ok (kept_of_kind rfl)) fun _ => .error
  · have hline : ∀ left, c :: (cs ++ '\n' :: rest) ≠ '.' :: '_' :: left := by
      intro left h
      cases cs with
      | nil => simp at h
      | cons d cs =>
        simp only [List.cons_append, List.cons.injEq] at h
        exact hname ⟨cs, by rw [h.1, h.2.1]⟩
    rw [numberOrPeriod.eq_2 _ _ _ hline, numberOrPeriod.eq_2 _ _ _ fun left h => hname ⟨left, h⟩, hnumber]
    exact .ok (kept_of_kind mayEnd_number)

theorem lengthThrough?_le {mark : List Char} {n : Nat} (h : lengthThrough? mark cs = some n) : n ≤ cs.length := by
  induction cs generalizing n with
  | nil => cases h
  | cons c cs ih =>
    simp only [lengthThrough?] at h
    split at h
    · cases h
      rename_i hfront
      have hmark : mark <+: c :: cs := List.isPrefixOf_iff_prefix.mp hfront
      exact hmark.length_le
    · obtain ⟨m, hm, rfl⟩ := Option.map_eq_some_iff.mp h
      exact Nat.succ_le_succ (ih hm)

theorem dollar_append : Follows (Kept cs.length) (dollar here cs) (dollar here (cs ++ '\n' :: rest)) := by
  have hstop : (Text.isAlphanumeric '\n' || '\n' = '_') = false := by decide
  have htaken := @takeWhile_append_line cs rest (fun c => Text.isAlphanumeric c || c = '_') hstop
  have hdropped := @drop_takeWhile_append cs ('\n' :: rest) fun c => Text.isAlphanumeric c || c = '_'
  have htag : cs.takeWhile (fun c => Text.isAlphanumeric c || c = '_') <+: cs := List.takeWhile_prefix _
  have hplain : '\n' ∉ cs.takeWhile fun c => Text.isAlphanumeric c || c = '_' :=
    fun hmem => absurd (List.mem_takeWhile_imp hmem) (Bool.eq_false_iff.mp hstop)
  unfold dollar
  simp only [htaken, hdropped]
  -- the tag ends before the line feed, so it is the same with more text
  generalize cs.takeWhile (fun c => Text.isAlphanumeric c || c = '_') = tag at *
  have hother : Follows (Kept cs.length) (.ok (otherSymbol '$' cs tag.length))
      (.ok (otherSymbol '$' (cs ++ '\n' :: rest) tag.length)) := by
    rw [otherSymbol_append htag.length_le]
    exact .ok (kept_of_kind rfl)
  cases hleft : cs.drop tag.length with
  | nil => exact hother
  | cons d left =>
    by_cases hd : d = '$'
    · subst hd
      simp only [List.cons_append]
      cases hfound : lengthThrough? ('$' :: (tag ++ ['$'])) left with
      | none => exact .error
      | some n =>
        have hcs : cs.length = tag.length + (left.length + 1) := by
          rw [← List.prefix_iff_eq_append.mp htag, hleft]
          simp
        have hle := lengthThrough?_le hfound
        rw [lengthThrough?_append (by simpa using hplain) hfound]
        dsimp only
        rw [otherSymbol_append (by omega)]
        exact .ok (kept_of_kind rfl)
    · simpa [hd] using hother

theorem lineComment_append : Kept cs.length (lineComment cs) (lineComment (cs ++ '\n' :: rest)) := by
  rintro -
  rcases @lineLength_append cs rest with ⟨hsame, hle⟩ | ⟨hmore, hall⟩
  · left
    simp [lineComment, hsame, List.take_append_of_le_length hle, hle]
  · right
    simp [lineComment, hmore, hall, TokenKind.isTrivia]

theorem blockComment_append (hcs : cs ≠ []) :
    Follows (Kept cs.length) (blockComment here cs) (blockComment here (cs ++ '\n' :: rest)) := by
  obtain ⟨d, cs, rfl⟩ := List.exists_cons_of_ne_nil hcs
  unfold blockComment
  simp only [List.cons_append, List.drop_succ_cons, List.drop_zero]
  cases hlength : blockLength? 0 cs with
  | none => exact .error
  | some n =>
    have hle := blockLength?_le hlength
    rw [blockLength?_append hlength]
    simp only [List.take_succ_cons, List.take_append_of_le_length hle]
    exact .ok (kept_of_le (by simpa using hle))

theorem hashWord_kept : Kept cs.length (hashWord cs) (hashWord (cs ++ '\n' :: rest)) := by
  by_cases hcs : cs = []
  · subst hcs
    rintro (h | h) <;> cases h
  · rw [hashWord_append hcs]
    exact kept_of_kind mayEnd_hashWord

theorem atWord_kept : Kept cs.length (atWord cs) (atWord (cs ++ '\n' :: rest)) := by
  by_cases hcs : cs = []
  · subst hcs
    rintro (h | h) <;> cases h
  by_cases hcs' : cs = ['@']
  · subst hcs'
    rintro (h | h)
    · exact absurd h (by decide)
    · cases h
  · rw [atWord_append hcs hcs']
    exact kept_of_kind mayEnd_atWord

theorem blank_append : Kept cs.length (blank c cs) (blank c (cs ++ '\n' :: rest)) := by
  unfold blank
  by_cases hplain : (c = ' ' || c = '\t' || c = '\n') = true
  · rw [if_pos hplain, if_pos hplain]
    exact kept_of_le (Nat.zero_le _)
  by_cases hreturn : c = '\r'
  · rw [if_neg hplain, if_neg hplain, if_pos hreturn, if_pos hreturn]
    cases cs with
    | nil => simp [Kept, TokenKind.isTrivia]
    | cons d cs =>
      refine kept_of_le ?_
      dsimp only
      split <;> simp
  · rw [if_neg hplain, if_neg hplain, if_neg hreturn, if_neg hreturn]
    exact kept_of_le (Nat.zero_le _)

theorem symbol_kept {n : Nat} : Kept n (symbol c cs) (symbol c cs) := by
  have hshort : ∀ op ∈ operators, mayEnd op.kind = true → op.spelling.length - 1 = 0 := by decide
  unfold symbol
  cases hfind : operators.find? fun op => op.spelling.toList.isPrefixOf (c :: cs) with
  | none => exact kept_of_kind rfl
  | some op =>
    by_cases hend : mayEnd op.kind = true
    · refine kept_of_le ?_
      dsimp only
      rw [hshort op (List.mem_of_find?_eq_some hfind) hend]
      exact Nat.zero_le _
    · exact kept_of_kind (Bool.eq_false_iff.mpr hend)

theorem scan_append (rest : List Char) :
    Follows (Kept cs.length) (scan here afterWord c cs) (scan here afterWord c (cs ++ '\n' :: rest)) := by
  have hhead : ∀ {p : Bool} {x : Char}, x ≠ '\n' →
      ((p && cs.head? = some x) = true ↔ (p && (cs ++ '\n' :: rest).head? = some x) = true) := by
    intro p x hx
    simp only [Bool.and_eq_true, decide_eq_true_eq, head?_append_line hx]
  have hdrop : ∀ {p : Bool} {x : Char}, (p && cs.head? = some x) = true →
      (cs ++ '\n' :: rest).drop 1 = cs.drop 1 ++ '\n' :: rest := by
    intro p x h
    cases cs with
    | nil => simp at h
    | cons d cs => rfl
  refine .ite (hhead (by decide)) (fun h => ?_) fun _ => ?_
  · rw [hdrop h]
    exact quotedLiteral_append rfl fun _ => quotedBody_append (by decide)
  refine .ite (hhead (by decide)) (fun h => ?_) fun _ => ?_
  · rw [hdrop h]
    exact quotedLiteral_append rfl fun _ => escapedBody_append
  refine .ite .rfl (fun _ => quotedLiteral_append rfl fun _ => quotedBody_append (by decide)) fun _ => ?_
  refine .ite .rfl (fun _ => delimitedIdentifier_append (by decide)) fun _ => ?_
  refine .ite .rfl (fun _ => delimitedIdentifier_append (by decide)) fun _ => ?_
  refine .ite .rfl (fun _ => numberOrPeriod_append) fun _ => ?_
  refine .ite (hhead (by decide)) (fun _ => .ok lineComment_append) fun _ => ?_
  refine .ite (hhead (by decide)) (fun h => blockComment_append ?_) fun _ => ?_
  · rintro rfl
    simp at h
  refine .ite .rfl (fun _ => .ok hashWord_kept) fun _ => ?_
  refine .ite .rfl (fun _ => .ok atWord_kept) fun _ => ?_
  refine .ite .rfl (fun _ => .ok ?_) fun _ => ?_
  · rw [placeholder_append]
    exact kept_of_kind rfl
  refine .ite .rfl (fun _ => dollar_append) fun _ => ?_
  refine .ite .rfl (fun _ => .ok blank_append) fun _ => ?_
  refine .ite .rfl (fun _ => .ok ?_) fun _ => .ok ?_
  · rw [word_append (Nat.zero_le _)]
    exact kept_of_kind (mayEnd_wordKind _)
  · rw [symbol_append]
    exact symbol_kept

theorem scan_line : scan here afterWord '\n' rest = .ok ⟨.blank, ['\n'], 0⟩ := rfl

end TransactLint.Lexeme
