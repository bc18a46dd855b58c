import TransactLint.Proofs.Reading

/-!
# Excerpts

An excerpt is a piece of a sequence of terminals after which nothing comes that could belong to the
piece: the end, a closing parenthesis or a separator. What can be seen from inside the piece is seen
of it alone as well, up to what is asked about its end.
-/

namespace TransactLint

/-- `ts` is the piece of `ts'` that begins at `shift`. -/
structure Excerpt (ts ts' : Terminals) where
  shift : Nat
  get : ∀ {i : Nat} {x : Terminal}, ts[i]? = some x → ts'[i + shift]? = some x
  ends : ∀ {t : Token}, ts'.token? (ts.size + shift) = some t →
    t.kind = .rightParen ∨ ts'.isSeparator (ts.size + shift) = true
  after : ts'.isSeparator (ts.size + shift) = true → ts'.isKind (ts.size + shift + 1) .period = false

namespace Excerpt

open Terminals

variable {ts ts' : Terminals} (ρ : Excerpt ts ts') {pos : Nat}

/-! ## Inside the piece -/

theorem token?_eq (h : pos < ts.size) : ts'.token? (pos + ρ.shift) = ts.token? pos := by
  have hx := ρ.get (Array.getElem?_eq_getElem h)
  simp only [token?, hx, Array.getElem?_eq_getElem h]

theorem lt_size (h : pos < ts.size) : pos + ρ.shift < ts'.size :=
  (Array.getElem?_eq_some_iff.mp (ρ.get (Array.getElem?_eq_getElem h))).1

theorem left_le (pos : Nat) : ts.size - pos ≤ ts'.size - (pos + ρ.shift) := by
  by_cases h : pos < ts.size
  · have hlast := ρ.lt_size (show ts.size - 1 < ts.size by omega)
    omega
  · omega

theorem isIdentifier_eq (h : pos < ts.size) : ts'.isIdentifier (pos + ρ.shift) = ts.isIdentifier pos := by
  rw [isIdentifier, isIdentifier, ρ.token?_eq h]

theorem isKind_inside (h : pos < ts.size) (kind : TokenKind) :
    ts'.isKind (pos + ρ.shift) kind = ts.isKind pos kind := by
  rw [isKind, isKind, ρ.token?_eq h]

theorem last?_eq (hpos : 0 < pos) (h : pos ≤ ts.size) : ts'.last? (pos + ρ.shift) = ts.last? pos := by
  obtain ⟨k, rfl⟩ : ∃ k, pos = k + 1 := ⟨pos - 1, by omega⟩
  have hx := ρ.get (Array.getElem?_eq_getElem (show k < ts.size by omega))
  rw [Nat.add_right_comm]
  simp only [last?, hx, Array.getElem?_eq_getElem (show k < ts.size by omega)]

/-- At the first terminal this fails: what stands before the piece is not in it. -/
theorem isSeparator_eq (hpos : 0 < pos) (h : pos < ts.size) :
    ts'.isSeparator (pos + ρ.shift) = ts.isSeparator pos := by
  rw [isSeparator, isSeparator, ρ.token?_eq h, ρ.last?_eq hpos (Nat.le_of_lt h)]

theorem span_eq {start : Nat} (hstart : start < pos) (h : pos ≤ ts.size) :
    ts'.span (start + ρ.shift) (pos + ρ.shift) = ts.span start pos := by
  have hx := Array.getElem?_eq_getElem (show start < ts.size by omega)
  rw [span, span, ρ.last?_eq (by omega) h, ρ.get hx, hx]

/-! ## At the end of the piece -/

/-- What stands after the piece is a closing parenthesis or the word `GO`. -/
theorem ends_kind {t : Token} (h : ts'.token? (ts.size + ρ.shift) = some t) :
    t.kind = .rightParen ∨ t.kind = .identifier ∧ t.isWord "GO" = true := by
  rcases ρ.ends h with hparen | hsep
  · exact .inl hparen
  · obtain ⟨u, hu, hkind, hword⟩ := isSeparator_token hsep
    rw [h] at hu
    cases hu
    exact .inr ⟨hkind, hword⟩

theorem isKind_eq (h : pos ≤ ts.size) {kind : TokenKind} (hkind : kind ≠ .rightParen ∧ kind ≠ .identifier) :
    ts'.isKind (pos + ρ.shift) kind = ts.isKind pos kind := by
  rcases Nat.lt_or_eq_of_le h with hlt | rfl
  · exact ρ.isKind_inside hlt kind
  · rw [isKind_of_le (Nat.le_refl _), Bool.eq_false_iff]
    intro hends
    obtain ⟨t, ht, rfl⟩ := isKind_iff.mp hends
    rcases ρ.ends_kind ht with h | ⟨h, _⟩
    · exact hkind.1 h
    · exact hkind.2 h

theorem isKeyword_eq (h : pos ≤ ts.size) (word : Keyword) :
    ts'.isKeyword (pos + ρ.shift) word = ts.isKeyword pos word :=
  ρ.isKind_eq h (by simp)

theorem isWord_eq (h : pos ≤ ts.size) {word : String}
    (hgo : Text.sameIgnoringCase "GO".toList word.toList = false) :
    ts'.isWord (pos + ρ.shift) word = ts.isWord pos word := by
  rcases Nat.lt_or_eq_of_le h with hlt | rfl
  · rw [isWord, isWord, ρ.token?_eq hlt]
  · rw [isWord_of_le (Nat.le_refl _), isWord]
    cases ht : ts'.token? (ts.size + ρ.shift) with
    | none => rfl
    | some t =>
      rcases ρ.ends_kind ht with h | ⟨_, h⟩
      · simp only [Token.isWord, h]
      · exact Token.not_isWord_of_isWord h hgo

theorem isString_eq (h : pos ≤ ts.size) : ts'.isString (pos + ρ.shift) = ts.isString pos := by
  rcases Nat.lt_or_eq_of_le h with hlt | rfl
  · rw [isString, isString, ρ.token?_eq hlt]
  · rw [isString_of_le (Nat.le_refl _), isString]
    cases ht : ts'.token? (ts.size + ρ.shift) with
    | none => rfl
    | some t =>
      rcases ρ.ends_kind ht with h | ⟨h, _⟩ <;> simp only [h, TokenKind.isString]

theorem isBareAlias_eq (hpos : 0 < pos) (h : pos ≤ ts.size) :
    ts'.isBareAlias (pos + ρ.shift) = ts.isBareAlias pos := by
  rcases Nat.lt_or_eq_of_le h with hlt | rfl
  · rw [isBareAlias, isBareAlias, ρ.isIdentifier_eq hlt, ρ.isSeparator_eq hpos hlt]
  · rw [isBareAlias, isBareAlias, isIdentifier_of_le (Nat.le_refl _), Bool.false_and, isIdentifier]
    cases ht : ts'.token? (ts.size + ρ.shift) with
    | none => rfl
    | some t =>
      rcases ρ.ends ht with h | h
      · simp [Token.isIdentifier, TokenKind.isIdentifier, h]
      · simp [h]

/-! ## Looking further ahead -/

theorem pastParens_eq {n n' : Nat} (hn : ts.size - pos ≤ n) (hn' : n ≤ n') (h : pos ≤ ts.size) :
    ts.pastParens n pos ≤ ts.size ∧
      ts'.pastParens n' (pos + ρ.shift) = ts.pastParens n pos + ρ.shift := by
  -- the longer text has more fuel, and the end of the excerpt is no parenthesis in it
  induction n generalizing pos n' with
  | zero =>
    obtain rfl : pos = ts.size := by omega
    have hstop : ts'.isKind (ts.size + ρ.shift) .leftParen = ts.isKind ts.size .leftParen :=
      ρ.isKind_eq h (by decide)
    rw [isKind_of_le (Nat.le_refl _)] at hstop
    cases n' <;> simp [pastParens, hstop]
  | succ n ih =>
    obtain ⟨m, rfl⟩ : ∃ m, n' = m + 1 := ⟨n' - 1, by omega⟩
    have hkind : ts'.isKind (pos + ρ.shift) .leftParen = ts.isKind pos .leftParen := ρ.isKind_eq h (by decide)
    simp only [pastParens, hkind]
    split
    · rename_i hparen
      have hlt := Parser.isKind_lt hparen
      rw [Nat.add_right_comm]
      exact ih (by omega) (by omega) hlt
    · exact ⟨h, rfl⟩

theorem startsQuery_eq (h : pos ≤ ts.size) : ts'.startsQuery (pos + ρ.shift) = ts.startsQuery pos := by
  obtain ⟨hle, hpast⟩ := ρ.pastParens_eq (Nat.le_refl _) (ρ.left_le pos) h
  rw [startsQuery, startsQuery, hpast, ρ.isKeyword_eq hle, ρ.isKeyword_eq h]

theorem isStarName_end (n : Nat) : ts'.isStarName n (ts.size + ρ.shift) = false := by
  cases n with
  | zero => rfl
  | succ n =>
    rw [isStarName]
    cases ht : ts'.token? (ts.size + ρ.shift) with
    | none => simp [isIdentifier, ht]
    | some t =>
      rcases ρ.ends ht with h | h
      · simp [isIdentifier, ht, Token.isIdentifier, TokenKind.isIdentifier, h]
      · simp [ρ.after h]

theorem isStarName_eq {n n' : Nat} (hn : ts.size - pos ≤ n) (hn' : n ≤ n') (h : pos < ts.size) :
    ts'.isStarName n' (pos + ρ.shift) = ts.isStarName n pos := by
  induction n generalizing pos n' with
  | zero => omega
  | succ n ih =>
    obtain ⟨m, rfl⟩ : ∃ m, n' = m + 1 := ⟨n' - 1, by omega⟩
    have hperiod : ts'.isKind (pos + ρ.shift + 1) .period = ts.isKind (pos + 1) .period := by
      rw [Nat.add_right_comm]
      exact ρ.isKind_eq h (by decide)
    rw [isStarName, isStarName, ρ.isIdentifier_eq h, hperiod]
    by_cases hnext : ts.isKind (pos + 1) .period = true
    · have hlt := Parser.isKind_lt hnext
      have hstar : ts'.isKind (pos + 2 + ρ.shift) .star = ts.isKind (pos + 2) .star :=
        ρ.isKind_eq hlt (by decide)
      rw [Nat.add_right_comm pos ρ.shift 2, hstar]
      rcases Nat.lt_or_eq_of_le (show pos + 2 ≤ ts.size by omega) with hin | hend
      · rw [ih (by omega) (by omega) hin]
      · -- the period was the last terminal of the excerpt
        have hnone : ts.isStarName n (pos + 2) = false := by
          cases n <;> simp [isStarName, isIdentifier_of_le (Nat.le_of_eq hend.symm)]
        rw [hend, ρ.isStarName_end, ← hend, hnone]
    · simp [hnext]

theorem isQualifiedStar_eq (h : pos < ts.size) : ts'.isQualifiedStar (pos + ρ.shift) = ts.isQualifiedStar pos :=
  ρ.isStarName_eq (Nat.le_refl _) (ρ.left_le pos) h

end Excerpt

end TransactLint
