import Mathlib.Data.List.TakeDrop
import TransactLint.Json.Value

/-!
# Scalars as JSON

A written truth value, string or natural is read back, whatever may follow it in a written text. A character is
written as it is or by an escape, and reading takes either back off the text. The digits of a natural end only where
no digit follows, and a natural below the size of a word is never too large to be read.
-/

namespace TransactLint.Json

namespace Reader

variable {α β : Type}

/-! ## Steps of a reader -/

@[simp]
theorem bind_apply (r : Reader α) (f : α → Reader β) (cs : List Char) :
    (r >>= f) cs = match r cs with
      | .ok (a, rest) => f a rest
      | .error fault => .error fault := rfl

theorem bind_of_ok {r : Reader α} {f : α → Reader β} {cs rest : List Char} {a : α}
    (h : r cs = .ok (a, rest)) :
    (r >>= f) cs = f a rest := by
  rw [bind_apply, h]

@[simp]
theorem pure_apply (a : α) (cs : List Char) : (pure a : Reader α) cs = .ok (a, cs) := rfl

@[simp]
theorem next_cons (c : Char) (cs : List Char) : next (c :: cs) = .ok (c, cs) := rfl

theorem peek_cons {c : Char} (h : isBlank c = false) (cs : List Char) : peek (c :: cs) = .ok (c, c :: cs) := by
  simp [peek, h]

theorem word_append (ws rest : List Char) : word ws (ws ++ rest) = .ok ((), rest) := by
  induction ws with
  | nil => rfl
  | cons w ws ih => simp [word, ih]

/-! ## What is read back -/

/-- What may follow a written value: nothing, or a character that ends it. -/
def Follows : List Char → Prop
  | [] => True
  | c :: _ => c = ',' ∨ c = ']' ∨ c = '\x7d'

/-- The reader takes `text` off the front as the value `a`, whatever may follow. -/
def Reads (r : Reader α) (text : List Char) (a : α) : Prop :=
  ∀ rest, Follows rest → r (text ++ rest) = .ok (a, rest)

theorem Reads.whole {r : Reader α} {text : List Char} {a : α} (h : Reads r text a) : r.whole text = .ok a := by
  have hread := h [] trivial
  rw [List.append_nil] at hread
  simp [Reader.whole, hread]

theorem reads_bool (b : Bool) : Reads bool (writeBool b) b := by
  intro rest _
  cases b with
  | false =>
    have hword := word_append ['f', 'a', 'l', 's', 'e'] rest
    simp only [List.cons_append, List.nil_append] at hword
    simp [bool, writeBool, peek_cons, isBlank, hword]
  | true =>
    have hword := word_append ['t', 'r', 'u', 'e'] rest
    simp only [List.cons_append, List.nil_append] at hword
    simp [bool, writeBool, peek_cons, isBlank, hword]

end Reader

/-! ## Strings -/

theorem hexValue?_hexDigit : ∀ n < 16, hexValue? (hexDigit n) = some n := by decide

/-- A control character is written by its number, which has two hexadecimal digits. -/
theorem escape_control {c : Char} (h : isControl c = true) (rest : List Char) :
    escape ('u' :: '0' :: '0' :: hexDigit (c.toNat / 16) :: hexDigit (c.toNat % 16) :: rest) = .ok (c, rest) := by
  have hc : c.toNat < 0x20 := of_decide_eq_true h
  have hzero : hexValue? '0' = some 0 := by decide
  have hhigh := hexValue?_hexDigit (c.toNat / 16) (by omega)
  have hlow := hexValue?_hexDigit (c.toNat % 16) (by omega)
  have hnumber : ((0 * 16 + 0) * 16 + c.toNat / 16) * 16 + c.toNat % 16 = c.toNat := by omega
  have hlowSurrogate : isLowSurrogate c.toNat = false := by
    simp only [isLowSurrogate, Bool.and_eq_false_iff, decide_eq_false_iff_not]
    omega
  have hhighSurrogate : isHighSurrogate c.toNat = false := by
    simp only [isHighSurrogate, Bool.and_eq_false_iff, decide_eq_false_iff_not]
    omega
  simp only [escape, numbered, hexadecimal, hzero, hhigh, hlow, hnumber, hlowSurrogate, hhighSurrogate]
  rw [Char.ofNat_toNat]
  rfl

theorem quotedOnto_escape {c : Char} {cs rest read : List Char} (h : escape cs = .ok (c, rest)) :
    quotedOnto read ('\\' :: cs) = quotedOnto (c :: read) rest := by
  rw [quotedOnto]
  split
  · next fault hfault => cases h.symm.trans hfault
  · next d rest' hok =>
    cases h.symm.trans hok
    rfl

/-- A character is written by an escape that stands for it, or as it is if it may stand so in a string. -/
theorem writeChar_cases (c : Char) :
    (∃ cs, writeChar c = '\\' :: cs ∧ ∀ rest, escape (cs ++ rest) = .ok (c, rest)) ∨
      (writeChar c = [c] ∧ c ≠ '"' ∧ c ≠ '\\' ∧ isControl c = false) := by
  by_cases hletter : c ∈ ['"', '\\', '\x08', '\x0c', '\n', '\r', '\t']
  · left
    simp only [List.mem_cons, List.not_mem_nil, or_false] at hletter
    rcases hletter with rfl | rfl | rfl | rfl | rfl | rfl | rfl <;> exact ⟨_, rfl, fun _ => rfl⟩
  · simp only [List.mem_cons, List.not_mem_nil, or_false, not_or] at hletter
    obtain ⟨hquote, hbackslash, hbackspace, hformFeed, hlineFeed, hreturn, htab⟩ := hletter
    rw [writeChar, if_neg hquote, if_neg hbackslash, if_neg hbackspace, if_neg hformFeed, if_neg hlineFeed,
      if_neg hreturn, if_neg htab]
    cases hcontrol : isControl c with
    | false => exact .inr ⟨rfl, hquote, hbackslash, rfl⟩
    | true => exact .inl ⟨_, rfl, escape_control hcontrol⟩

theorem quotedOnto_writeChar (c : Char) (read rest : List Char) :
    quotedOnto read (writeChar c ++ rest) = quotedOnto (c :: read) rest := by
  rcases writeChar_cases c with ⟨cs, hwritten, hescape⟩ | ⟨hwritten, hquote, hbackslash, hcontrol⟩
  · rw [hwritten, List.cons_append]
    exact quotedOnto_escape (hescape rest)
  · rw [hwritten, List.cons_append, List.nil_append, quotedOnto, if_neg (Bool.eq_false_iff.mp hcontrol)]
    · exact hquote
    · exact hbackslash

theorem quotedOnto_write (s read rest : List Char) :
    quotedOnto read (s.flatMap writeChar ++ '"' :: rest) = .ok (read.reverse ++ s, rest) := by
  induction s generalizing read with
  | nil => simp [quotedOnto]
  | cons c s ih =>
    rw [List.flatMap_cons, List.append_assoc, quotedOnto_writeChar, ih]
    simp

theorem quoted_write (s : String) (rest : List Char) :
    quoted (s.toList.flatMap writeChar ++ '"' :: rest) = .ok (s, rest) := by
  simp [quoted, quotedOnto_write]

theorem Reader.reads_string (s : String) : Reads string (writeQuoted s) s := by
  intro rest _
  have hquoted := quoted_write s rest
  simp [string, writeQuoted, peek_cons, isBlank, hquoted]

/-! ## Naturals -/

namespace Number

theorem isDigit_of_mem_write {n : Nat} {c : Char} (h : c ∈ write n) : isDigit c = true := by
  have hdigit := Nat.isDigit_of_mem_toDigits (by decide) (by decide) h
  simpa [isDigit, Char.isDigit, Char.le_def] using hdigit

theorem write_head_ne_zero {n : Nat} (h : 0 < n) : ∃ d ds, write n = d :: ds ∧ d ≠ '0' := by
  -- the first digit is that of the number without its last digit
  induction n using Nat.strongRecOn with
  | ind n ih =>
    rcases Nat.lt_or_ge n 10 with hlt | hge
    · refine ⟨n.digitChar, [], Nat.toDigits_of_lt_base hlt, ?_⟩
      rw [Ne, Nat.digitChar_eq_zero]
      omega
    · obtain ⟨d, ds, hwrite, hd⟩ := ih (n / 10) (by omega) (by omega)
      refine ⟨d, ds ++ [(n % 10).digitChar], ?_, hd⟩
      have hlast : write n = write (n / 10) ++ [(n % 10).digitChar] := Nat.toDigits_of_base_le (by decide) hge
      rw [hlast, hwrite, List.cons_append]

/-- A digit is written first, and a zero only alone. -/
theorem exists_write_eq (n : Nat) : ∃ d ds, write n = d :: ds ∧ isDigit d = true ∧ (d = '0' → ds = []) := by
  rcases Nat.eq_zero_or_pos n with rfl | hpos
  · exact ⟨'0', [], rfl, by decide, fun _ => rfl⟩
  · obtain ⟨d, ds, hwrite, hd⟩ := write_head_ne_zero hpos
    exact ⟨d, ds, hwrite, isDigit_of_mem_write (hwrite ▸ List.mem_cons_self), fun h => absurd h hd⟩

/-! ### The number that digits stand for -/

theorem natural_eq_ofDigitChars (ds : List Char) : natural ds = Nat.ofDigitChars 10 ds 0 := by
  rw [natural, Nat.ofDigitChars_eq_foldl]
  simp only [Nat.mul_comm 10, digit]
  rfl

theorem natural_write (n : Nat) : natural (write n) = n :=
  (natural_eq_ofDigitChars _).trans Nat.ofDigitChars_ten_toDigits

theorem le_ofDigitChars (ds : List Char) (start : Nat) : start ≤ Nat.ofDigitChars 10 ds start := by
  induction ds generalizing start with
  | nil => simp
  | cons d ds ih =>
    rw [Nat.ofDigitChars_cons]
    exact Nat.le_trans (by omega) (ih _)

/-- No digit is left over if the whole number stays below the size of a word. -/
theorem extend_of_lt {start : Nat} {ds : List Char} (h : Nat.ofDigitChars 10 ds start < wordSize) :
    extend start ds = (Nat.ofDigitChars 10 ds start, 0) := by
  induction ds generalizing start with
  | nil => simp [extend]
  | cons d ds ih =>
    rw [Nat.ofDigitChars_cons] at h ⊢
    have hstep : start * 10 + digit d = 10 * start + (d.toNat - '0'.toNat) := by
      rw [Nat.mul_comm, digit]
      rfl
    have hlt := Nat.lt_of_le_of_lt (le_ofDigitChars ds _) h
    rw [extend, hstep, if_pos hlt, ih h]

/-- Rounding to a double at most doubles a number. -/
theorem toDouble_le (n : Nat) : toDouble n ≤ 2 * n := by
  rcases Nat.eq_zero_or_pos n with rfl | hpos
  · decide
  · have hunit : Nat.pow 2 (n.log2 + 1 - 53) ≤ n :=
      Nat.le_trans (Nat.pow_le_pow_right (by decide) (by omega)) (Nat.log2_self_le (by omega))
    have hquotient := Nat.div_mul_le_self n (Nat.pow 2 (n.log2 + 1 - 53))
    simp only [toDouble]
    split
    · rw [Nat.add_mul]
      omega
    · omega

theorem scaled_of_lt {ds : List Char} (h : natural ds < wordSize) :
    scaled ⟨false, ds, [], none⟩ = (natural ds, 0) := by
  rw [natural_eq_ofDigitChars] at h
  simp [scaled, extend_of_lt h, extend, natural_eq_ofDigitChars]

theorem two_pow_lt_sub {i j k : Nat} (hij : i < j) (hjk : j < k) : Nat.pow 2 i < Nat.pow 2 k - Nat.pow 2 j := by
  have hlow : 2 ^ i < 2 ^ j := Nat.pow_lt_pow_right (by decide) hij
  have hhigh : 2 ^ (j + 1) ≤ 2 ^ k := Nat.pow_le_pow_right (by decide) hjk
  rw [Nat.pow_succ] at hhigh
  simp only [Nat.pow_eq]
  omega

theorem isTooLarge_of_lt {ds : List Char} (h : natural ds < wordSize) :
    isTooLarge ⟨false, ds, [], none⟩ = false := by
  have hround : toDouble (natural ds) < 2 * wordSize :=
    Nat.lt_of_le_of_lt (toDouble_le _) (Nat.mul_lt_mul_of_pos_left h (by decide))
  have hone : toDouble (Nat.pow 10 0) = 1 := by decide
  have hword : 2 * wordSize < Nat.pow 2 1024 - Nat.pow 2 970 := by
    have hdouble : 2 * wordSize = Nat.pow 2 65 := by decide
    rw [hdouble]
    apply two_pow_lt_sub <;> decide
  have hsmall : ¬ Nat.pow 2 1024 - Nat.pow 2 970 ≤ toDouble (natural ds) :=
    Nat.not_le_of_gt (Nat.lt_trans hround hword)
  simp only [isTooLarge, scaled_of_lt h, Int.toNat_zero, hone, Nat.mul_one, hsmall]
  simp

/-! ### Reading -/

/-- Digits end where a value may end. -/
theorem digits_append {ds rest : List Char} {atEnd : Fault} (hds : ∀ c ∈ ds, isDigit c = true) (hne : ds ≠ [])
    (hrest : Reader.Follows rest) : digits atEnd (ds ++ rest) = .ok (ds, rest) := by
  have hstop : rest.takeWhile isDigit = [] ∧ rest.dropWhile isDigit = rest := by
    cases rest with
    | nil => exact ⟨rfl, rfl⟩
    | cons c rest =>
      have hc : isDigit c = false := by rcases hrest with rfl | rfl | rfl <;> decide
      simp [hc]
  have hspan : (ds ++ rest).span isDigit = (ds, rest) := by
    rw [List.span_eq_takeWhile_dropWhile, List.takeWhile_append_of_pos hds, List.dropWhile_append_of_pos hds,
      hstop.1, hstop.2, List.append_nil]
  obtain ⟨d, ds, rfl⟩ := List.exists_cons_of_ne_nil hne
  simp only [digits, hspan]

theorem integerPart_write (n : Nat) {rest : List Char} {atEnd : Fault} (hrest : Reader.Follows rest) :
    integerPart atEnd (write n ++ rest) = .ok (write n, rest) := by
  have hdigits : digits atEnd (write n ++ rest) = .ok (write n, rest) :=
    digits_append (fun c => isDigit_of_mem_write) Nat.toDigits_ne_nil hrest
  obtain ⟨d, ds, hwrite, -, hzero⟩ := exists_write_eq n
  simp only [integerPart, Reader.bind_apply, hdigits]
  rw [hwrite]
  by_cases hd : d = '0'
  · simp [hzero hd]
  · simp [hd]

theorem sign_of_isDigit {c : Char} (h : isDigit c = true) (cs : List Char) :
    sign (c :: cs) = .ok (false, c :: cs) := by
  unfold sign
  split
  · next hminus =>
    cases hminus
    cases h
  · rfl

theorem fractionPart_of_follows {rest : List Char} {atEnd : Fault} (h : Reader.Follows rest) :
    fractionPart atEnd rest = .ok ([], rest) := by
  cases rest with
  | nil => rfl
  | cons c rest => rcases h with rfl | rfl | rfl <;> rfl

theorem exponentPart_of_follows {rest : List Char} {atEnd : Fault} (h : Reader.Follows rest) :
    exponentPart atEnd rest = .ok (none, rest) := by
  cases rest with
  | nil => rfl
  | cons c rest => rcases h with rfl | rfl | rfl <;> rfl

theorem read_write (n : Nat) {rest : List Char} {atEnd : Fault} (hrest : Reader.Follows rest) :
    read atEnd (write n ++ rest) = .ok (⟨false, write n, [], none⟩, rest) := by
  have hsign : sign (write n ++ rest) = .ok (false, write n ++ rest) := by
    obtain ⟨d, ds, hwrite, hdigit, -⟩ := exists_write_eq n
    rw [hwrite, List.cons_append]
    exact sign_of_isDigit hdigit _
  simp [read, hsign, integerPart_write n hrest, fractionPart_of_follows hrest, exponentPart_of_follows hrest]

theorem readBounded_write {n : Nat} (h : n < wordSize) {rest : List Char} (hrest : Reader.Follows rest) :
    readBounded (write n ++ rest) = .ok (⟨false, write n, [], none⟩, rest) := by
  have hsmall : isTooLarge ⟨false, write n, [], none⟩ = false := isTooLarge_of_lt (by rwa [natural_write])
  simp [readBounded, read_write n hrest, hsmall]

end Number

namespace Reader

theorem isBlank_of_isDigit {c : Char} (h : Number.isDigit c = true) : isBlank c = false := by
  rw [isBlank, Bool.eq_false_iff]
  intro hblank
  simp only [Bool.or_eq_true, decide_eq_true_eq] at hblank
  rcases hblank with ((rfl | rfl) | rfl) | rfl <;> cases h

theorem reads_natural {n : Nat} (h : n < Number.wordSize) : Reads natural (Number.write n) n := by
  intro rest hrest
  have hread := Number.readBounded_write h hrest
  have hvalue : Number.natural? ⟨false, Number.write n, [], none⟩ = some n := by
    simp [Number.natural?, Number.natural_write, h]
  obtain ⟨d, ds, hwrite, hdigit, -⟩ := Number.exists_write_eq n
  have hpeek : peek (Number.write n ++ rest) = .ok (d, Number.write n ++ rest) := by
    rw [hwrite, List.cons_append]
    exact peek_cons (isBlank_of_isDigit hdigit) _
  simp [natural, hpeek, hdigit, hread, hvalue]

end Reader

end TransactLint.Json
