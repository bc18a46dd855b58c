import TransactLint.Proofs.Reading
import TransactLint.Proofs.TokenOrder

/-!
# How keywords and variables are spelled

A token that is a keyword spells it, so it is no word that is not reserved. The value of a variable begins with its
sign.
-/

namespace TransactLint

/-! ## Upper case -/

namespace Text

theorem toUpper_cases (c : Char) : (97 ≤ c.toNat ∧ c.toNat ≤ 122 ∧ c.toUpper.toNat + 32 = c.toNat) ∨
    ((c.toNat < 97 ∨ 122 < c.toNat) ∧ c.toUpper = c) := by
  unfold Char.toUpper
  split
  · rename_i h
    simp only [UInt32.le_iff_toNat_le] at h
    have hlow : 97 ≤ c.val.toNat := h.1
    have hhigh : c.val.toNat ≤ 122 := h.2
    refine .inl ⟨hlow, hhigh, ?_⟩
    change (c.val + ('A'.val - 'a'.val)).toNat + 32 = c.val.toNat
    rw [UInt32.toNat_add, show ('A'.val - 'a'.val).toNat = 4294967264 by decide]
    omega
  · rename_i h
    simp only [UInt32.le_iff_toNat_le] at h
    have hrange : ¬ (97 ≤ c.val.toNat ∧ c.val.toNat ≤ 122) := h
    refine .inr ⟨?_, rfl⟩
    change c.val.toNat < 97 ∨ 122 < c.val.toNat
    omega

theorem toUpper_toUpper (c : Char) : c.toUpper.toUpper = c.toUpper := by
  rcases toUpper_cases c with ⟨hlow, hhigh, hupper⟩ | ⟨-, hsame⟩
  · rcases toUpper_cases c.toUpper with ⟨hlow', -, -⟩ | ⟨-, hsame⟩
    · omega
    · exact hsame
  · rw [hsame, hsame]

theorem upperChar?_toUpper (c : Char) : upperChar? c.toUpper = upperChar? c := by
  rcases toUpper_cases c with ⟨hlow, hhigh, hupper⟩ | ⟨-, hsame⟩
  · unfold upperChar?
    rw [if_pos (by omega), if_pos (by omega), toUpper_toUpper]
  · rw [hsame]

theorem upperWord?_upperAscii (cs : List Char) : upperWord? (upperAscii cs) = upperWord? cs := by
  induction cs with
  | nil => rfl
  | cons c cs ih =>
    have ih : upperWord? (cs.map Char.toUpper) = upperWord? cs := ih
    simp only [upperAscii, List.map_cons, upperWord?, upperChar?_toUpper, ih]

end Text

/-- Which keyword a word is does not depend on the case of its letters. -/
theorem Keyword.ofWord?_congr {v w : List Char} (h : Text.upperAscii v = Text.upperAscii w) :
    ofWord? v = ofWord? w := by
  unfold ofWord?
  rw [← Text.upperWord?_upperAscii v, ← Text.upperWord?_upperAscii w, h]

/-! ## Keywords among the tokens -/

def Token.Spelled (t : Token) : Prop :=
  ∀ k, t.kind = .keyword k → Keyword.ofWord? t.value.toList = some k

theorem Token.Spelled.not_isWord {t : Token} (h : t.Spelled) {k : Keyword} (hkind : t.kind = .keyword k)
    {word : String} (hword : Keyword.ofWord? word.toList = none) : t.isWord word = false := by
  rw [Bool.eq_false_iff]
  intro hsame
  simp only [Token.isWord, hkind, Text.sameIgnoringCase, beq_iff_eq] at hsame
  have hspelled := h k hkind
  rw [Keyword.ofWord?_congr hsame, hword] at hspelled
  cases hspelled

namespace TokenKind

def Admits : TokenKind → List Char → Prop
  | .keyword k, value => Keyword.ofWord? value = some k
  | .localVariable, value => value.head? = some '@'
  | _, _ => True

def isBareWord : TokenKind → Bool
  | .keyword _ | .localVariable => true
  | _ => false

theorem admits_of_not {kind : TokenKind} (h : kind.isBareWord = false) (value : List Char) : kind.Admits value := by
  cases kind <;> trivial

end TokenKind

namespace Lexeme

theorem wordKind_admits (w : List Char) : (wordKind w).Admits w := by
  unfold wordKind
  split
  · assumption
  · split
    · assumption
    · trivial

theorem symbol_kind (c : Char) (cs : List Char) : (symbol c cs).kind.isBareWord = false := by
  have hoperators : operators.all (fun op => !op.kind.isBareWord) = true := by decide
  unfold symbol
  split
  · rename_i op hop
    simpa using List.all_eq_true.mp hoperators op (List.mem_of_find?_eq_some hop)
  · rfl

theorem quotedLiteral_kind {kind : TokenKind} {here : Location} {lead : Nat} {body : Option (List Char × Nat)}
    {s : Scan} (h : quotedLiteral kind here lead body = .ok s) : s.kind = kind := by
  unfold quotedLiteral at h
  split at h <;> cases h
  rfl

theorem delimitedIdentifier_kind {here : Location} {closer : Char} {cs : List Char} {s : Scan}
    (h : delimitedIdentifier here closer cs = .ok s) : s.kind = .quotedIdentifier := by
  unfold delimitedIdentifier at h
  split at h <;> cases h
  rfl

theorem numberOrPeriod_kind {here : Location} {afterWord : Bool} {cs : List Char} {s : Scan}
    (h : numberOrPeriod here afterWord cs = .ok s) : s.kind.isBareWord = false := by
  unfold numberOrPeriod at h
  split at h
  · split at h <;> cases h
    rfl
  · cases h
    unfold number
    split
    · rfl
    · dsimp only
      split <;> rfl

theorem dollar_kind {here : Location} {cs : List Char} {s : Scan} (h : dollar here cs = .ok s) :
    s.kind = .other := by
  unfold dollar at h
  dsimp only at h
  split at h
  · split at h <;> cases h
    rfl
  · cases h
    rfl

theorem blockComment_kind {here : Location} {cs : List Char} {s : Scan} (h : blockComment here cs = .ok s) :
    s.kind = .comment := by
  unfold blockComment at h
  split at h <;> cases h
  rfl

theorem blank_kind (c : Char) (cs : List Char) : (blank c cs).kind = .blank := by
  unfold blank
  split
  · rfl
  · split <;> rfl

theorem word_admits (c : Char) (lead : Nat) (cs : List Char) :
    (word c lead cs).kind.Admits (word c lead cs).value :=
  wordKind_admits _

theorem hashWord_admits (cs : List Char) : (hashWord cs).kind.Admits (hashWord cs).value := by
  unfold hashWord
  split <;> first | exact word_admits .. | trivial

theorem atWord_admits (cs : List Char) : (atWord cs).kind.Admits (atWord cs).value := by
  unfold atWord
  split <;> first | exact word_admits .. | trivial | skip
  split
  · trivial
  · exact word_admits ..

theorem ite_ok {α β : Type} {c : Prop} [Decidable c] {x y : Except α β} {b : β}
    (h : (if c then x else y) = .ok b) :
    (c ∧ x = .ok b) ∨ (¬ c ∧ y = .ok b) := by
  by_cases hc : c
  · rw [if_pos hc] at h
    exact .inl ⟨hc, h⟩
  · rw [if_neg hc] at h
    exact .inr ⟨hc, h⟩

/-- Only words are keywords or variables. -/
theorem scan_admits {here : Location} {afterWord : Bool} {c : Char} {cs : List Char} {s : Scan}
    (h : scan here afterWord c cs = .ok s) : s.kind.Admits s.value := by
  unfold scan at h
  rcases ite_ok h with ⟨-, h⟩ | ⟨-, h⟩
  · rw [quotedLiteral_kind h]
    trivial
  rcases ite_ok h with ⟨-, h⟩ | ⟨-, h⟩
  · rw [quotedLiteral_kind h]
    trivial
  rcases ite_ok h with ⟨-, h⟩ | ⟨-, h⟩
  · rw [quotedLiteral_kind h]
    trivial
  rcases ite_ok h with ⟨-, h⟩ | ⟨-, h⟩
  · rw [delimitedIdentifier_kind h]
    trivial
  rcases ite_ok h with ⟨-, h⟩ | ⟨-, h⟩
  · rw [delimitedIdentifier_kind h]
    trivial
  rcases ite_ok h with ⟨-, h⟩ | ⟨-, h⟩
  · exact TokenKind.admits_of_not (numberOrPeriod_kind h) _
  rcases ite_ok h with ⟨-, h⟩ | ⟨-, h⟩
  · cases h
    trivial
  rcases ite_ok h with ⟨-, h⟩ | ⟨-, h⟩
  · rw [blockComment_kind h]
    trivial
  rcases ite_ok h with ⟨-, h⟩ | ⟨-, h⟩
  · cases h
    exact hashWord_admits _
  rcases ite_ok h with ⟨-, h⟩ | ⟨-, h⟩
  · cases h
    exact atWord_admits _
  rcases ite_ok h with ⟨-, h⟩ | ⟨-, h⟩
  · cases h
    trivial
  rcases ite_ok h with ⟨-, h⟩ | ⟨-, h⟩
  · rw [dollar_kind h]
    trivial
  rcases ite_ok h with ⟨-, h⟩ | ⟨-, h⟩
  · cases h
    rw [blank_kind]
    trivial
  rcases ite_ok h with ⟨-, h⟩ | ⟨-, h⟩
  · cases h
    exact word_admits ..
  · cases h
    exact TokenKind.admits_of_not (symbol_kind c cs) _

theorem lexemesFrom_admits {found xs : List Lexeme} {here : Location} {afterWord : Bool} {text : List Char}
    (h : lexemesFrom found here afterWord text = .ok xs) (hfound : ∀ x ∈ found, x.kind.Admits x.value) :
    ∀ x ∈ xs, x.kind.Admits x.value := by
  fun_induction lexemesFrom found here afterWord text with
  | case1 found here afterWord =>
    cases h
    simpa using hfound
  | case2 => cases h
  | case3 found here afterWord c cs s hs stop ih =>
    exact ih h (List.forall_mem_cons.mpr ⟨scan_admits hs, hfound⟩)

theorem token_value {cursor after : Cursor} {x : Lexeme} {t : Token} (h : x.token cursor = .ok (t, after)) :
    t.kind = x.kind ∧ t.value = String.ofList x.value := by
  unfold token at h
  split at h
  · cases h
  · split at h
    · cases h
    · split at h <;> cases h
      exact ⟨rfl, rfl⟩

theorem tokensFrom_admits : ∀ {xs : List Lexeme} {found tokens : List Token} {cursor : Cursor},
    tokensFrom found cursor xs = .ok tokens → (∀ x ∈ xs, x.kind.Admits x.value) →
    (∀ t ∈ found, t.kind.Admits t.value.toList) → ∀ t ∈ tokens, t.kind.Admits t.value.toList
  | [], found, tokens, cursor, h, _, hfound => by
    cases h
    simpa using hfound
  | x :: xs, found, tokens, cursor, h, hxs, hfound => by
    unfold tokensFrom at h
    split at h
    · cases h
    · rename_i t after ht
      obtain ⟨hkind, hvalue⟩ := token_value ht
      obtain ⟨hx, hxs⟩ := List.forall_mem_cons.mp hxs
      refine tokensFrom_admits h hxs (List.forall_mem_cons.mpr ⟨?_, hfound⟩)
      rwa [hkind, hvalue, String.toList_ofList]

end Lexeme

section
variable {sql : String} {tokens : List Token} (h : tokenize sql = .ok tokens)
include h

theorem tokenize_admits : ∀ t ∈ tokens, t.kind.Admits t.value.toList := by
  unfold tokenize at h
  split at h
  · cases h
  · rename_i xs hxs
    exact Lexeme.tokensFrom_admits h (Lexeme.lexemesFrom_admits hxs nofun) nofun

theorem tokenize_spelled : ∀ t ∈ tokens, t.Spelled := by
  intro t ht k hk
  have hadmits := tokenize_admits h t ht
  rwa [hk] at hadmits

/-- A variable begins with its sign. -/
theorem head?_of_localVariable {t : Token} (ht : t ∈ tokens) (hkind : t.kind = .localVariable) :
    t.value.toList.head? = some '@' := by
  have hadmits := tokenize_admits h t ht
  rwa [hkind] at hadmits

end

def Terminals.Spelled (ts : Terminals) : Prop := ∀ pos t, ts.token? pos = some t → t.Spelled

theorem Terminals.spelled_of_tokenize {sql : String} {tokens : List Token} (h : tokenize sql = .ok tokens) :
    (ofTokens tokens).Spelled := by
  intro pos t ht
  obtain ⟨x, hx, rfl⟩ := Option.map_eq_some_iff.mp ht
  have hmem := mem_ofTokens.mp (Array.mem_toList_iff.mpr (Array.mem_of_getElem? hx))
  exact tokenize_spelled h _ (List.mem_of_getElem? hmem.1)

end TransactLint
