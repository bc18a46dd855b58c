import Mathlib.Data.List.Induction
import Mathlib.Data.String.Basic
import TransactLint.Proofs.Scanning

/-!
# The tokens of a script cover it

Tokenizing loses nothing: the tokens lie end to end over the bytes of the script, each is the piece of
the script at its bytes, and its place is the one a reader finds by counting lines and characters. This
holds of any lexemes whose places lie end to end, and those of a script do. Hence no token is ever out
of its place, and a script without tokens has a fault of its own.
-/

namespace TransactLint

/-! ## Pieces of a text -/

namespace Text

theorem byteSize_eq_utf8Len (cs : List Char) : byteSize cs = String.utf8Len cs := by
  induction cs with
  | nil => simp [byteSize]
  | cons c cs ih => simp [byteSize_cons, ih, Nat.add_comm]

theorem byteSize_toList (s : String) : byteSize s.toList = s.utf8ByteSize := by
  rw [byteSize_eq_utf8Len]
  simp

theorem slice?_append (before text after : List Char) :
    slice? (String.ofList (before ++ text ++ after)) (byteSize before) (byteSize text) =
      some (String.ofList text) := by
  have hstart : String.Pos.Raw.isValid (String.ofList (before ++ text ++ after)) ⟨byteSize before⟩ = true := by
    rw [String.Pos.Raw.isValid_eq_true_iff, String.Pos.Raw.isValid_iff_exists_append]
    refine ⟨String.ofList before, String.ofList (text ++ after), ?_, ?_⟩
    · rw [List.append_assoc, String.ofList_append]
    · rw [String.rawEndPos_ofList, byteSize_eq_utf8Len]
  have hstop : String.Pos.Raw.isValid (String.ofList (before ++ text ++ after))
      ⟨byteSize before + byteSize text⟩ = true := by
    rw [String.Pos.Raw.isValid_eq_true_iff, String.Pos.Raw.isValid_iff_exists_append]
    refine ⟨String.ofList (before ++ text), String.ofList after, String.ofList_append, ?_⟩
    rw [String.rawEndPos_ofList, String.utf8Len_append, byteSize_eq_utf8Len, byteSize_eq_utf8Len]
  unfold slice?
  simp only [hstart, hstop, Bool.and_self, if_true]
  rw [byteSize_eq_utf8Len, byteSize_eq_utf8Len, String.extract_of_valid]

end Text

/-! ## Counting lines and characters -/

namespace Location

theorem after_snoc (l : Location) (cs : List Char) (c : Char) : l.after (cs ++ [c]) = (l.after cs).advance c :=
  after_append l cs [c]

theorem line_after (l : Location) (cs : List Char) : (l.after cs).line = l.line + cs.count '\n' := by
  induction cs using List.reverseRecOn with
  | nil => rfl
  | append_singleton cs c ih =>
    rw [after_snoc, advance]
    by_cases hc : c = '\n'
    · simp [hc, ih, Nat.add_assoc]
    · simp [hc, ih]

theorem column_after_origin (cs : List Char) :
    (origin.after cs).column = 1 + (cs.reverse.takeWhile (· ≠ '\n')).length := by
  induction cs using List.reverseRecOn with
  | nil => rfl
  | append_singleton cs c ih =>
    rw [after_snoc, advance, List.reverse_append]
    by_cases hc : c = '\n'
    · simp [hc]
    · simp [hc, ih, Nat.add_assoc]

end Location

/-! ## Covering -/

/-- The tokens take up bytes, and lie end to end from the byte `first` to the byte `last`. -/
def Tiles : Nat → List Token → Nat → Prop
  | first, [], last => first = last
  | first, t :: tokens, last => t.offset = first ∧ 0 < t.length ∧ Tiles t.stop tokens last

/-- The tokens are the pieces, end to end, of a text that begins at a place and a byte. -/
inductive Pieces : Location → Nat → List Char → List Token → Prop where
  | nil (here : Location) (offset : Nat) : Pieces here offset [] []
  | cons {here : Location} {offset : Nat} {piece rest : List Char} {t : Token} {tokens : List Token}
      (hpiece : piece ≠ []) (htext : t.text = String.ofList piece) (hstart : t.start = here)
      (hoffset : t.offset = offset) (hlength : t.length = Text.byteSize piece)
      (hrest : Pieces (here.after piece) (offset + Text.byteSize piece) rest tokens) :
      Pieces here offset (piece ++ rest) (t :: tokens)

namespace Pieces

variable {here : Location} {offset : Nat} {text : List Char} {tokens : List Token}

theorem tiles (h : Pieces here offset text tokens) : Tiles offset tokens (offset + Text.byteSize text) := by
  induction h with
  | nil => rfl
  | @cons here offset piece rest t tokens hpiece _ _ hoffset hlength _ ih =>
    have hpos : 0 < Text.byteSize piece := by
      obtain ⟨c, cs, rfl⟩ := List.exists_cons_of_ne_nil hpiece
      have := c.utf8Size_pos
      rw [Text.byteSize_cons]
      omega
    rw [Text.byteSize_append, ← Nat.add_assoc]
    refine ⟨hoffset, hlength ▸ hpos, ?_⟩
    rwa [Token.stop, hoffset, hlength]

/-- Every token splits the text into what stands before it, itself, and the rest. -/
theorem splits (h : Pieces here offset text tokens) : ∀ t ∈ tokens, ∃ before piece rest,
    text = before ++ piece ++ rest ∧ t.text = String.ofList piece ∧ t.offset = offset + Text.byteSize before ∧
      t.length = Text.byteSize piece ∧ t.start = here.after before := by
  induction h with
  | nil => simp
  | @cons here offset piece rest t tokens _ htext hstart hoffset hlength _ ih =>
    intro u hu
    rcases List.mem_cons.mp hu with rfl | hu
    · exact ⟨[], piece, rest, rfl, htext, hoffset, hlength, hstart⟩
    · obtain ⟨before, piece', rest', rfl, htext, hoffset, hlength, hstart⟩ := ih u hu
      refine ⟨piece ++ before, piece', rest', by simp, htext, ?_, hlength, ?_⟩
      · rw [hoffset, Text.byteSize_append, Nat.add_assoc]
      · rw [hstart, Location.after_append]

end Pieces

theorem Scans.pieces {here : Location} {offset : Nat} {afterWord : Bool} {text : List Char} {tokens : List Token}
    (h : Scans here offset afterWord text tokens) : Pieces here offset text tokens := by
  induction h with
  | nil => exact .nil _ _
  | @cons here offset afterWord c cs s tokens _ _ ih =>
    rw [← s.piece_append_drop c cs]
    exact .cons (List.cons_ne_nil _ _) rfl rfl rfl rfl ih

/-! ## Lexemes that lie end to end -/

namespace Lexeme

/-- Each of the lexemes of a text that begins at a place takes up some characters, and the next one begins where it
stops. -/
inductive Contiguous : Location → List Char → List Lexeme → Prop where
  | nil (here : Location) : Contiguous here [] []
  | cons {here : Location} {piece rest : List Char} {x : Lexeme} {xs : List Lexeme} (hpiece : piece ≠ [])
      (hstart : x.start = here) (hstop : x.stop = here.after piece)
      (hrest : Contiguous (here.after piece) rest xs) :
      Contiguous here (piece ++ rest) (x :: xs)

/-- Whatever their kinds and values are, such lexemes have tokens, and these cover the text. -/
theorem Contiguous.tokensFrom {here : Location} {text : List Char} {xs : List Lexeme} (h : Contiguous here text xs)
    (offset : Nat) : ∃ tokens, Pieces here offset text tokens ∧
      ∀ before, Lexeme.tokensFrom before ⟨here, offset, text⟩ xs = .ok (before.reverse ++ tokens) := by
  induction h generalizing offset with
  | nil here => exact ⟨[], .nil _ _, fun before => by simp [Lexeme.tokensFrom]⟩
  | @cons here piece rest x xs hpiece hstart hstop _ ih =>
    obtain ⟨tokens, hpieces, htokens⟩ := ih (offset + Text.byteSize piece)
    have htoken := token_of_stop hstart hstop offset rest
    refine ⟨⟨x.kind, String.ofList piece, String.ofList x.value, here, offset, Text.byteSize piece⟩ :: tokens,
      .cons hpiece rfl rfl rfl rfl hpieces, fun before => ?_⟩
    simp only [Lexeme.tokensFrom, htoken, htokens]
    simp

theorem contiguous_of_lexemesFrom {found all : List Lexeme} {here : Location} {afterWord : Bool} {text : List Char}
    (h : lexemesFrom found here afterWord text = .ok all) : ∃ xs, all = found.reverse ++ xs ∧
      Contiguous here text xs := by
  fun_induction lexemesFrom found here afterWord text with
  | case1 => cases h; exact ⟨[], (List.append_nil _).symm, .nil _⟩
  | case2 => cases h
  | case3 found here afterWord c cs s hs stop ih =>
    obtain ⟨xs, rfl, hxs⟩ := ih h
    refine ⟨⟨s.kind, s.value, here, stop⟩ :: xs, by simp, ?_⟩
    rw [← s.piece_append_drop c cs]
    exact .cons (List.cons_ne_nil _ _) rfl rfl hxs

theorem lexemes_contiguous {text : List Char} {xs : List Lexeme} (h : lexemes text = .ok xs) :
    Contiguous .origin text xs := by
  obtain ⟨_, rfl, hxs⟩ := contiguous_of_lexemesFrom h
  exact hxs

end Lexeme

/-- The tokens of a script that has lexemes are those of the lexemes, and cover the script. -/
theorem pieces_of_lexemes {sql : String} {xs : List Lexeme} (h : Lexeme.lexemes sql.toList = .ok xs) :
    ∃ tokens, tokenize sql = .ok tokens ∧ Pieces .origin 0 sql.toList tokens := by
  obtain ⟨tokens, hpieces, htokens⟩ := (Lexeme.lexemes_contiguous h).tokensFrom 0
  refine ⟨tokens, ?_, hpieces⟩
  rw [tokenize, h]
  exact htokens []

/-! ## Faults -/

namespace Lexeme

variable {here : Location} {afterWord : Bool} {c closer : Char} {cs : List Char}

def Faults (x : Except LexicalError Scan) : Prop :=
  ∀ e, x = .error e → e.fault ≠ .misplacedToken

theorem Faults.ok {s : Scan} : Faults (.ok s) := nofun

theorem Faults.error {fault : LexicalFault} (h : fault ≠ .misplacedToken) :
    Faults (.error ⟨fault, here⟩) := by
  rintro _ ⟨⟩
  exact h

theorem Faults.ite {p : Prop} [Decidable p] {x y : Except LexicalError Scan} (hx : Faults x) (hy : Faults y) :
    Faults (if p then x else y) := by
  by_cases hp : p
  · rwa [if_pos hp]
  · rwa [if_neg hp]

theorem quotedLiteral_faults {kind : TokenKind} {lead : Nat} {body : Option (List Char × Nat)} :
    Faults (quotedLiteral kind here lead body) := by
  cases body with
  | none => exact .error nofun
  | some r => exact .ok

theorem delimitedIdentifier_faults : Faults (delimitedIdentifier here closer cs) := by
  unfold delimitedIdentifier
  split
  · exact .ok
  · exact .error nofun

theorem numberOrPeriod_faults : Faults (numberOrPeriod here afterWord cs) := by
  unfold numberOrPeriod
  split
  · exact .ite .ok (.error nofun)
  · exact .ok

theorem blockComment_faults : Faults (blockComment here cs) := by
  unfold blockComment
  split
  · exact .ok
  · exact .error nofun

theorem dollar_faults : Faults (dollar here cs) := by
  unfold dollar
  dsimp only
  split
  · split
    · exact .ok
    · apply Faults.error
      split <;> exact nofun
  · exact .ok

theorem scan_faults : Faults (scan here afterWord c cs) := by
  unfold scan
  refine .ite quotedLiteral_faults (.ite quotedLiteral_faults (.ite quotedLiteral_faults ?_))
  refine .ite delimitedIdentifier_faults (.ite delimitedIdentifier_faults (.ite numberOrPeriod_faults ?_))
  refine .ite .ok (.ite blockComment_faults (.ite .ok (.ite .ok (.ite .ok ?_))))
  exact .ite dollar_faults (.ite .ok (.ite .ok .ok))

theorem lexemesFrom_fault {found : List Lexeme} {text : List Char} {e : LexicalError}
    (h : lexemesFrom found here afterWord text = .error e) : e.fault ≠ .misplacedToken := by
  fun_induction lexemesFrom found here afterWord text with
  | case1 => cases h
  | case2 found here afterWord c cs fault hscan =>
    cases h
    exact scan_faults e hscan
  | case3 found here afterWord c cs s hs stop ih => exact ih h

end Lexeme

/-- Once the lexemes of a script are known, each of them is found in the script. -/
theorem tokenize_fault {sql : String} {e : LexicalError} (h : tokenize sql = .error e) :
    e.fault ≠ .misplacedToken := by
  cases hlexemes : Lexeme.lexemes sql.toList with
  | error e' =>
    simp only [tokenize, hlexemes] at h
    cases h
    exact Lexeme.lexemesFrom_fault hlexemes
  | ok xs =>
    obtain ⟨tokens, htokens, -⟩ := pieces_of_lexemes hlexemes
    cases h.symm.trans htokens

theorem tokenize_pieces {sql : String} {tokens : List Token} (h : tokenize sql = .ok tokens) :
    Pieces .origin 0 sql.toList tokens := by
  cases hlexemes : Lexeme.lexemes sql.toList with
  | error e =>
    rw [tokenize, hlexemes] at h
    cases h
  | ok xs =>
    obtain ⟨found, hfound, hpieces⟩ := pieces_of_lexemes hlexemes
    cases h.symm.trans hfound
    exact hpieces

/-! ## The cover of a script -/

/-- The tokens of a script cover it from its first byte to its last. Each is the piece of the script
at its bytes, and its line and column count the line feeds before it and the characters since the
last of them. -/
theorem tokenize_covers (sql : String) :
    (∀ tokens, tokenize sql = .ok tokens → Tiles 0 tokens sql.utf8ByteSize ∧
      ∀ t ∈ tokens, Text.slice? sql t.offset t.length = some t.text ∧
        ∃ before, Text.slice? sql 0 t.offset = some before ∧
          t.start.line = 1 + before.toList.count '\n' ∧
          t.start.column = 1 + (before.toList.reverse.takeWhile (· ≠ '\n')).length) ∧
      ∀ e, tokenize sql = .error e → e.fault ≠ .misplacedToken := by
  refine ⟨?_, fun e h => tokenize_fault h⟩
  intro tokens h
  have hpieces := tokenize_pieces h
  constructor
  · have htiles := hpieces.tiles
    rwa [Nat.zero_add, Text.byteSize_toList] at htiles
  · intro t ht
    obtain ⟨before, piece, rest, hsplit, htext, hoffset, hlength, hstart⟩ := hpieces.splits t ht
    rw [Nat.zero_add] at hoffset
    have hsql : sql = String.ofList (before ++ piece ++ rest) := by rw [← hsplit, String.ofList_toList]
    constructor
    · rw [hsql, hoffset, hlength, htext]
      exact Text.slice?_append before piece rest
    · refine ⟨String.ofList before, ?_, ?_, ?_⟩
      · have hslice := Text.slice?_append [] before (piece ++ rest)
        rw [hsql, hoffset, List.append_assoc]
        exact hslice
      · rw [hstart, Location.line_after, String.toList_ofList]
        rfl
      · rw [hstart, Location.column_after_origin, String.toList_ofList]

/-- A letter of two bytes, a line feed and a name in brackets; and a string that does not end. -/
theorem tokenize_covers_lines :
    (∃ tokens, tokenize "é\n[a]" = .ok tokens ∧
      tokens.map (fun t => (t.offset, t.length, t.start)) = [(0, 2, ⟨1, 1⟩), (2, 1, ⟨1, 2⟩),
        (3, 3, ⟨2, 1⟩)] ∧
      Tiles 0 tokens "é\n[a]".utf8ByteSize ∧
      ∀ t ∈ tokens, Text.slice? "é\n[a]" t.offset t.length = some t.text) ∧
    ∃ e, tokenize "'a" = .error e ∧ e.fault ≠ .misplacedToken := by
  obtain ⟨tokens, htokens, hplaces⟩ : ∃ tokens ∈ (tokenize "é\n[a]").toOption,
      tokens.map (fun t => (t.offset, t.length, t.start)) = [(0, 2, ⟨1, 1⟩), (2, 1, ⟨1, 2⟩),
        (3, 3, ⟨2, 1⟩)] := by
    decide +kernel
  have htokens := eq_ok_of_mem_toOption htokens
  obtain ⟨htiles, hpieces⟩ := (tokenize_covers "é\n[a]").1 tokens htokens
  refine ⟨⟨tokens, htokens, hplaces, htiles, fun t ht => (hpieces t ht).1⟩, ?_⟩
  have herror : tokenize "'a" = .error ⟨.unterminatedString, ⟨1, 1⟩⟩ := by decide +kernel
  exact ⟨_, herror, (tokenize_covers "'a").2 _ herror⟩

end TransactLint
