import TransactLint.Proofs.Concatenation
import TransactLint.Proofs.Spelling
import TransactLint.Proofs.TableKeys

/-!
# What the key of a guarded value tells

The key of a variable is its name, and the key of a column is one text with periods between the parts of its path.
Two expressions with one key refer to the same value if both are variables, or both are columns with as many periods
inside their parts. A delimited name may begin with the sign of a variable or hold periods, and then a guard on one
value is taken for a guard on another.
-/

namespace TransactLint

/-! ## Joined texts -/

theorem length_splitOn {c : Char} (cs : List Char) : (cs.splitOn c).length = cs.count c + 1 := by
  induction cs with
  | nil => rfl
  | cons a cs ih =>
    rw [List.splitOn, List.splitOnP_cons_eq_if_modifyHead]
    split
    · rename_i hc
      rw [List.length_cons, ← List.splitOn, ih, beq_iff_eq.mp hc, List.count_cons_self]
    · rename_i hc
      rw [List.length_modifyHead, ← List.splitOn, ih, List.count_cons_of_ne (by simpa using hc)]

/-- Texts that agree in their pieces are the same if each has as many. -/
theorem flatMap_splitOn_inj {c : Char} {l l' : List (List Char)}
    (hcount : l.map (List.count c) = l'.map (List.count c))
    (h : l.flatMap (List.splitOn c) = l'.flatMap (List.splitOn c)) : l = l' := by
  induction l generalizing l' with
  | nil =>
    cases l' with
    | nil => rfl
    | cons y l' => cases hcount
  | cons x l ih =>
    cases l' with
    | nil => cases hcount
    | cons y l' =>
      obtain ⟨hxy, hcount⟩ := List.cons.inj hcount
      rw [List.flatMap_cons, List.flatMap_cons] at h
      -- as many separators make as many pieces, so the two lists of pieces part at one place
      obtain ⟨hpieces, h⟩ := List.append_inj h (by rw [length_splitOn, length_splitOn, hxy])
      have hsame : x = y := by
        calc
          x = [c].intercalate (x.splitOn c) := (List.intercalate_splitOn c).symm
          _ = [c].intercalate (y.splitOn c) := by rw [hpieces]
          _ = y := List.intercalate_splitOn c
      rw [hsame, ih hcount h]

/-! ## Referents -/

inductive Referent where
  | localVariable (name : String)
  | column (path : List String)
deriving DecidableEq

namespace Referent

def key : Referent → String
  | .localVariable name => name
  | .column path => ".".intercalate path

def dots : Referent → Option (List Nat)
  | .localVariable _ => none
  | .column path => some (path.map fun part => part.toList.count '.')

/-- Whether it is a variable, or a column without periods inside its parts that does not begin as variables do. -/
def isFreeOfDotsAndSign : Referent → Bool
  | .localVariable _ => true
  | .column path => path.all (fun part => !part.toList.contains '.') && path.head?.all fun part =>
    part.toList.head? ≠ some '@'

def Signed (r : Referent) : Prop := ∀ name, r = .localVariable name → name.toList.head? = some '@'

theorem path_ne_nil {path : List String} (h : (column path).key ≠ "") : path ≠ [] := by
  rintro rfl
  exact h rfl

/-- Columns with one key have the same pieces between all periods. -/
theorem pieces_eq {path path' : List String} (hkey : (column path).key = (column path').key)
    (hne : (column path).key ≠ "") :
    (path.map String.toList).flatMap (List.splitOn '.') = (path'.map String.toList).flatMap (List.splitOn '.') := by
  have hpath := path_ne_nil hne
  have hpath' := path_ne_nil (hkey ▸ hne)
  rw [← intercalate_eq_iff (by simpa using hpath) (by simpa using hpath')]
  have htext := congrArg String.toList hkey
  rwa [key, key, String.toList_intercalate, String.toList_intercalate] at htext

/-- Without periods inside of its parts, the pieces of a column are its parts. -/
theorem pieces_of_undotted {path : List String} (hfree : (column path).isFreeOfDotsAndSign = true) :
    (path.map String.toList).flatMap (List.splitOn '.') = path.map String.toList := by
  have hpart : ∀ part ∈ path, '.' ∉ part.toList := by
    simpa [isFreeOfDotsAndSign] using (Bool.and_eq_true_iff.mp hfree).1
  rw [List.flatMap_map, List.flatMap, List.map_congr_left fun part hmem =>
    List.splitOn_eq_singleton (hpart part hmem), ← List.flatMap, ← List.map_eq_flatMap]

theorem toList_key_column (part : String) (path : List String) :
    ∃ rest, (column (part :: path)).key.toList = part.toList ++ rest ∧ rest.head? ≠ some '@' := by
  rw [key, String.toList_intercalate, List.map_cons]
  cases path with
  | nil => exact ⟨[], by simp, by simp⟩
  | cons next path => exact ⟨_, by rw [List.map_cons, List.intercalate_cons_cons, List.append_assoc], by simp⟩

theorem head?_key_column {path : List String} (hfree : (column path).isFreeOfDotsAndSign = true) :
    (column path).key.toList.head? ≠ some '@' := by
  cases path with
  | nil => simp [key]
  | cons part path =>
    obtain ⟨rest, hkey, hrest⟩ := toList_key_column part path
    rw [hkey, List.head?_append]
    simp only [isFreeOfDotsAndSign, Bool.and_eq_true, List.head?_cons, Option.all_some, decide_eq_true_eq] at hfree
    cases hpart : part.toList.head? with
    | none => simpa using hrest
    | some c => simpa [hpart] using hfree.2

section
variable {r r' : Referent} (hkey : r.key = r'.key) (hne : r.key ≠ "")
include hkey hne

/-- A key and the periods inside the parts tell what is referred to. -/
theorem eq_iff_dots : r = r' ↔ r.dots = r'.dots := by
  refine ⟨congrArg dots, fun hdots => ?_⟩
  cases r with
  | localVariable name =>
    cases r' with
    | localVariable name' => exact congrArg localVariable hkey
    | column path' => cases hdots
  | column path =>
    cases r' with
    | localVariable name' => cases hdots
    | column path' =>
      have hcount : (path.map String.toList).map (List.count '.') = (path'.map String.toList).map
          (List.count '.') := by
        simpa [dots, Function.comp_def] using hdots
      have hpath := flatMap_splitOn_inj hcount (pieces_eq hkey hne)
      rw [(List.map_inj_right fun _ _ => String.toList_inj.mp).mp hpath]

theorem eq_of_free (hsigned : r.Signed) (hsigned' : r'.Signed) (hfree : r.isFreeOfDotsAndSign = true)
    (hfree' : r'.isFreeOfDotsAndSign = true) :
    r = r' := by
  cases r with
  | localVariable name =>
    cases r' with
    | localVariable name' => exact congrArg localVariable hkey
    | column path' =>
      -- the key of a variable begins with its sign, and that of such a column does not
      have hsign : (localVariable name).key.toList.head? = some '@' := hsigned name rfl
      rw [hkey] at hsign
      exact absurd hsign (head?_key_column hfree')
  | column path =>
    cases r' with
    | localVariable name' =>
      have hsign : (localVariable name').key.toList.head? = some '@' := hsigned' name' rfl
      rw [← hkey] at hsign
      exact absurd hsign (head?_key_column hfree)
    | column path' =>
      have hpath := pieces_eq hkey hne
      rw [pieces_of_undotted hfree, pieces_of_undotted hfree'] at hpath
      rw [(List.map_inj_right fun _ _ => String.toList_inj.mp).mp hpath]

end

end Referent

/-! ## Keys of expressions -/

namespace Expr

def referent? (e : Expr) : Option Referent :=
  match e.unwrap.kind with
  | .localVariable name => some (.localVariable name.value)
  | .column parts => some (.column (parts.map Ident.value))
  | _ => none

/-- Only variables and columns have keys, and no key is empty. -/
theorem key?_eq_some_iff {e : Expr} {key : String} :
    e.key? = some key ↔ ∃ r, e.referent? = some r ∧ r.key = key ∧ key ≠ "" := by
  have hnonempty : ∀ text : String, key?.nonempty text = some key ↔ text = key ∧ key ≠ "" := by
    intro text
    rw [key?.nonempty, Option.ite_none_left_eq_some, Option.some_inj]
    constructor
    · rintro ⟨hne, rfl⟩
      exact ⟨rfl, hne⟩
    · rintro ⟨rfl, hne⟩
      exact ⟨hne, rfl⟩
  unfold key? referent?
  cases e.unwrap.kind with
  | localVariable name => simp [hnonempty, Referent.key]
  | column parts => simp [hnonempty, Referent.key]
  | _ => simp

theorem variableName?_of_referent? {e : Expr} {name : String} (h : e.referent? = some (.localVariable name)) :
    ∃ x ∈ e.unwrap.kind.variableName?, x.value = name := by
  unfold referent? at h
  split at h
  · rename_i x hkind
    cases h
    exact ⟨x, by rw [hkind]; rfl, rfl⟩
  · cases h
  · cases h

/-- Two expressions that refer to `r` and `r'` and have one key. These are the same if the numbers of periods inside
their parts are, and only then; so they are if neither is a column with such a period or with the sign of a
variable. -/
structure KeyedAlike (e e' : Expr) (r r' : Referent) : Prop where
  left : e.referent? = some r
  right : e'.referent? = some r'
  key_eq : r.key = r'.key
  eq_iff : r = r' ↔ r.dots = r'.dots
  eq_of_free : r.isFreeOfDotsAndSign = true → r'.isFreeOfDotsAndSign = true → r = r'

end Expr

/-! ## Guarded conversions -/

namespace Expr

theorem reaches_guardArgument {e argument : Expr} (h : e.guardArgument? = some argument) :
    (Node.expr e).Reaches (.expr argument) := by
  unfold guardArgument? at h
  split at h
  · obtain ⟨-, h⟩ := Option.ite_none_right_eq_some.mp h
    cases h
    exact .child .refl (Node.mem_children.mpr (by simp [Node.parts, ExprKind.parts]))
  · cases h

theorem reaches_converted {e operand : Expr} {function : ConversionFunction}
    (h : e.conversion? = some (function, operand)) :
    (Node.expr e).Reaches (.expr operand) := by
  unfold conversion? at h
  split at h
  · rename_i hkind
    cases h
    refine e.reaches_unwrap.trans (.child .refl (Node.mem_children.mpr ?_))
    simp [Node.parts, hkind, ExprKind.parts]
  · cases h

end Expr

namespace WhenClause

/-- The argument of the first guard in the condition, and the operand that the result converts. -/
def guardedOperands? (w : WhenClause) : Option (Expr × Expr) :=
  (Node.find? (fun
    | .expr inner => inner.guardArgument?
    | _ => none) (.expr w.condition)).bind fun guarded =>
      w.result.conversion?.bind fun (function, operand) => if function.isTry then none else some (guarded, operand)

theorem convertsGuarded_iff {w : WhenClause} : w.convertsGuarded = true ↔
    ∃ guarded operand key, w.guardedOperands? = some (guarded, operand) ∧ guarded.key? = some key ∧
      operand.key? = some key := by
  unfold convertsGuarded guardedOperands? Expr.guardedKey? Expr.convertsKey
  cases Node.find? _ (.expr w.condition) with
  | none => simp
  | some guarded =>
    cases w.result.conversion? with
    | none => simp
    | some conversion =>
      obtain ⟨function, operand⟩ := conversion
      cases htry : function.isTry <;> simp [Option.any_eq_true, htry]

/-- The guarded and the converted operand are below the branch. -/
theorem reaches_guardedOperands {w : WhenClause} {guarded operand : Expr}
    (h : w.guardedOperands? = some (guarded, operand)) :
    (Node.whenClause w).Reaches (.expr guarded) ∧ (Node.whenClause w).Reaches (.expr operand) := by
  obtain ⟨guarded, hguarded, h⟩ := Option.bind_eq_some_iff.mp h
  obtain ⟨⟨function, operand⟩, hoperand, h⟩ := Option.bind_eq_some_iff.mp h
  obtain ⟨-, h⟩ := Option.ite_none_left_eq_some.mp h
  cases h
  constructor
  · rw [Node.find?_eq] at hguarded
    obtain ⟨n, hn, hargument⟩ := List.exists_of_findSome?_eq_some hguarded
    have hcondition : (Node.whenClause w).Reaches n :=
      .trans (.child .refl (Node.mem_children.mpr (by simp [Node.parts]))) (Node.mem_preorder.mp hn)
    split at hargument
    · exact hcondition.trans (Expr.reaches_guardArgument hargument)
    · cases hargument
  · have hresult : (Node.whenClause w).Reaches (.expr w.result) :=
      .child .refl (Node.mem_children.mpr (by simp [Node.parts]))
    exact hresult.trans (Expr.reaches_converted hoperand)

end WhenClause

def Node.key? : Node → Option String
  | .expr e => e.key?
  | _ => none

def Node.referent? : Node → Option Referent
  | .expr e => e.referent?
  | _ => none

namespace Document

section
variable {sql : String} {d : Document} (h : parse sql = .ok d)
include h

theorem signed_of_mem {e : Expr} (he : .expr e ∈ d.nodes) {r : Referent} (hr : e.referent? = some r) :
    r.Signed := by
  rintro name rfl
  have hmem : .expr e.unwrap ∈ d.nodes := Node.mem_preorder.mpr ((Node.mem_preorder.mp he).trans e.reaches_unwrap)
  have hproper : e.unwrap.Proper d.terminals := proper_of_mem h hmem
  obtain ⟨x, hx, rfl⟩ := Expr.variableName?_of_referent? hr
  obtain ⟨pos, pos', hread⟩ := hproper.variableName x hx
  obtain ⟨t, ht, hkind, hvalue, -⟩ := Grammar.variableName_ok hread
  obtain ⟨terminal, hterminal, rfl⟩ := Option.map_eq_some_iff.mp ht
  obtain ⟨hmem, -⟩ := Terminals.mem_ofTokens.mp (Array.mem_toList_iff.mpr (Array.mem_of_getElem? hterminal))
  rw [hvalue]
  exact head?_of_localVariable (parse_ok h).1 (List.mem_of_getElem? hmem) hkind

theorem keyedAlike {sql' : String} {d' : Document} (h' : parse sql' = .ok d') {e e' : Expr}
    (he : .expr e ∈ d.nodes)
    (he' : .expr e' ∈ d'.nodes) {key : String} (hkey : e.key? = some key) (hkey' : e'.key? = some key) :
    ∃ r r', e.KeyedAlike e' r r' := by
  obtain ⟨r, hr, rfl, hne⟩ := Expr.key?_eq_some_iff.mp hkey
  obtain ⟨r', hr', hsame, -⟩ := Expr.key?_eq_some_iff.mp hkey'
  exact ⟨r, r', hr, hr', hsame.symm, Referent.eq_iff_dots hsame.symm hne,
    Referent.eq_of_free hsame.symm hne (signed_of_mem h he hr) (signed_of_mem h' he' hr')⟩

end

/-- One key does not always mean one value. Two expressions of documents that have one key refer to the same
variable or the same column path if and only if both are variables, or both are columns whose parts hold as many
periods; so they always do if no part of a column holds a period and its path does not begin as variables do. A
reported `CASE` has a branch that converts an operand with the key of the operand that it guards, to which the same
applies. -/
theorem guardKeys_alike {sql : String} {d : Document} (h : parse sql = .ok d) :
    (∀ sql' d', parse sql' = .ok d' → ∀ e e' key, .expr e ∈ d.nodes → .expr e' ∈ d'.nodes →
      e.key? = some key → e'.key? = some key → ∃ r r', e.KeyedAlike e' r r') ∧
    ∀ place ∈ Rule.guardedConversion.locations d, ∃ branches otherwise span, place = span.start ∧
      .expr ⟨.choice none branches otherwise, span⟩ ∈ d.nodes ∧ ∃ w ∈ branches, ∃ guarded operand,
        w.guardedOperands? = some (guarded, operand) ∧ .expr guarded ∈ d.nodes ∧ .expr operand ∈ d.nodes ∧
        ∃ r r', guarded.KeyedAlike operand r r' := by
  refine ⟨fun sql' d' h' e e' key he he' hkey hkey' => keyedAlike h h' he he' hkey hkey',
    fun place hplace => ?_⟩
  obtain ⟨n, hn, hplace⟩ := List.mem_filterMap.mp hplace
  unfold Node.guardedConversion? at hplace
  split at hplace
  · rename_i branches otherwise span
    obtain ⟨hany, hplace⟩ := Option.ite_none_right_eq_some.mp hplace
    cases hplace
    obtain ⟨w, hw, hconverts⟩ := List.any_eq_true.mp hany
    obtain ⟨guarded, operand, key, hoperands, hkey, hkey'⟩ := WhenClause.convertsGuarded_iff.mp hconverts
    obtain ⟨hguarded, hoperand⟩ := WhenClause.reaches_guardedOperands hoperands
    have hbranch : d.root.Reaches (.whenClause w) := by
      refine (Node.mem_preorder.mp hn).trans (.child .refl (Node.mem_children.mpr ?_))
      simp [Node.parts, ExprKind.parts, hw]
    have hguarded : .expr guarded ∈ d.nodes := Node.mem_preorder.mpr (hbranch.trans hguarded)
    have hoperand : .expr operand ∈ d.nodes := Node.mem_preorder.mpr (hbranch.trans hoperand)
    exact ⟨branches, otherwise, span, rfl, hn, w, hw, guarded, operand, hoperands, hguarded, hoperand,
      keyedAlike h h hguarded hoperand hkey hkey'⟩
  · cases hplace

/-- A guard on a column and the conversion of a variable have one key, and the `CASE` is reported. -/
theorem guardKeys_collide :
    ∃ d, parse "SELECT CASE WHEN ISNUMERIC([@x]) = 1 THEN CONVERT(INT, @x) END" = .ok d ∧
      (d.nodes.filterMap Node.referent?) = [.column ["@x"], .localVariable "@x"] ∧
      (d.nodes.filterMap Node.key?) = ["@x", "@x"] ∧ Rule.guardedConversion.locations d = [⟨1, 8⟩] := by
  obtain ⟨d, hd, hfacts⟩ :
      ∃ d ∈ (parse "SELECT CASE WHEN ISNUMERIC([@x]) = 1 THEN CONVERT(INT, @x) END").toOption,
        (d.nodes.filterMap Node.referent?) = [.column ["@x"], .localVariable "@x"] ∧
        (d.nodes.filterMap Node.key?) = ["@x", "@x"] ∧ Rule.guardedConversion.locations d = [⟨1, 8⟩] := by
    decide +kernel
  exact ⟨d, eq_ok_of_mem_toOption hd, hfacts⟩

/-- Delimiters and parentheses make no difference. -/
theorem guardKeys_alike_delimited :
    ∃ d, parse "SELECT CASE WHEN ISNUMERIC([t].x) = 1 THEN CAST((t.[x]) AS INT) END" = .ok d ∧
    Rule.guardedConversion.locations d = [⟨1, 8⟩] ∧ ∃ branches otherwise span,
      .expr ⟨.choice none branches otherwise, span⟩ ∈ d.nodes ∧ ∃ w ∈ branches, ∃ guarded operand r,
        w.guardedOperands? = some (guarded, operand) ∧ guarded.referent? = some r ∧
          operand.referent? = some r := by
  obtain ⟨d, hd, hplaces, hfree⟩ : ∃ d ∈ (parse
      "SELECT CASE WHEN ISNUMERIC([t].x) = 1 THEN CAST((t.[x]) AS INT) END").toOption,
      Rule.guardedConversion.locations d = [⟨1, 8⟩] ∧ ∀ r ∈ d.nodes.filterMap Node.referent?,
      r.isFreeOfDotsAndSign = true := by
    decide +kernel
  have hd := eq_ok_of_mem_toOption hd
  have hmem : ⟨1, 8⟩ ∈ Rule.guardedConversion.locations d := by rw [hplaces]; exact List.mem_singleton.mpr rfl
  obtain ⟨branches, otherwise, span, -, hcase, w, hw, guarded, operand, hoperands, hguarded, hoperand, r,
      r', halike⟩ :=
    (guardKeys_alike hd).2 _ hmem
  have hr := hfree r (List.mem_filterMap.mpr ⟨_, hguarded, halike.left⟩)
  have hr' := hfree r' (List.mem_filterMap.mpr ⟨_, hoperand, halike.right⟩)
  obtain rfl := halike.eq_of_free hr hr'
  exact ⟨d, hd, hplaces, branches, otherwise, span, hcase, w, hw, guarded, operand, r, hoperands, halike.left,
    halike.right⟩

end Document

end TransactLint
