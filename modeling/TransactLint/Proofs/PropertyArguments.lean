import Mathlib.Data.List.Find
import Mathlib.Data.List.Pairwise
import TransactLint.Proofs.Spelling
import TransactLint.Rule.Description

/-!
# The arguments of extended property calls

What a call describes does not depend on whether its arguments are given by name or by position, nor on the order of
the arguments with a name. A name is looked up in lower case and with one sign at the front, so names that are the
same up to that are one parameter.
-/

namespace TransactLint

/-! ## Lower case of names -/

namespace Text

theorem toLower_toUpper (c : Char) : c.toUpper.toLower = c.toLower := by
  rcases toUpper_cases c with ⟨hlow, hhigh, -⟩ | ⟨-, hsame⟩
  · have hletters : ∀ n < 123, 97 ≤ n → (Char.ofNat n).toUpper.toLower = (Char.ofNat n).toLower := by decide
    have hc := hletters c.toNat (by omega) hlow
    rwa [Char.ofNat_toNat] at hc
  · rw [hsame]

theorem toUpper_lt {c : Char} : c.toUpper.toNat < 0x80 ↔ c.toNat < 0x80 := by
  rcases toUpper_cases c with ⟨hlow, hhigh, hupper⟩ | ⟨-, hsame⟩
  · omega
  · rw [hsame]

/-- The case of ASCII letters is lost in lower case. -/
theorem lowerFrom_of_upperAscii {word : List Char} (hword : ∀ c ∈ word, c.toNat < 0x80) {cs : List Char}
    (h : upperAscii cs = upperAscii word) (before : List Char) : lowerFrom before cs = word.map Char.toLower := by
  induction cs generalizing word before with
  | nil =>
    obtain rfl := List.map_eq_nil_iff.mp h.symm
    rfl
  | cons c cs ih =>
    cases word with
    | nil => cases h
    | cons d word =>
      obtain ⟨hhead, htail⟩ := List.cons.inj h
      have hd : d.toNat < 0x80 := hword d List.mem_cons_self
      have hc : c.toNat < 0x80 := by rwa [← toUpper_lt, hhead, toUpper_lt]
      have hsigma : c ≠ 'Σ' := by
        rintro rfl
        exact absurd hc (by decide)
      rw [lowerFrom, if_neg hsigma, lowerChar, if_pos hc, ← toLower_toUpper, hhead, toLower_toUpper,
        ih (fun x hx => hword x (List.mem_cons_of_mem d hx)) htail]
      rfl

theorem toUpper_eq_sign (c : Char) : c.toUpper = '@' ↔ c = '@' := by
  rcases toUpper_cases c with ⟨hlow, hhigh, hupper⟩ | ⟨-, hsame⟩
  · constructor
    · intro h
      rw [h] at hupper
      have : ('@' : Char).toNat = 64 := rfl
      omega
    · rintro rfl
      rfl
  · rw [hsame]

theorem upperAscii_dropWhile_sign (cs : List Char) :
    upperAscii (cs.dropWhile (· = '@')) = (upperAscii cs).dropWhile (· = '@') := by
  rw [upperAscii, upperAscii, List.dropWhile_map]
  simp only [Function.comp_def, toUpper_eq_sign]

/-- The sign `@` is not part of a word. -/
theorem meetsCased_sign (before : List Char) : meetsCased (before ++ ['@']) = meetsCased before := by
  have hsign : isCaseIgnorable '@' = false ∧ isCased '@' = false := by decide +kernel
  rw [meetsCased, meetsCased, List.dropWhile_append]
  cases hrest : before.dropWhile isCaseIgnorable with
  | nil => simp [hsign]
  | cons c cs => simp

theorem lowerFrom_sign (before cs : List Char) : lowerFrom (before ++ ['@']) cs = lowerFrom before cs := by
  induction cs generalizing before with
  | nil => rfl
  | cons c cs ih => rw [lowerFrom, lowerFrom, ← List.cons_append, ih, lowerSigma, lowerSigma, meetsCased_sign]

theorem lower_sign (cs : List Char) : lower ('@' :: cs) = '@' :: lower cs :=
  congrArg ('@' :: ·) (lowerFrom_sign [] cs)

end Text

namespace PropertyCall

/-! ## Names of parameters -/

/-- The parameters of the procedures, in the order of their positions. -/
def parameters : List String := ["@name", "@value", "@level0type", "@level0name", "@level1type", "@level1name"]

/-- The names are the same up to case, whatever the number of signs before them. -/
def SameParameter (a b : Ident) : Prop :=
  Text.lower (a.value.toList.dropWhile (· = '@')) = Text.lower (b.value.toList.dropWhile (· = '@'))

theorem argumentKey_eq_iff {a b : Ident} : argumentKey a = argumentKey b ↔ SameParameter a b := by
  rw [argumentKey, argumentKey, Text.lower_sign, Text.lower_sign, String.ofList_inj, List.cons_inj_right]
  rfl

/-- A parameter is looked up as it is written, in whatever case. -/
theorem argumentKey_of_parameter {p : String} (hp : p ∈ parameters) {name : Ident}
    (h : Text.sameIgnoringCase p.toList name.value.toList = true) : argumentKey name = p := by
  have hparameters : ∀ p ∈ parameters, (p.toList.dropWhile (· = '@')).all (fun c => c.toNat < 0x80) = true ∧
      String.ofList ('@' :: (p.toList.dropWhile (· = '@')).map Char.toLower) = p := by
    decide +kernel
  obtain ⟨hall, hlower⟩ := hparameters p hp
  have hascii : ∀ c ∈ p.toList.dropWhile (· = '@'), c.toNat < 0x80 := by simpa using hall
  have hupper : Text.upperAscii (name.value.toList.dropWhile (· = '@')) =
      Text.upperAscii (p.toList.dropWhile (· = '@')) := by
    rw [Text.upperAscii_dropWhile_sign, Text.upperAscii_dropWhile_sign, ← beq_iff_eq.mp h]
  rw [argumentKey, Text.lower_sign, Text.lower, Text.lowerFrom_of_upperAscii hascii hupper, hlower]

/-! ## Looking up arguments -/

def Distinct (arguments : List Argument) : Prop :=
  (arguments.filterMap Argument.name).Pairwise fun a b => ¬ SameParameter a b

def hasKey (key : String) (a : Argument) : Bool := a.name.any fun name => argumentKey name == key

theorem hasKey_iff {key : String} {a : Argument} : hasKey key a = true ↔ ∃ name, a.name = some name ∧
    argumentKey name = key := by
  simp [hasKey, Option.any_eq_true]

section
variable {arguments arguments' : List Argument} (hdistinct : Distinct arguments)
include hdistinct

theorem Distinct.eq_of_hasKey {key : String} {a b : Argument} (ha : a ∈ arguments) (hb : b ∈ arguments)
    (hakey : hasKey key a = true) (hbkey : hasKey key b = true) : a = b := by
  by_contra hne
  obtain ⟨x, hx, hxkey⟩ := hasKey_iff.mp hakey
  obtain ⟨y, hy, hykey⟩ := hasKey_iff.mp hbkey
  have hpairs := List.pairwise_filterMap.mp hdistinct
  have hsymm : Std.Symm fun a b : Argument => ∀ x, a.name = some x → ∀ y, b.name = some y →
      ¬ SameParameter x y :=
    ⟨fun _ _ h y hy x hx hsame => h x hx y hy hsame.symm⟩
  exact hpairs.forall ha hb hne x hx y hy (argumentKey_eq_iff.mp (hxkey.trans hykey.symm))

/-- An argument with a name is found by it. -/
theorem Distinct.named?_of_mem {key : String} {a : Argument} (ha : a ∈ arguments) (hkey : hasKey key a = true) :
    named? arguments key = literalText? a.value := by
  have hfind : arguments.reverse.find? (hasKey key) = some a := by
    cases hfound : arguments.reverse.find? (hasKey key) with
    | none => exact absurd hkey (List.find?_eq_none.mp hfound a (List.mem_reverse.mpr ha))
    | some b =>
      have hb : b ∈ arguments := List.mem_reverse.mp (List.mem_of_find?_eq_some hfound)
      rw [hdistinct.eq_of_hasKey hb ha (List.find?_some hfound) hkey]
  change (arguments.reverse.find? (hasKey key)).bind _ = _
  rw [hfind, Option.bind_some]

/-- The order of the arguments does not matter to a name. -/
theorem Distinct.named?_perm (hperm : arguments.Perm arguments') (key : String) :
    named? arguments' key = named? arguments key := by
  have hunique : {a ∈ arguments.reverse | hasKey key a = true}.Subsingleton := by
    rintro a ⟨ha, hakey⟩ b ⟨hb, hbkey⟩
    exact hdistinct.eq_of_hasKey (List.mem_reverse.mp ha) (List.mem_reverse.mp hb) hakey hbkey
  have hreverse : arguments.reverse.Perm arguments'.reverse :=
    (List.reverse_perm arguments).trans (hperm.trans (List.reverse_perm arguments').symm)
  exact congrArg (Option.bind · _) (List.find?_eq_find?_of_perm hreverse hunique).symm

end

/-! ## By name -/

def Names (p : String) (a : Argument) : Prop :=
  ∃ name, a.name = some name ∧ Text.sameIgnoringCase p.toList name.value.toList = true

def ByName (arguments : List Argument) : Prop := List.Forall₂ Names parameters arguments

section
variable {arguments named : List Argument}

theorem keys_of_names {ps : List String} (hps : ps ⊆ parameters) (h : List.Forall₂ Names ps named) :
    (named.filterMap Argument.name).map argumentKey = ps := by
  induction h with
  | nil => rfl
  | cons hnames _ ih =>
    obtain ⟨name, hname, hsame⟩ := hnames
    obtain ⟨hp, hps⟩ := List.cons_subset.mp hps
    rw [List.filterMap_cons_some hname, List.map_cons, argumentKey_of_parameter hp hsame, ih hps]

theorem ByName.distinct (h : ByName named) : Distinct named := by
  have hnodup : parameters.Nodup := by decide
  rw [← keys_of_names (List.Subset.refl _) h] at hnodup
  exact (List.pairwise_map.mp hnodup).imp fun hne hsame => hne (argumentKey_eq_iff.mpr hsame)

theorem Distinct.perm (h : Distinct named) (hperm : arguments.Perm named) : Distinct arguments :=
  ((hperm.filterMap _).pairwise_iff fun hdiffer hsame => hdiffer hsame.symm).mpr h

/-- Each parameter is found with its argument, wherever that stands. -/
theorem Distinct.named?_of_names (hdistinct : Distinct arguments) {ps : List String} (hps : ps ⊆ parameters)
    (hnamed : named ⊆ arguments) (h : List.Forall₂ Names ps named) :
    List.Forall₂ (fun p a => named? arguments p = literalText? a.value) ps named := by
  induction h with
  | nil => exact .nil
  | cons hnames _ ih =>
    obtain ⟨name, hname, hsame⟩ := hnames
    obtain ⟨hp, hps⟩ := List.cons_subset.mp hps
    obtain ⟨ha, hnamed⟩ := List.cons_subset.mp hnamed
    exact .cons (hdistinct.named?_of_mem ha (hasKey_iff.mpr ⟨name, hname, argumentKey_of_parameter hp hsame⟩))
      (ih hps hnamed)

theorem ByName.positional_eq_nil (h : ByName named) (hperm : arguments.Perm named) : positional arguments = [] := by
  have hnone : arguments.filter (fun a => a.name.isNone) = [] := by
    refine List.filter_eq_nil_iff.mpr fun a ha hnone => ?_
    obtain ⟨i, hi, rfl⟩ := List.mem_iff_getElem.mp (hperm.subset ha)
    obtain ⟨name, hname, -⟩ := h.get (h.length_eq ▸ hi) hi
    cases (Option.isNone_iff_eq_none.mp hnone).symm.trans hname
  rw [positional, hnone, List.map_nil]

/-- If nothing is given by position, the names decide: without a usable `@name` nothing is described. -/
theorem describedTable?_of_names (h : positional arguments = []) : describedTable? arguments =
    table? ⟨named? arguments "@name", named? arguments "@level0type", named? arguments "@level0name",
      named? arguments "@level1type", named? arguments "@level1name"⟩ := by
  rw [describedTable?, ofArguments?, h]
  cases named? arguments "@name" <;> rfl

/-! ## By position -/

theorem describedTable?_of_positions {property value level0Type level0Name level1Type level1Name : Option String}
    (hnone : ∀ a ∈ arguments, a.name = none) (h : (arguments.map fun a => literalText? a.value) =
      [property, value, level0Type, level0Name, level1Type, level1Name]) :
    describedTable? arguments = table? ⟨property, level0Type, level0Name, level1Type, level1Name⟩ := by
  have hname : named? arguments "@name" = none := by
    have hfind : arguments.reverse.find? (hasKey "@name") = none := by
      refine List.find?_eq_none.mpr fun a ha hkey => ?_
      rw [hasKey, hnone a (List.mem_reverse.mp ha)] at hkey
      cases hkey
    exact congrArg (Option.bind · _) hfind
  have hpositional : positional arguments = [property, value, level0Type, level0Name, level1Type, level1Name] := by
    rw [positional, List.filter_eq_self.mpr fun a ha => by rw [hnone a ha]; rfl, h]
  rw [describedTable?, ofArguments?, hname, hpositional]
  rfl

/-- Arguments by position and by name agree, whatever the order of the names. -/
theorem ByName.describedTable?_eq {given : List Argument} (h : ByName named)
    (hgiven : ∀ a ∈ given, a.name = none)
    (hvalues : given.map Argument.value = named.map Argument.value) (hperm : arguments.Perm named) :
    describedTable? arguments = describedTable? given := by
  have hlooked := (h.distinct.perm hperm).named?_of_names (List.Subset.refl _) hperm.symm.subset h
  have htexts : (given.map fun a => literalText? a.value) = named.map fun a => literalText? a.value := by
    simpa only [List.map_map, Function.comp_def] using congrArg (List.map literalText?) hvalues
  have hnone := h.positional_eq_nil hperm
  simp only [parameters, List.forall₂_cons_left_iff, List.forall₂_nil_left_iff] at hlooked
  obtain ⟨name, _, hname, ⟨value, _, -, ⟨level0Type, _, hlevel0Type, ⟨level0Name, _, hlevel0Name,
    ⟨level1Type, _, hlevel1Type, ⟨level1Name, _, hlevel1Name, rfl, rfl⟩, rfl⟩, rfl⟩, rfl⟩, rfl⟩,
      rfl⟩ := hlooked
  rw [describedTable?_of_names hnone, describedTable?_of_positions hgiven htexts, hname, hlevel0Type, hlevel0Name,
    hlevel1Type, hlevel1Name]

end

/-! ## Any order -/

theorem Distinct.describedTable?_perm {arguments arguments' : List Argument} (hdistinct : Distinct arguments)
    (hperm : arguments.Perm arguments')
    (hpositions : arguments.filter (fun a => a.name.isNone) = arguments'.filter (fun a => a.name.isNone)) :
    describedTable? arguments' = describedTable? arguments := by
  have hpositional : positional arguments' = positional arguments := by rw [positional, positional, hpositions]
  rw [describedTable?, describedTable?, ofArguments?, ofArguments?, hpositional]
  simp only [hdistinct.named?_perm hperm]

end PropertyCall

open PropertyCall in
/-- A call describes the same table whether its six arguments are given by position or by name, with the names in
any case and any order. In every call, whatever it gives by position and by name, the arguments may be put in any
other order that keeps the order of those by position, if no parameter is named twice. -/
theorem describedTable?_any_order {arguments arguments' : List Argument} :
    (∀ named, ByName named → (∀ a ∈ arguments, a.name = none) →
        arguments.map Argument.value = named.map Argument.value → arguments'.Perm named →
        describedTable? arguments' = describedTable? arguments) ∧
      (Distinct arguments → arguments.Perm arguments' →
        arguments.filter (fun a => a.name.isNone) = arguments'.filter (fun a => a.name.isNone) →
        describedTable? arguments' = describedTable? arguments) :=
  ⟨fun _ hnamed hnone hvalues hperm => hnamed.describedTable?_eq hnone hvalues hperm,
    fun hdistinct hperm hpositions => hdistinct.describedTable?_perm hperm hpositions⟩

open PropertyCall in
/-- The names come last to first, and then with an argument by position, before and after them. -/
theorem describedTable?_any_order_reversed :
    let span : Span := ⟨⟨1, 1⟩, 0, 0, 0, 1⟩
    let text (value : String) : Expr := ⟨.literal .string value, span⟩
    let given (value : String) : Argument := ⟨none, text value, false, span⟩
    let named (name value : String) : Argument := ⟨some ⟨name, none, span⟩, text value, false, span⟩
    let positions := ["ms_description", "about", "SCHEMA", "dbo", "Table", " T "].map given
    let names := [named "@NAME" "ms_description", named "@value" "about", named "@Level0Type" "SCHEMA",
      named "@level0name" "dbo", named "@LEVEL1type" "Table", named "@level1Name" " T "]
    ByName names ∧ describedTable? positions = some ⟨"dbo.t"⟩ ∧
      describedTable? names.reverse = describedTable? positions ∧
      Distinct (given "x" :: names) ∧
        describedTable? (names ++ [given "x"]) = describedTable? (given "x" :: names) := by
  intro span text given named positions names
  have hnamed : ByName names :=
    .cons ⟨_, rfl, by decide +kernel⟩
      (.cons ⟨_, rfl, by decide +kernel⟩ (.cons ⟨_, rfl, by decide +kernel⟩
      (.cons ⟨_, rfl, by decide +kernel⟩
        (.cons ⟨_, rfl, by decide +kernel⟩ (.cons ⟨_, rfl, by decide +kernel⟩ .nil)))))
  have htable : describedTable? positions = some ⟨"dbo.t"⟩ := by decide +kernel
  have hpositions : ∀ a ∈ positions, a.name = none := by simp [positions, given]
  have hdistinct : Distinct (given "x" :: names) := hnamed.distinct
  exact ⟨hnamed, htable, describedTable?_any_order.1 names hnamed hpositions rfl (List.reverse_perm names),
    hdistinct, describedTable?_any_order.2 hdistinct (List.perm_append_singleton _ _).symm rfl⟩

end TransactLint
