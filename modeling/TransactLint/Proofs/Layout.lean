import Mathlib.Data.List.Perm.Subperm
import TransactLint.Grammar.Terminals
import TransactLint.Node.Basic

/-!
# Layout of nodes

A node stands at a run of terminals: its span is the span of that run, and its constituents stand inside it
one after another in some order. A layout says which nodes stand among some terminals, and whether
there are any terminals.
-/

namespace TransactLint

/-! ## Constituents -/

def ExprKind.constituents : ExprKind → List Node
  | .localVariable name => [.ident name]
  | k => k.parts

/-- The nodes whose spans a node holds. They are its parts and the name of a variable, which no walk visits. -/
def Node.constituents : Node → List Node
  | .expr x => x.kind.constituents
  | n => n.parts

/-- The parts that stand behind the first terminal of an expression: all but its names and its operands. -/
def ExprKind.enclosed : ExprKind → List Node
  | .column _ | .binary _ _ _ | .between _ _ _ _ | .like _ _ _ _ | .isNull _ _ => []
  | .call _ _ arguments withinGroup window =>
    arguments.map .expr ++ withinGroup.map .orderItem ++ window.toList.map .window
  | .inList _ list _ => list.map .expr
  | .inSubquery _ query _ => [.query query]
  | k => k.parts

theorem ExprKind.parts_sublist (k : ExprKind) : k.parts.Sublist k.constituents := by
  cases k with
  | localVariable name => exact List.nil_sublist _
  | _ => exact .refl _

theorem ExprKind.enclosed_sublist (k : ExprKind) : k.enclosed.Sublist k.parts := by
  cases k with
  | column parts => exact List.nil_sublist _
  | binary op left right => exact List.nil_sublist _
  | between operand low high negated => exact List.nil_sublist _
  | like operand pattern escape negated => exact List.nil_sublist _
  | isNull operand negated => exact List.nil_sublist _
  | call name distinct arguments withinGroup window => exact List.sublist_cons_self _ _
  | inList operand list negated => exact List.sublist_cons_self _ _
  | inSubquery operand query negated => exact List.sublist_cons_self _ _
  | _ => exact .refl _

theorem Node.parts_sublist (n : Node) : n.parts.Sublist n.constituents := by
  cases n with
  | expr x => exact x.kind.parts_sublist
  | _ => exact .refl _

theorem ExprKind.constituents_eq {k : ExprKind} (h : k.parts ≠ []) : k.constituents = k.parts := by
  cases k with
  | localVariable name => exact absurd rfl h
  | _ => rfl

theorem Node.constituents_eq {n : Node} (h : n.parts ≠ []) : n.constituents = n.parts := by
  cases n with
  | expr x => exact ExprKind.constituents_eq h
  | _ => rfl

/-! ## Nodes and terminals -/

mutual

/-- The node stands at the terminals from `a` to before `b`. -/
inductive Stands (ts : Terminals) : Node → Nat → Nat → Prop
  | intro {n : Node} {ns : List Node} {a b : Nat} (hab : a < b) (hspan : n.span = ts.span a b)
      (horder : ns.Perm n.constituents) (hrow : Row ts ns a b) : Stands ts n a b

/-- The nodes stand one after another among the terminals from `a` to before `b`. -/
inductive Row (ts : Terminals) : List Node → Nat → Nat → Prop
  | nil {a b : Nat} (hab : a ≤ b) (hb : b ≤ ts.size) : Row ts [] a b
  | cons {n : Node} {ns : List Node} {a i j b : Nat} (hi : a ≤ i) (hn : Stands ts n i j)
      (hns : Row ts ns j b) : Row ts (n :: ns) a b

end

section
variable {ts : Terminals}

theorem Stands.lt {n : Node} {a b : Nat} : Stands ts n a b → a < b
  | .intro hab _ _ _ => hab

theorem Stands.span_eq {n : Node} {a b : Nat} : Stands ts n a b → n.span = ts.span a b
  | .intro _ hspan _ _ => hspan

namespace Row

theorem le {ns : List Node} {a b : Nat} (h : Row ts ns a b) : a ≤ b ∧ b ≤ ts.size := by
  induction ns generalizing a with
  | nil =>
    cases h with
    | nil hab hb => exact ⟨hab, hb⟩
  | cons n ns ih =>
    cases h with
    | cons hi hn hns =>
      have := hn.lt
      have := ih hns
      omega

theorem lt_of_ne_nil {ns : List Node} {a b : Nat} (h : Row ts ns a b) (hne : ns ≠ []) : a < b := by
  cases h with
  | nil => exact absurd rfl hne
  | cons hi hn hns =>
    have := hn.lt
    have := hns.le
    omega

theorem widen {ns : List Node} {a a' b : Nat} (h : Row ts ns a b) (ha : a' ≤ a) : Row ts ns a' b := by
  cases h with
  | nil hab hb => exact .nil (Nat.le_trans ha hab) hb
  | cons hi hn hns => exact .cons (Nat.le_trans ha hi) hn hns

theorem append {ms ns : List Node} {a b c : Nat} (hms : Row ts ms a b) (hns : Row ts ns b c) :
    Row ts (ms ++ ns) a c := by
  induction ms generalizing a with
  | nil => exact hns.widen hms.le.1
  | cons m ms ih =>
    cases hms with
    | cons hi hm hms => exact .cons hi hm (ih hms)

theorem singleton {n : Node} {a b : Nat} (h : Stands ts n a b) (hb : b ≤ ts.size) : Row ts [n] a b :=
  .cons (Nat.le_refl a) h (.nil (Nat.le_refl b) hb)

theorem sublist {ms ns : List Node} {a b : Nat} (h : Row ts ns a b) (hs : ms.Sublist ns) :
    Row ts ms a b := by
  induction hs generalizing a with
  | slnil => exact h
  | cons n _ ih =>
    cases h with
    | cons hi hn hns => exact (ih hns).widen (Nat.le_trans hi (Nat.le_of_lt hn.lt))
  | cons_cons n _ ih =>
    cases h with
    | cons hi hn hns => exact .cons hi hn (ih hns)

theorem stands {ns : List Node} {a b : Nat} (h : Row ts ns a b) {n : Node} (hn : n ∈ ns) :
    ∃ i j, a ≤ i ∧ j ≤ b ∧ Stands ts n i j := by
  induction ns generalizing a with
  | nil => cases hn
  | cons m ns ih =>
    cases h with
    | @cons _ _ _ i j _ hi hm hns =>
      have hle := hns.le
      rcases List.mem_cons.mp hn with rfl | hmem
      · exact ⟨i, j, hi, hle.1, hm⟩
      · obtain ⟨k, l, hk, hl, hn⟩ := ih hns hmem
        have := hm.lt
        exact ⟨k, l, by omega, hl, hn⟩

end Row

/-- The parts of a node stand where it does. -/
theorem Stands.parts {n : Node} {a b : Nat} (h : Stands ts n a b) : ∃ ns, ns.Perm n.parts ∧ Row ts ns a b := by
  cases h with
  | intro hab hspan horder hrow =>
    obtain ⟨ms, hms, hsub⟩ := n.parts_sublist.subperm.trans horder.symm.subperm
    exact ⟨ms, hms, hrow.sublist hsub⟩

end

/-! ## Layouts -/

/-- What is known of the terminals that have been read: the nodes that stand there, and whether there
are any terminals at all. -/
structure Layout where
  moved : Bool
  nodes : List Node

namespace Layout

def none : Layout := ⟨false, []⟩

def read : Layout := ⟨true, []⟩

def node (n : Node) : Layout := ⟨true, [n]⟩

def ofNodes (ns : List Node) : Layout := ⟨false, ns⟩

instance : Append Layout where
  append K L := ⟨K.moved || L.moved, K.nodes ++ L.nodes⟩

@[simp]
theorem append_moved (K L : Layout) : (K ++ L).moved = (K.moved || L.moved) := rfl

@[simp]
theorem append_nodes (K L : Layout) : (K ++ L).nodes = K.nodes ++ L.nodes := rfl

@[simp]
theorem none_moved : none.moved = false := rfl

@[simp]
theorem none_nodes : none.nodes = [] := rfl

@[simp]
theorem read_moved : read.moved = true := rfl

@[simp]
theorem read_nodes : read.nodes = [] := rfl

@[simp]
theorem node_moved (n : Node) : (node n).moved = true := rfl

@[simp]
theorem node_nodes (n : Node) : (node n).nodes = [n] := rfl

@[simp]
theorem ofNodes_moved (ns : List Node) : (ofNodes ns).moved = false := rfl

@[simp]
theorem ofNodes_nodes (ns : List Node) : (ofNodes ns).nodes = ns := rfl

/-- Where `K` is, so is `L`: it may forget nodes and name them in another order. -/
structure Entails (K L : Layout) : Prop where
  nodes : L.nodes.Subperm K.nodes
  moved : L.moved = true → K.moved = true ∨ K.nodes ≠ []

theorem Entails.of_perm {K L : Layout} (h : L.nodes.Perm K.nodes) (hm : L.moved = true → K.moved = true) :
    K.Entails L :=
  ⟨h.subperm, fun h => Or.inl (hm h)⟩

theorem Entails.of_eq {K L : Layout} (h : L.nodes = K.nodes) (hm : L.moved = true → K.moved = true) :
    K.Entails L :=
  .of_perm (h ▸ .refl _) hm

structure Fits (ts : Terminals) (L : Layout) (a b : Nat) : Prop where
  row : ∃ ns : List Node, ns.Perm L.nodes ∧ Row ts ns a b
  lt : L.moved = true → a < b

section
variable {ts : Terminals}

@[refl]
theorem Entails.refl (L : Layout) : L.Entails L := .of_eq rfl id

theorem Fits.le {L : Layout} {a b : Nat} (h : L.Fits ts a b) : a ≤ b ∧ b ≤ ts.size :=
  let ⟨_, _, hrow⟩ := h.row
  hrow.le

theorem Fits.entails {K L : Layout} {a b : Nat} (h : K.Fits ts a b) (hKL : K.Entails L) :
    L.Fits ts a b := by
  obtain ⟨ns, hperm, hrow⟩ := h.row
  refine ⟨?_, fun hm => ?_⟩
  · obtain ⟨ms, hms, hsub⟩ := hKL.nodes.trans hperm.symm.subperm
    exact ⟨ms, hms, hrow.sublist hsub⟩
  · rcases hKL.moved hm with h' | h'
    · exact h.lt h'
    · exact hrow.lt_of_ne_nil fun hnil => h' (List.nil_perm.mp (hnil ▸ hperm))

theorem Fits.widen {L : Layout} {a a' b : Nat} (h : L.Fits ts a b) (ha : a' ≤ a) : L.Fits ts a' b := by
  obtain ⟨ns, hperm, hrow⟩ := h.row
  exact ⟨⟨ns, hperm, hrow.widen ha⟩, fun hm => Nat.lt_of_le_of_lt ha (h.lt hm)⟩

theorem Fits.append {K L : Layout} {a b c : Nat} (hK : K.Fits ts a b) (hL : L.Fits ts b c) :
    (K ++ L).Fits ts a c := by
  obtain ⟨ms, hms, hrow⟩ := hK.row
  obtain ⟨ns, hns, hrow'⟩ := hL.row
  refine ⟨⟨ms ++ ns, hms.append hns, hrow.append hrow'⟩, fun hm => ?_⟩
  have hab := hrow.le
  have hbc := hrow'.le
  rcases Bool.or_eq_true_iff.mp hm with h | h
  · have := hK.lt h
    omega
  · have := hL.lt h
    omega

theorem Fits.none {a b : Nat} (hab : a ≤ b) (hb : b ≤ ts.size) : Layout.none.Fits ts a b :=
  ⟨⟨[], .refl _, .nil hab hb⟩, fun h => absurd h Bool.false_ne_true⟩

theorem Fits.read {a b : Nat} (hab : a < b) (hb : b ≤ ts.size) : Layout.read.Fits ts a b :=
  ⟨⟨[], .refl _, .nil (Nat.le_of_lt hab) hb⟩, fun _ => hab⟩

/-- Nodes that fit make up a node with these constituents. -/
theorem Fits.stands {L : Layout} {n : Node} {a b : Nat} (h : L.Fits ts a b)
    (hparts : L.Entails ⟨true, n.constituents⟩) (hspan : n.span = ts.span a b) : Stands ts n a b := by
  have hfits := h.entails hparts
  obtain ⟨ns, hperm, hrow⟩ := hfits.row
  exact .intro (hfits.lt rfl) hspan hperm hrow

theorem Fits.stands_of_mem {L : Layout} {n : Node} {a b : Nat} (h : L.Fits ts a b) (hn : n ∈ L.nodes) :
    ∃ i j, a ≤ i ∧ j ≤ b ∧ Stands ts n i j := by
  obtain ⟨ns, hperm, hrow⟩ := h.row
  exact hrow.stands (hperm.mem_iff.mpr hn)

/-- The parts of a node stand where it does. -/
theorem Fits.parts {n : Node} {a b : Nat} (h : (Layout.node n).Fits ts a b) :
    (Layout.mk true n.parts).Fits ts a b := by
  obtain ⟨ns, hperm, hrow⟩ := h.row
  cases List.perm_singleton.mp hperm
  cases hrow with
  | cons hi hn hnil =>
    obtain ⟨parts, horder, hrow⟩ := hn.parts
    exact ⟨⟨_, by simpa using horder, (hrow.widen hi).append hnil⟩, fun _ => h.lt rfl⟩

/-- A node whose only part has the same span stands where that part does. -/
theorem Fits.wrap {m n : Node} {a b : Nat} (h : (Layout.node m).Fits ts a b) (hspan : n.span = m.span)
    (hparts : n.parts = [m]) : (Layout.node n).Fits ts a b := by
  obtain ⟨ns, hperm, hrow⟩ := h.row
  cases List.perm_singleton.mp hperm
  cases hrow with
  | cons hi hm hnil =>
    have hle := hnil.le
    have hall : n.constituents = [m] := (Node.constituents_eq (by simp [hparts])).trans hparts
    have hn : Stands ts n _ _ := .intro hm.lt (hspan.trans hm.span_eq) (hall ▸ .refl [m])
      (.singleton hm (Nat.le_trans hle.1 hle.2))
    exact ⟨⟨[n], .refl _, .cons hi hn hnil⟩, h.lt⟩

theorem Stands.fits {n : Node} {a b : Nat} (h : Stands ts n a b) (hb : b ≤ ts.size) :
    (Layout.node n).Fits ts a b :=
  ⟨⟨[n], .refl _, .singleton h hb⟩, fun _ => h.lt⟩

end

end Layout

end TransactLint
