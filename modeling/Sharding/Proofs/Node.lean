import Sharding.Node
import Sharding.Proofs.Outcome
import Sharding.Proofs.Text
/-!
# Data nodes as texts and in order

A literal with one point, and something on both sides of it, is read as a node whose display is read
as the same node again. Nodes are ordered by their folded names. Those that are equal in this order
are the same node, and so are those whose names are equal character by character but for the case of
letters.
-/

namespace Sharding

/-! ## Literals -/

theorem Text.not_isBlank_iff {s : String} : ¬isBlank s ↔ ∃ c ∈ s.toList, isSpace c = false := by
  simp [isBlank]

/-- Equal character by character but for the case of letters. -/
def Name.EqualButCase (a b : String) : Prop :=
  List.Forall₂ (fun c d : Char => c.toLower = d.toLower) a.toList b.toList

theorem Name.equalButCase_iff {a b : String} : EqualButCase a b ↔ fold a = fold b := by
  rw [← String.toList_inj, toList_fold, toList_fold, map_eq_map_iff_forall₂, EqualButCase]

namespace Node

open Outcome Text

/-- The only point of the literal stands between these texts. -/
structure Divides (literal left right : String) : Prop where
  joined : literal = left ++ "." ++ right
  left_notMem : '.' ∉ left.toList
  right_notMem : '.' ∉ right.toList

variable {literal left right : String} {node : Node} {fault : Fault}

theorem toList_joined (left right : String) :
    (left ++ "." ++ right).toList = left.toList ++ '.' :: right.toList := by
  rw [String.toList_append, String.toList_append, List.append_assoc]
  rfl

theorem divides_iff : Divides literal left right ↔
    literal.toList.splitOn '.' = [left.toList, right.toList] := by
  rw [splitOn_eq_pair_iff, ← toList_joined, String.toList_inj]
  exact ⟨fun ⟨h, hleft, hright⟩ => ⟨h, hleft, hright⟩, fun ⟨h, hleft, hright⟩ => ⟨h, hleft, hright⟩⟩

theorem Divides.unique {before after : String} (h : Divides literal left right)
    (hother : Divides literal before after) : before = left ∧ after = right := by
  have hsplit := (divides_iff.1 hother).symm.trans (divides_iff.1 h)
  simpa only [List.cons.injEq, String.toList_inj, and_true] using hsplit

theorem count_eq_one_iff (h : literal = left ++ "." ++ right) :
    literal.toList.count '.' = 1 ↔ Divides literal left right := by
  rw [h, toList_joined, List.count_append, List.count_cons_self]
  constructor
  · intro hcount
    exact ⟨rfl, List.count_eq_zero.1 (by omega), List.count_eq_zero.1 (by omega)⟩
  · rintro ⟨_, hleft, hright⟩
    rw [List.count_eq_zero.2 hleft, List.count_eq_zero.2 hright]

theorem exists_joined (h : literal.toList.count '.' = 1) :
    ∃ left right, literal = left ++ "." ++ right := by
  have hmem : '.' ∈ literal.toList := List.count_pos_iff.1 (by omega)
  obtain ⟨before, after, hjoined⟩ := List.append_of_mem hmem
  refine ⟨String.ofList before, String.ofList after, ?_⟩
  rw [← String.toList_inj, toList_joined, String.toList_ofList, String.toList_ofList, hjoined]

theorem Divides.parse_eq_ok_iff (h : Divides literal left right) :
    parse literal = .ok node ↔
      content? left = some node.dataSource ∧ content? right = some node.table := by
  obtain ⟨dataSource, table⟩ := node
  rw [parse, divides_iff.1 h]
  simp only [String.ofList_toList]
  cases content? left with
  | none => simp
  | some l =>
    cases content? right with
    | none => simp
    | some r => simp

theorem parse_eq_error (h : parse literal = .error fault) : fault.kind = .format := by
  unfold parse at h
  split at h
  · split at h
    · cases h
    · cases h
      rfl
  · cases h
    rfl

theorem exists_divides_of_parse (h : parse literal = .ok node) :
    ∃ left right, Divides literal left right := by
  unfold parse at h
  split at h
  · next before after hsplit =>
    refine ⟨String.ofList before, String.ofList after, divides_iff.2 ?_⟩
    rw [String.toList_ofList, String.toList_ofList, hsplit]
  · cases h

theorem exists_parse_iff :
    (∃ node, parse literal = .ok node) ↔ literal.toList.count '.' = 1 ∧
      ∀ left right, literal = left ++ "." ++ right →
        (∃ c ∈ left.toList, isSpace c = false) ∧ ∃ c ∈ right.toList, isSpace c = false := by
  constructor
  · rintro ⟨node, hnode⟩
    obtain ⟨before, after, hdivides⟩ := exists_divides_of_parse hnode
    have hone := (count_eq_one_iff hdivides.joined).2 hdivides
    refine ⟨hone, fun left right hjoined => ?_⟩
    obtain ⟨hleft, hright⟩ := ((count_eq_one_iff hjoined).1 hone).parse_eq_ok_iff.1 hnode
    exact ⟨not_isBlank_iff.1 (content?_eq_some_iff.1 hleft).1,
      not_isBlank_iff.1 (content?_eq_some_iff.1 hright).1⟩
  · rintro ⟨hone, hsides⟩
    obtain ⟨left, right, hjoined⟩ := exists_joined hone
    obtain ⟨hleft, hright⟩ := hsides left right hjoined
    have hdivides := (count_eq_one_iff hjoined).1 hone
    exact ⟨⟨trim left, trim right⟩, hdivides.parse_eq_ok_iff.2
      ⟨content?_eq_some_iff.2 ⟨not_isBlank_iff.2 hleft, rfl⟩,
        content?_eq_some_iff.2 ⟨not_isBlank_iff.2 hright, rfl⟩⟩⟩

/-- The names of a node that is read are the trimmed sides of its literal. -/
theorem parse_sides (h : parse literal = .ok node) (hjoined : literal = left ++ "." ++ right) :
    node = ⟨trim left, trim right⟩ := by
  obtain ⟨before, after, hdivides⟩ := exists_divides_of_parse h
  have hone := (count_eq_one_iff hdivides.joined).2 hdivides
  obtain ⟨hleft, hright⟩ := ((count_eq_one_iff hjoined).1 hone).parse_eq_ok_iff.1 h
  obtain ⟨dataSource, table⟩ := node
  rw [(content?_eq_some_iff.1 hleft).2, (content?_eq_some_iff.1 hright).2]

/-- The names of a node that is read have no point, and are what they are trimmed to. -/
theorem names_of_parse (h : parse literal = .ok node) :
    Divides node.display node.dataSource node.table ∧
      content? node.dataSource = some node.dataSource ∧ content? node.table = some node.table := by
  obtain ⟨left, right, hdivides⟩ := exists_divides_of_parse h
  obtain ⟨hleft, hright⟩ := hdivides.parse_eq_ok_iff.1 h
  have hkept {side name : String} (hside : '.' ∉ side.toList) (hname : content? side = some name) :
      '.' ∉ name.toList ∧ content? name = some name := by
    obtain ⟨htrim, hblank⟩ := trimmed_of_content? hname
    obtain ⟨_, rfl⟩ := content?_eq_some_iff.1 hname
    exact ⟨fun hmem => hside ((trim_sublist side).subset hmem), content?_eq_self htrim hblank⟩
  obtain ⟨hdataSource, hleft⟩ := hkept hdivides.left_notMem hleft
  obtain ⟨htable, hright⟩ := hkept hdivides.right_notMem hright
  exact ⟨⟨rfl, hdataSource, htable⟩, hleft, hright⟩

theorem parse_display (h : parse literal = .ok node) : parse node.display = .ok node := by
  obtain ⟨hdivides, hnames⟩ := names_of_parse h
  exact hdivides.parse_eq_ok_iff.2 hnames

/-- The display is the literal if there is no space around its sides. -/
theorem display_eq_iff (h : parse literal = .ok node) (hjoined : literal = left ++ "." ++ right) :
    node.display = literal ↔ trim left = left ∧ trim right = right := by
  have hsides := parse_sides h hjoined
  constructor
  · intro hdisplay
    have hnames := (names_of_parse h).1
    rw [hdisplay] at hnames
    have hone := (count_eq_one_iff hnames.joined).2 hnames
    obtain ⟨hleft, hright⟩ := hnames.unique ((count_eq_one_iff hjoined).1 hone)
    rw [hsides] at hleft hright
    exact ⟨hleft.symm, hright.symm⟩
  · rintro ⟨hleft, hright⟩
    rw [hsides, hjoined, hleft, hright]
    rfl

/-- What there is to say of a literal and the node that is read from it. -/
structure ReadsBack (literal : String) : Prop where
  /-- There is a node if there is exactly one point with something on both sides of it. -/
  readable : (∃ node, parse literal = .ok node) ↔ literal.toList.count '.' = 1 ∧
    ∀ left right, literal = left ++ "." ++ right →
      (∃ c ∈ left.toList, isSpace c = false) ∧ ∃ c ∈ right.toList, isSpace c = false
  refused : ∀ fault, parse literal = .error fault → fault.kind = .format
  again : ∀ node, parse literal = .ok node → parse node.display = .ok node
  display : ∀ node left right, parse literal = .ok node → literal = left ++ "." ++ right →
    node = ⟨trim left, trim right⟩ ∧
      (node.display = literal ↔ trim left = left ∧ trim right = right)

/-! ## Order -/

/-- By the first name, then by the second. -/
def keyOrder : String × String → String × String → Ordering :=
  compareLex (compareOn (·.1)) (compareOn (·.2))

instance : Std.TransCmp keyOrder :=
  inferInstanceAs (Std.TransCmp (compareLex _ _))

/-- By folded data source, then by folded table. -/
def order (a b : Node) : Ordering :=
  keyOrder a.key b.key

/-- The names of the nodes are equal but for the case of letters. -/
def EqualButCase (a b : Node) : Prop :=
  Name.EqualButCase a.dataSource b.dataSource ∧ Name.EqualButCase a.table b.table

variable {a b c : Node} {nodes others : List Node}

instance : Std.TransCmp order where
  eq_swap {a b} := (Std.OrientedCmp.eq_swap : keyOrder a.key b.key = (keyOrder b.key a.key).swap)
  isLE_trans {a b c} hab hbc := by
    have hkeys : (keyOrder a.key c.key).isLE := Std.TransCmp.isLE_trans hab hbc
    exact hkeys

theorem order_total (a b : Node) : (a.order b).isLE ∨ (b.order a).isLE := by
  rw [(Std.OrientedCmp.eq_swap : b.order a = (a.order b).swap)]
  cases a.order b with
  | lt => exact .inl rfl
  | eq => exact .inl rfl
  | gt => exact .inr rfl

theorem keyOrder_eq_eq_iff {k l : String × String} : keyOrder k l = .eq ↔ k = l := by
  rw [keyOrder, compareLex_eq_eq, Prod.ext_iff]
  simp only [compareOn, Std.LawfulEqOrd.compare_eq_iff_eq]

theorem equalButCase_iff : a.EqualButCase b ↔ a.key = b.key := by
  rw [EqualButCase, Name.equalButCase_iff, Name.equalButCase_iff, Prod.ext_iff]
  rfl

theorem same_iff : a.same b ↔ a.key = b.key := by
  rw [same, beq_iff_eq]

theorem isLE_compare_iff {s t : String} : (compare s t).isLE ↔ s ≤ t :=
  isLE_compareOfLessAndEq String.le_antisymm String.not_le String.le_total

theorem compare_eq_lt_iff {s t : String} : compare s t = .lt ↔ s < t :=
  compareOfLessAndEq_eq_lt

/-- The order of the sort. -/
theorem atMost_eq_isLE (a b : Node) : a.atMost b = (a.order b).isLE := by
  rw [Bool.eq_iff_iff, order, keyOrder, compareLex, Ordering.isLE_then_iff_or]
  simp only [atMost, compareOn, Bool.or_eq_true, Bool.and_eq_true, decide_eq_true_eq, beq_iff_eq,
    Std.LawfulEqOrd.compare_eq_iff_eq, isLE_compare_iff, compare_eq_lt_iff]

theorem sort_ascending (nodes : List Node) :
    (sort nodes).Pairwise fun a b => (a.order b).isLE := by
  have htrans (a b c : Node) (hab : a.atMost b) (hbc : b.atMost c) : a.atMost c := by
    rw [atMost_eq_isLE] at *
    exact Std.TransCmp.isLE_trans hab hbc
  have htotal (a b : Node) : a.atMost b || b.atMost a := by
    rw [atMost_eq_isLE, atMost_eq_isLE, Bool.or_eq_true]
    exact order_total a b
  refine (List.pairwise_mergeSort htrans htotal nodes).imp ?_
  intro a b hab
  rwa [← atMost_eq_isLE]

/-- Ascending lists of the same nodes hold the same node at each place. -/
theorem forall₂_same_of_perm (hperm : nodes.Perm others)
    (hnodes : nodes.Pairwise fun a b => (a.order b).isLE)
    (hothers : others.Pairwise fun a b => (a.order b).isLE) :
    List.Forall₂ (fun a b => a.same b) nodes others := by
  have hascending {nodes : List Node} (h : nodes.Pairwise fun a b => (a.order b).isLE) :
      (nodes.map key).Pairwise fun k l => (keyOrder k l).isLE :=
    List.pairwise_map.2 h
  have hkeys : nodes.map key = others.map key := by
    refine (hperm.map key).eq_of_pairwise (fun k l _ _ hkl hlk => ?_)
      (hascending hnodes) (hascending hothers)
    exact keyOrder_eq_eq_iff.1 (Std.OrientedCmp.isLE_antisymm hkl hlk)
  exact (map_eq_map_iff_forall₂.1 hkeys).imp fun _ _ => same_iff.2

/-- What there is to say of the order of nodes. -/
structure OrderedButCase : Prop where
  same_iff : ∀ a b : Node, a.same b ↔ a.EqualButCase b
  order_eq_iff : ∀ a b : Node, a.order b = .eq ↔ a.EqualButCase b
  key_eq_iff : ∀ a b : Node, a.key = b.key ↔ a.EqualButCase b
  swap : ∀ a b : Node, a.order b = (b.order a).swap
  total : ∀ a b : Node, (a.order b).isLE ∨ (b.order a).isLE
  trans : ∀ a b c : Node, (a.order b).isLE → (b.order c).isLE → (a.order c).isLE
  /-- A list has all of its nodes when it is sorted, in ascending order. -/
  sorted : ∀ nodes, (sort nodes).Perm nodes ∧
    (sort nodes).Pairwise fun a b => (a.order b).isLE
  /-- In whatever order the nodes come, the sorted list is the same but for the case of letters. -/
  sort_eq : ∀ nodes others : List Node, nodes.Perm others →
    List.Forall₂ EqualButCase (sort nodes) (sort others)

/-- Literals of nodes are read back from what is displayed, and nodes are in a total order up to the
case of letters. -/
theorem literals_and_order : (∀ literal, ReadsBack literal) ∧ OrderedButCase := by
  refine ⟨fun literal => ⟨exists_parse_iff, fun _ => parse_eq_error, fun _ => parse_display,
    fun node left right h hjoined => ⟨parse_sides h hjoined, display_eq_iff h hjoined⟩⟩, ?_⟩
  have hsame {a b : Node} : a.same b ↔ a.EqualButCase b :=
    same_iff.trans equalButCase_iff.symm
  refine ⟨fun a b => hsame, fun a b => ?_, fun a b => equalButCase_iff.symm,
    fun a b => Std.OrientedCmp.eq_swap, order_total, fun a b c => Std.TransCmp.isLE_trans,
    fun nodes => ⟨List.mergeSort_perm nodes atMost, sort_ascending nodes⟩, fun nodes others h => ?_⟩
  · rw [equalButCase_iff]
    exact keyOrder_eq_eq_iff
  · have hperm := (List.mergeSort_perm nodes atMost).trans
      (h.trans (List.mergeSort_perm others atMost).symm)
    exact (forall₂_same_of_perm hperm (sort_ascending nodes) (sort_ascending others)).imp
      fun _ _ => hsame.1

/-- A node that is read with space around its names, and sorted after another one. -/
theorem literals_and_order_spaced :
    parse " Ds . T_1 " = .ok ⟨"Ds", "T_1"⟩ ∧ parse "Ds.T_1" = .ok ⟨"Ds", "T_1"⟩ ∧
      List.Forall₂ EqualButCase (sort [⟨"Ds", "T_1"⟩, ⟨"a", "t"⟩])
        (sort [⟨"a", "t"⟩, ⟨"Ds", "T_1"⟩]) := by
  have hparse : parse " Ds . T_1 " = .ok ⟨"Ds", "T_1"⟩ := eq_ok_of_toOption (by decide)
  exact ⟨hparse, (literals_and_order.1 _).again _ hparse,
    literals_and_order.2.sort_eq _ _ (List.Perm.swap _ _ _)⟩

end Node

end Sharding
