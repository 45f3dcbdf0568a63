import Sharding.Proofs.Strategy.Decomposition
import Sharding.Proofs.Table.Resolve
/-!
# Choices at both levels

The levels of a table are narrowed apart, so a choice for the table is a choice at each level, any
one beside any other.
-/

namespace Sharding

/-- The choices have one value of each predicate at each level. -/
def ChoosesAt (predicates choices : Level → List Predicate) : Prop :=
  ∀ level, Chooses (predicates level) (choices level)

/-- A choice at one level goes with some choice at the other. -/
theorem exists_choosesAt {predicates : Level → List Predicate}
    (hexists : ∀ level, ∃ choice, Chooses (predicates level) choice) {level : Level}
    {choice : List Predicate} (hchoice : Chooses (predicates level) choice) :
    ∃ choices, ChoosesAt predicates choices ∧ choices level = choice := by
  choose others hothers using hexists
  refine ⟨Function.update others level choice, ?_, Function.update_self _ _ _⟩
  intro other
  by_cases hsame : other = level
  · subst hsame
    rw [Function.update_self]
    exact hchoice
  · rw [Function.update_of_ne hsame]
    exact hothers other

namespace Table

variable {table : Table} {defaults : Defaults} {predicates : Level → List Predicate}

/-- A table resolves exactly if it does for every choice. -/
theorem exists_resolve_iff_of_choices
    (hexists : ∀ level, ∃ choice, Chooses (predicates level) choice)
    (hlevels : table.broadcast = false → ∀ level, Decomposes (table.narrow defaults level)
      (fun names name => Name.isIn names name) (predicates level)) :
    (∃ nodes, table.resolve defaults predicates = .ok nodes) ↔
      ∀ choices, ChoosesAt predicates choices →
        ∃ nodes, table.resolve defaults choices = .ok nodes := by
  cases hbroadcast : table.broadcast with
  | true =>
    have hall (given : Level → List Predicate) :
        ∃ nodes, table.resolve defaults given = .ok nodes := ⟨table.nodes, if_pos hbroadcast⟩
    exact iff_of_true (hall predicates) fun choices _ => hall choices
  | false =>
    simp only [exists_resolve_iff hbroadcast]
    constructor
    · intro h choices hchoices level
      exact (hlevels hbroadcast level).exists_ok_iff.1 (h level) (choices level) (hchoices level)
    · intro h level
      apply (hlevels hbroadcast level).exists_ok_iff.2
      intro choice hchoice
      obtain ⟨choices, hchoices, rfl⟩ := exists_choosesAt hexists hchoice
      exact h choices hchoices level

/-- The nodes that are left are those that are left by some choice. -/
theorem mem_resolve_iff_of_choices
    (hexists : ∀ level, ∃ choice, Chooses (predicates level) choice)
    (hlevels : table.broadcast = false → ∀ level, Decomposes (table.narrow defaults level)
      (fun names name => Name.isIn names name) (predicates level))
    {nodes : List Node} (hnodes : table.resolve defaults predicates = .ok nodes) (node : Node) :
    node ∈ nodes ↔ ∃ choices found, ChoosesAt predicates choices ∧
      table.resolve defaults choices = .ok found ∧ node ∈ found := by
  cases hbroadcast : table.broadcast with
  | true =>
    have hall (given : Level → List Predicate) :
        table.resolve defaults given = .ok table.nodes := if_pos hbroadcast
    cases (hall predicates).symm.trans hnodes
    choose choices hchoices using hexists
    constructor
    · intro hnode
      exact ⟨choices, table.nodes, hchoices, hall choices, hnode⟩
    · rintro ⟨others, found, _, hfound, hnode⟩
      cases (hall others).symm.trans hfound
      exact hnode
  | false =>
    obtain ⟨left, hleft, rfl⟩ := resolve_eq_ok hbroadcast hnodes
    have hlevel (level : Level) := (hlevels hbroadcast level).has_iff (hleft level)
    rw [mem_keep]
    constructor
    · rintro ⟨hnode, hnames⟩
      have hchosen (level : Level) := (hlevel level (node.at level)).1 (hnames level)
      choose choices kept hchoices hkept hnames using hchosen
      exact ⟨choices, table.keep kept, hchoices, resolve_of_narrow hbroadcast hkept,
        mem_keep.2 ⟨hnode, hnames⟩⟩
    · rintro ⟨choices, found, hchoices, hfound, hnode⟩
      obtain ⟨kept, hkept, rfl⟩ := resolve_eq_ok hbroadcast hfound
      obtain ⟨hnode, hnames⟩ := mem_keep.1 hnode
      refine ⟨hnode, ?_⟩
      intro level
      exact (hlevel level (node.at level)).2
        ⟨choices level, kept level, hchoices level, hkept level, hnames level⟩

end Table

end Sharding
