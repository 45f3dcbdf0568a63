import Sharding.Key.Generator
/-!
# Key memories

What the generators of one rule remember: the generator of each table that has its own, and the one
that all other tables share.
-/

namespace Sharding.Key

/-- The table that owns a generator; none for the shared one. -/
abbrev Owner := Option String

structure Memory where
  states : List (Owner × State)

namespace Memory

def empty : Memory := ⟨[]⟩

def state (memory : Memory) (owner : Owner) : State :=
  (memory.states.lookup owner).getD .initial

def set (memory : Memory) (owner : Owner) (state : State) : Memory :=
  ⟨(owner, state) :: memory.states.filter (·.1 != owner)⟩

/-- The next key of a generator from what its owner's entry remembers. -/
def next (memory : Memory) (owner : Owner) (generator : Generator) (readings : List Int) :
    Option (Turn Memory) :=
  (generator.next (memory.state owner) readings).map fun turn =>
    ⟨turn.key, memory.set owner turn.state, turn.readings⟩

theorem state_set_self (memory : Memory) (owner : Owner) (state : State) :
    (memory.set owner state).state owner = state := by
  simp [set, Memory.state]

theorem state_set_of_ne (memory : Memory) {owner other : Owner} (state : State)
    (h : other ≠ owner) : (memory.set owner state).state other = memory.state other := by
  have miss : (other == owner) = false := by simpa using h
  have lookup_filter (entries : List (Owner × State)) :
      (entries.filter (·.1 != owner)).lookup other = entries.lookup other := by
    induction entries with
    | nil => rfl
    | cons entry rest ih =>
      obtain ⟨who, kept⟩ := entry
      by_cases eq : who = owner
      · subst eq
        simp [List.lookup_cons, miss, ih]
      · simp [eq, List.lookup_cons, ih]
  simp [set, Memory.state, List.lookup_cons, miss, lookup_filter]

end Memory

end Sharding.Key
