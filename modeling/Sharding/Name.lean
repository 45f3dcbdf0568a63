/-!
# Names

Names of data sources, tables and columns are told apart without regard to ASCII case, while each
keeps the spelling it was given.
-/

namespace Sharding.Name

/-- The form two names share exactly when they are the same name. -/
def fold (name : String) : String :=
  name.toLower

def same (a b : String) : Bool :=
  fold a == fold b

/-- The first spelling of a name in a list. -/
def find? (names : List String) (name : String) : Option String :=
  let key := fold name
  names.find? (fold · == key)

def isIn (names : List String) (name : String) : Bool :=
  let key := fold name
  names.any (fold · == key)

/-- The names beside their folded forms. -/
def index (names : List String) : List (String × String) :=
  names.map fun name => (fold name, name)

/-- The first spellings, in a list, of those of the names that it holds. -/
def findAll (names sought : List String) : List String :=
  let index := index names
  sought.filterMap fun name => index.lookup (fold name)

/-- The names beside their folded forms, of each only the first. -/
def keyed (names : List String) : List (String × String) :=
  (index names).eraseDupsBy fun a b => a.1 == b.1

/-- Each name once, in the order and the spelling of its first appearance. -/
def distinct (names : List String) : List String :=
  (keyed names).map (·.2)

/-- Each name once, in its first spelling, in ascending order of the folded names. -/
def canonical (names : List String) : List String :=
  ((keyed names).mergeSort fun a b => a.1 ≤ b.1).map (·.2)

theorem same_iff {a b : String} : same a b ↔ fold a = fold b := by
  simp [same]

theorem isIn_iff {names : List String} {name : String} :
    isIn names name ↔ ∃ n ∈ names, fold n = fold name := by
  simp [isIn]

theorem lookup_index (names : List String) (name : String) :
    (index names).lookup (fold name) = find? names name := by
  induction names with
  | nil => rfl
  | cons first names ih =>
    by_cases eq : fold first = fold name
    · simp [index, find?, eq]
    · have miss : (fold name == fold first) = false := beq_false_of_ne (Ne.symm eq)
      simpa [index, find?, List.lookup_cons, eq, miss] using ih

theorem findAll_eq (names sought : List String) :
    findAll names sought = sought.filterMap (find? names) := by
  simp [findAll, lookup_index]

theorem mem_canonical {names : List String} {name : String} :
    name ∈ canonical names ↔ name ∈ distinct names := by
  simp [canonical, distinct, (List.mergeSort_perm _ _).mem_iff]

end Sharding.Name
