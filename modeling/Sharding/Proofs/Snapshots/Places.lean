import Sharding.Proofs.Outcome
import Sharding.Snapshots
/-!
# The places of snapshots

Every snapshot stays at the place at which it came into effect. A reload that builds takes the next
place, and what one snapshot remembers is changed at its own place only.
-/

namespace Sharding.Snapshots

open Outcome

/-- All snapshots, each at its place. -/
def all (snapshots : Snapshots) : List Snapshot :=
  snapshots.earlier ++ [snapshots.current]

@[simp]
theorem length_all (snapshots : Snapshots) :
    snapshots.all.length = snapshots.currentPlace + 1 := by
  simp [all, currentPlace]

theorem at?_eq_getElem? (snapshots : Snapshots) (place : Nat) :
    snapshots.at? place = snapshots.all[place]? := by
  unfold at?
  split
  · next h => simp [h, all, currentPlace]
  · next h =>
    by_cases hearlier : place < snapshots.currentPlace
    · exact (List.getElem?_append_left hearlier).symm
    · rw [List.getElem?_eq_none (Nat.le_of_not_lt hearlier), List.getElem?_eq_none]
      rw [length_all]
      omega

@[simp]
theorem at?_currentPlace (snapshots : Snapshots) :
    snapshots.at? snapshots.currentPlace = some snapshots.current :=
  if_pos rfl

theorem at?_eq_none_iff {snapshots : Snapshots} {place : Nat} :
    snapshots.at? place = none ↔ snapshots.currentPlace < place := by
  rw [at?_eq_getElem?, List.getElem?_eq_none_iff, length_all, Nat.succ_le_iff]

theorem le_currentPlace_of_at? {snapshots : Snapshots} {place : Nat} {snapshot : Snapshot}
    (found : snapshots.at? place = some snapshot) : place ≤ snapshots.currentPlace := by
  refine Nat.le_of_not_lt fun hlt => ?_
  rw [at?_eq_none_iff.2 hlt] at found
  cases found

/-! ## Reloads -/

/-- What is found at the places after a rule came into effect anew, with nothing remembered. -/
structure Installs (rule : Rule) (before after : Snapshots) : Prop where
  catalog_eq : after.catalog = before.catalog
  currentPlace_eq : after.currentPlace = before.currentPlace + 1
  here : after.at? after.currentPlace = some ⟨rule, .empty⟩
  elsewhere : ∀ place ≠ after.currentPlace, after.at? place = before.at? place

theorem installs_of_all {rule : Rule} {before after : Snapshots}
    (catalog_eq : after.catalog = before.catalog)
    (all_eq : after.all = before.all ++ [⟨rule, .empty⟩]) : Installs rule before after := by
  have hlength := congrArg List.length all_eq
  simp only [length_all, List.length_append, List.length_singleton] at hlength
  have hplace : after.currentPlace = before.all.length := by
    rw [length_all]
    omega
  refine ⟨catalog_eq, by omega, ?_, fun place hne => ?_⟩
  · rw [at?_eq_getElem?, all_eq, hplace, List.getElem?_concat_length]
  · rw [at?_eq_getElem?, at?_eq_getElem?, all_eq, List.getElem?_append]
    split
    · rfl
    · next hge =>
      rw [List.getElem?_eq_none (Nat.le_of_not_lt hge), List.getElem?_eq_none]
      rw [List.length_singleton]
      omega

/-- All that a reload can do: fail with its rule, or install it. -/
theorem reload_cases (snapshots : Snapshots) (config : Configuration.Rule)
    (dataSources : List String) :
    (∃ fault, Rule.build snapshots.catalog config dataSources = .error fault ∧
      snapshots.reload config dataSources = .error fault) ∨
    ∃ rule next, Rule.build snapshots.catalog config dataSources = .ok rule ∧
      snapshots.reload config dataSources = .ok next ∧ Installs rule snapshots next := by
  cases hbuild : Rule.build snapshots.catalog config dataSources with
  | error fault => exact .inl ⟨fault, rfl, bind_eq_error.2 (.inl hbuild)⟩
  | ok rule =>
    exact .inr ⟨rule, _, rfl, bind_eq_ok.2 ⟨rule, hbuild, rfl⟩, installs_of_all rfl rfl⟩

/-! ## Keys -/

/-- What is found at the places after the snapshot at one of them became another. -/
structure Replaces (place : Nat) (snapshot : Snapshot) (before after : Snapshots) : Prop where
  catalog_eq : after.catalog = before.catalog
  currentPlace_eq : after.currentPlace = before.currentPlace
  here : after.at? place = some snapshot
  elsewhere : ∀ other ≠ place, after.at? other = before.at? other

theorem replaces_self {snapshots : Snapshots} {place : Nat} {snapshot : Snapshot}
    (found : snapshots.at? place = some snapshot) :
    Replaces place snapshot snapshots snapshots :=
  ⟨rfl, rfl, found, fun _ _ => rfl⟩

theorem all_remember (snapshots : Snapshots) {place : Nat} (h : place ≤ snapshots.currentPlace)
    (memory : Key.Memory) : (snapshots.remember place memory).all =
      snapshots.all.modify place fun s => { s with memory } := by
  unfold remember
  split
  · next hcurrent => simp [all, hcurrent, currentPlace, List.modify_eq_take_drop]
  · next hcurrent =>
    have hearlier : place < snapshots.earlier.length := Nat.lt_of_le_of_ne h hcurrent
    refine List.ext_getElem? fun i => ?_
    simp only [all, List.getElem?_append, List.getElem?_modify, List.length_modify]
    split
    · rfl
    · next hi =>
      have hne : place ≠ i := by omega
      simp [hne]

theorem replaces_remember {snapshots : Snapshots} {place : Nat} {snapshot : Snapshot}
    (found : snapshots.at? place = some snapshot) (memory : Key.Memory) :
    Replaces place { snapshot with memory } snapshots (snapshots.remember place memory) := by
  have hall := all_remember snapshots (le_currentPlace_of_at? found) memory
  have hlength := congrArg List.length hall
  simp only [length_all, List.length_modify] at hlength
  refine ⟨?_, by omega, ?_, fun other hother => ?_⟩
  · unfold remember
    split <;> rfl
  · rw [at?_eq_getElem?] at found
    rw [at?_eq_getElem?, hall, List.getElem?_modify_eq, found]
    rfl
  · rw [at?_eq_getElem?, at?_eq_getElem?, hall, List.getElem?_modify_ne _ _ hother.symm]

/-- A key is drawn under the rule of the snapshot from what this snapshot remembers. -/
theorem generateKey_of_at? {snapshots : Snapshots} {place : Nat} {snapshot : Snapshot}
    (found : snapshots.at? place = some snapshot) (readings : List Int) (table : String) :
    snapshots.generateKey place readings table =
      (snapshot.rule.generateKey snapshot.memory readings table).map fun turn =>
        ⟨turn.key, snapshots.remember place turn.state, turn.readings⟩ := by
  rw [generateKey, found, Option.bind_some]

end Sharding.Snapshots
