import Sharding.Rule.Build
import Sharding.Rule.Routing
/-!
# Snapshots

A rule that is replaced while it is in use. Each rule that was ever in effect stays available as a
snapshot with its own memory of keys; a replacement that cannot be built changes nothing.
-/

namespace Sharding

structure Snapshot where
  rule : Rule
  memory : Key.Memory

/-- The snapshots in the order in which they came into effect; the last one is current. -/
structure Snapshots where
  catalog : Catalog
  earlier : List Snapshot
  current : Snapshot

namespace Snapshots

/-- The first snapshot. -/
def start (catalog : Catalog) (config : Configuration.Rule) (dataSources : List String) :
    Except Fault Snapshots := do
  let rule ← Rule.build catalog config dataSources
  .ok ⟨catalog, [], ⟨rule, .empty⟩⟩

/-- The place of the current snapshot. -/
def currentPlace (snapshots : Snapshots) : Nat :=
  snapshots.earlier.length

def at? (snapshots : Snapshots) (place : Nat) : Option Snapshot :=
  if place = snapshots.currentPlace then some snapshots.current else snapshots.earlier[place]?

/-- Puts a newly built rule into effect. -/
def reload (snapshots : Snapshots) (config : Configuration.Rule) (dataSources : List String) :
    Except Fault Snapshots := do
  let rule ← Rule.build snapshots.catalog config dataSources
  .ok { snapshots with
    earlier := snapshots.earlier ++ [snapshots.current]
    current := ⟨rule, .empty⟩ }

/-- Changes what one snapshot remembers of its keys. -/
def remember (snapshots : Snapshots) (place : Nat) (memory : Key.Memory) : Snapshots :=
  if place = snapshots.currentPlace then
    { snapshots with current := { snapshots.current with memory } }
  else
    { snapshots with earlier := snapshots.earlier.modify place fun s => { s with memory } }

/-- The next key of a table under the rule of one snapshot. -/
def generateKey (snapshots : Snapshots) (place : Nat) (readings : List Int) (table : String) :
    Option (Key.Turn Snapshots) :=
  (snapshots.at? place).bind fun snapshot =>
    (snapshot.rule.generateKey snapshot.memory readings table).map fun turn =>
      ⟨turn.key, snapshots.remember place turn.state, turn.readings⟩

end Snapshots

end Sharding
