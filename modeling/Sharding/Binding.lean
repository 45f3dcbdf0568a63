import Sharding.Dictionary
import Sharding.Table.Basic
/-!
# Binding groups

The tables of a binding group are sharded alike: in every data source the physical tables of one
member correspond to those of another by their places.
-/

namespace Sharding

structure BindingGroup where
  members : List Table

namespace BindingGroup

/-- Two tables have the same data sources in number, and in each of them the same count of physical
tables. -/
def alike (first other : Table) : Bool :=
  let dataSources := first.names .database
  dataSources.length == (other.names .database).length &&
    dataSources.all fun dataSource =>
      (first.actualTables dataSource).length == (other.actualTables dataSource).length

/-- A group has at least two members, which all match the first. -/
def build (members : List Table) : Except Fault BindingGroup :=
  match members with
  | first :: other :: others =>
    match (other :: others).find? fun member => !alike first member with
    | some member => .error (.configuration (.countsDiffer first.name member.name))
    | none => .ok ⟨members⟩
  | members => .error (.configuration (.groupTooSmall members.length))

def names (group : BindingGroup) : List String :=
  group.members.map (·.name)

def find? (group : BindingGroup) (table : String) : Option Table :=
  group.members.find? fun member => Name.same member.name table

def contains (group : BindingGroup) (table : String) : Bool :=
  (group.find? table).isSome

/-- The physical table of `target` at the place that `actual` has among those of `source`. -/
def translate (group : BindingGroup) (dataSource source actual target : String) :
    Except Fault String :=
  let notFound : Fault := .configuration (.noActualTable dataSource source actual)
  match (group.find? source).bind (·.placeOf dataSource actual) with
  | none => .error notFound
  | some place =>
    match group.find? target with
    | none => .error (.configuration (.notInGroup target group.names))
    | some member =>
      match (member.actualTables dataSource)[place]? with
      | some translated => .ok translated
      | none => .error notFound

/-- The physical tables that correspond to one of a member, under the names of the other members. -/
def boundTables (group : BindingGroup) (dataSource table actual : String) :
    Except Fault (Dictionary String) := do
  let others := group.names.filter fun name => !Name.same name table
  let entries ← others.mapM fun name => do
    let bound ← group.translate dataSource table actual name
    .ok (name, bound)
  .ok (.ofList entries)

end BindingGroup

end Sharding
