import Sharding.Algorithm.Basic
import Sharding.Text.Fields
/-!
# Partition algorithms

The integers are cut into consecutive half-open partitions, and the place of a value is the place
of its partition. A range has the targets of the partitions it meets.
-/

namespace Sharding.Algorithm

/-- The integers from `lower` on and below `upper`; an absent bound is infinite. -/
structure Partition where
  lower : Option Int
  upper : Option Int
  deriving DecidableEq

namespace Partition

def contains (p : Partition) (n : Int) : Bool :=
  p.lower.all (· ≤ n) && p.upper.all (n < ·)

/-- Some integer from `low` to `high` lies in the partition. -/
def intersects (p : Partition) (low high : Int) : Bool :=
  max low (p.lower.getD low) ≤ min high ((p.upper.map (· - 1)).getD high)

/-- The partitions that end at each of the boundaries, and the one after the last. -/
def between (lower : Option Int) : List Int → List Partition
  | [] => [⟨lower, none⟩]
  | boundary :: boundaries => ⟨lower, some boundary⟩ :: between (some boundary) boundaries

/-- Partitions of the given volume from `lower` to `upper`, the last one cut short, and the two
unbounded ones around them. -/
def tiling (lower upper volume : Int) (count : Nat) : List Partition :=
  ⟨none, some lower⟩ ::
    (List.range count).map (fun (i : Nat) =>
      ⟨some (lower + i * volume), some (min (lower + i * volume + volume) upper)⟩) ++
    [⟨some upper, none⟩]

end Partition

/-- At most so many partitions lie between the two unbounded ones. -/
def maxPartitions : Int := Int32.maxValue.toInt

def fixedPartitions (props : Properties) : Except Fault (List Partition) := do
  let refuse {α : Type} (fault : PropertyFault) : Except Fault α :=
    .error (.property "STANDARD_RANGE" fault)
  let lower ← props.integer "STANDARD_RANGE" "partition.lower"
  let upper ← props.integer "STANDARD_RANGE" "partition.upper"
  let volume ← props.integer "STANDARD_RANGE" "partition.volume"
  if volume ≤ 0 then refuse (.volumeNotPositive volume)
  else
    match Text.Numeral.fit (upper.toInt - lower.toInt) with
    | none => refuse .spanBelowVolume
    | some span =>
      if span < volume then refuse .spanBelowVolume
      else
        let count := (span.toInt + volume.toInt - 1) / volume.toInt
        if maxPartitions < count then refuse (.tooManyPartitions count)
        else .ok (Partition.tiling lower.toInt upper.toInt volume.toInt count.toNat)

/-- The boundaries that a text lists, ascending and each once; what is no integer is passed over. -/
def boundaries (raw : String) : List Int :=
  let numbers := (Text.pieces raw).filterMap fun piece => Text.Numeral.parse? (Text.trim piece)
  (numbers.map Int64.toInt).eraseDups.mergeSort (· ≤ ·)

def listedPartitions (props : Properties) : Except Fault (List Partition) := do
  let raw ← props.text "CUSTOM_RANGE" "partition.ranges"
  match boundaries raw with
  | [] => .error (.property "CUSTOM_RANGE" (.noBoundaries raw))
  | bounds => .ok (Partition.between none bounds)

/-- The target of the first partition that contains an integer. -/
def preciseTarget (partitions : List Partition) (available : List String) (n : Int) :
    Option String :=
  (partitions.findIdx? (·.contains n)).bind (targetAt available)

/-- The targets of the partitions met by the integers from `low` to `high`, each once. -/
def rangeTargets (partitions : List Partition) (available : List String) (low high : Int) :
    List String :=
  Name.distinct <| partitions.zipIdx.filterMap fun (partition, place) =>
    if partition.intersects low high then targetAt available place else none

/-- The algorithm on a table of partitions. -/
def byPartition (type : String) (props : Properties) (table : Except Fault (List Partition)) :
    Standard where
  type := type
  props := props
  check := discard table
  precise available point := do
    let partitions ← table
    let n ← integer type point.value
    .ok (preciseTarget partitions available n.toInt)
  range available span := do
    let partitions ← table
    match span.interval.integers with
    | .error bound => .error (.value (.boundNotInteger type bound))
    | .ok none => .ok []
    | .ok (some (low, high)) => .ok (rangeTargets partitions available low.toInt high.toInt)

def fixedRange (props : Properties) : Standard :=
  byPartition "STANDARD_RANGE" props (fixedPartitions props)

def listedRange (props : Properties) : Standard :=
  byPartition "CUSTOM_RANGE" props (listedPartitions props)

end Sharding.Algorithm
