import Sharding.Algorithm.Basic
import Sharding.Algorithm.Checksum
/-!
# Remainder algorithms

The place of a value is its remainder by the sharding count, taken of the integer itself or of the
checksum of its text. A remainder says nothing about a range, so a range has every name as target.
-/

namespace Sharding.Algorithm

/-- The count that remainders are taken by. -/
def shardingCount (type : String) (props : Properties) : Except Fault Int64 := do
  let count ← props.integer type "sharding-count"
  if 0 < count then .ok count else .error (.property type (.countNotPositive count))

/-- The algorithm that sends a value to its place for a count. -/
def byPlace (type : String) (props : Properties) (place : Value → Int → Except Fault Nat) :
    Standard where
  type := type
  props := props
  check := discard (shardingCount type props)
  precise available point := do
    let count ← shardingCount type props
    targetAt available <$> place point.value count.toInt
  range available _ := .ok available

/-- The remainder is never negative, whatever the sign of the value. -/
def modulo (props : Properties) : Standard :=
  byPlace "MOD" props fun v count => do
    let n ← integer "MOD" v
    .ok (n.toInt % count).toNat

def hashModulo (props : Properties) : Standard :=
  byPlace "HASH_MOD" props fun v count => .ok ((crc32 v.bytes).toNat % count.toNat)

end Sharding.Algorithm
