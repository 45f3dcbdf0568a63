import Sharding.Text.Numeral
/-!
# Faults in the properties of an algorithm
-/

namespace Sharding

inductive PropertyFault where
  | missing (key : String)
  | notInteger (key raw : String)
  | countNotPositive (count : Int64)
  | volumeNotPositive (volume : Int64)
  | spanBelowVolume
  | tooManyPartitions (count : Int)
  | noBoundaries (raw : String)

/-- The wording of a fault in the properties of the algorithm type `algorithm`. -/
def PropertyFault.message (algorithm : String) : PropertyFault → String
  | missing key => s!"{algorithm} sharding algorithm property '{key}' cannot be null"
  | notInteger key raw =>
    s!"{algorithm} sharding algorithm property '{key}' must be an integer, got '{raw}'"
  | countNotPositive count =>
    s!"{algorithm} sharding algorithm 'sharding-count' must be positive, got " ++
      Text.Numeral.print count
  | volumeNotPositive volume =>
    s!"{algorithm} sharding algorithm partition volume must be positive, got " ++
      Text.Numeral.print volume
  | spanBelowVolume =>
    s!"{algorithm} sharding algorithm partition range can not be smaller than volume"
  | tooManyPartitions count =>
    s!"{algorithm} sharding algorithm produces too many partitions: {count}"
  | noBoundaries raw =>
    s!"{algorithm} sharding algorithm partition ranges is not valid: '{raw}'"

end Sharding
