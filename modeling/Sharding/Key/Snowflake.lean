import Sharding.Key.Turn
import Sharding.Properties
/-!
# Snowflake keys

A key holds the milliseconds since an epoch, the id of its worker and a sequence number within the
millisecond, from the high bits to the low ones.
-/

namespace Sharding.Key.Snowflake

/-- 2016-11-01 in milliseconds of Unix time. -/
def epoch : Int := 1477958400000

/-- A worker issues so many keys in a millisecond. -/
def sequences : Nat := 4096

def workers : Nat := 1024

structure Settings where
  worker : Nat
  maxOffset : Nat
  tolerance : Int
  worker_lt : worker < workers
  maxOffset_lt : maxOffset < sequences

/-- The settings in the properties of a generator, each with a value for where it is absent. -/
def Settings.ofProperties (props : Properties) : Except Fault Settings := do
  let worker ← props.integerOr "SNOWFLAKE" "worker-id" 0
  if hw : 0 ≤ worker.toInt ∧ worker.toInt.toNat < workers then
    let offset ← props.integerOr "SNOWFLAKE" "max-vibration-offset" 1
    if ho : 0 ≤ offset.toInt ∧ offset.toInt.toNat < sequences then
      let tolerance ← props.integerOr "SNOWFLAKE" "max-tolerate-time-difference-milliseconds" 10
      if tolerance < 0 then .error (.configuration (.tolerance tolerance))
      else .ok ⟨worker.toInt.toNat, offset.toInt.toNat, tolerance.toInt, hw.2, ho.2⟩
    else .error (.configuration (.vibrationOffset offset))
  else .error (.configuration (.workerId worker))

/-- The millisecond and the sequence number of the last key, and the number at which the sequence
of its millisecond began. -/
structure State where
  last : Int
  sequence : Nat
  offset : Nat
  deriving DecidableEq

def State.initial : State := ⟨0, 0, 0⟩

/-- Why the clock is read. -/
inductive Phase where
  | start
  | regressed
  | exhausted

inductive Outcome where
  | waiting (phase : Phase)
  | failed (fault : Fault)
  | issued (state : State)

/-- A time not before the last one: its sequence goes on if it is the same, and begins anew at the
next offset if it is later. -/
def advance (settings : Settings) (state : State) (now : Int) : Outcome :=
  if now = state.last then
    if state.sequence + 1 < sequences then .issued { state with sequence := state.sequence + 1 }
    else .waiting .exhausted
  else
    let offset := if settings.maxOffset ≤ state.offset then 0 else state.offset + 1
    .issued ⟨now, offset, offset⟩

/-- What one reading of the clock leads to. A small step back is waited out once, a used-up
sequence until a later time comes. -/
def read (settings : Settings) (state : State) (phase : Phase) (now : Int) : Outcome :=
  match phase with
  | .start =>
    if state.last ≤ now then advance settings state now
    else if state.last - now < settings.tolerance then .waiting .regressed
    else .failed (.clockBackwards state.last now)
  | .regressed =>
    if state.last ≤ now then advance settings state now
    else .failed (.clockBackwards state.last now)
  | .exhausted =>
    if state.last < now then .issued ⟨now, 0, state.offset⟩ else .waiting .exhausted

/-- The outcome of reading the clock until it is decided, with the readings left over; none if the
readings run out before. -/
def readAll (settings : Settings) (state : State) (phase : Phase) :
    List Int → Option (Except Fault State × List Int)
  | [] => none
  | now :: readings =>
    match read settings state phase now with
    | .waiting phase => readAll settings state phase readings
    | .failed fault => some (.error fault, readings)
    | .issued state => some (.ok state, readings)

/-- The key of a state, within 64 bits. -/
def key (settings : Settings) (state : State) : Int64 :=
  Int64.ofInt ((state.last - epoch) * (workers * sequences) + settings.worker * sequences +
    state.sequence)

/-- The next key; none if the readings run out. A failed turn leaves the state as it was. -/
def generate (settings : Settings) (state : State) (readings : List Int) : Option (Turn State) :=
  match readAll settings state .start readings with
  | none => none
  | some (.error fault, readings) => some ⟨.error fault, state, readings⟩
  | some (.ok state, readings) => some ⟨.ok (key settings state), state, readings⟩

/-- The parts of a key. -/
structure Parts where
  millis : Int
  worker : Nat
  sequence : Nat
  deriving DecidableEq

def decompose (key : Int64) : Parts where
  millis := key.toInt / (workers * sequences) + epoch
  worker := (key.toInt / sequences % workers).toNat
  sequence := (key.toInt % sequences).toNat

end Sharding.Key.Snowflake
