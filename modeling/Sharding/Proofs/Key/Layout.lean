import Mathlib.Tactic.Ring
import Sharding.Key.Snowflake
/-!
# The layout of snowflake keys

Up to the horizon a key is exactly the number that its three parts make up. So it comes apart into
the same parts again, and keys of one generator are ordered as the states they were drawn from.
-/

namespace Sharding.Key.Snowflake

/-- The first time whose milliseconds since the epoch do not fit in 41 bits. -/
def horizon : Int := epoch + 2 ^ 41

/-- A state whose key loses nothing of it. -/
structure Drawable (state : State) : Prop where
  last_nonneg : 0 ≤ state.last
  last_lt : state.last < horizon
  sequence_lt : state.sequence < sequences

/-- Earlier by its millisecond, or by its sequence number within the same one. -/
def Before (state next : State) : Prop :=
  state.last < next.last ∨ state.last = next.last ∧ state.sequence < next.sequence

theorem Before.trans {a b c : State} (hab : Before a b) (hbc : Before b c) : Before a c := by
  unfold Before at *
  omega

theorem toInt_key (settings : Settings) {state : State} (h : Drawable state) :
    (key settings state).toInt =
      (state.last - epoch) * 4194304 + settings.worker * 4096 + state.sequence := by
  obtain ⟨hnonneg, hlt, hseq⟩ := h
  have hworker := settings.worker_lt
  simp only [horizon, epoch, sequences, workers] at *
  have hparts :
      (state.last - 1477958400000) * ((1024 : Nat) * (4096 : Nat)) +
          settings.worker * (4096 : Nat) + state.sequence =
        (state.last - 1477958400000) * 4194304 + settings.worker * 4096 + state.sequence := by
    ring
  rw [key, Int64.toInt_ofInt_of_le]
  · exact hparts
  · simp only [epoch, workers, sequences]
    omega
  · simp only [epoch, workers, sequences]
    omega

theorem decompose_key (settings : Settings) {state : State} (h : Drawable state) :
    decompose (key settings state) = ⟨state.last, settings.worker, state.sequence⟩ := by
  have hvalue := toInt_key settings h
  have hseq := h.sequence_lt
  have hworker := settings.worker_lt
  simp only [decompose, hvalue, sequences, workers] at *
  congr 1 <;> omega

theorem key_lt_key (settings : Settings) {state next : State} (h : Drawable state)
    (hnext : Drawable next) (hbefore : Before state next) :
    key settings state < key settings next := by
  have hseq := h.sequence_lt
  rw [Int64.lt_iff_toInt_lt, toInt_key settings h, toInt_key settings hnext]
  unfold Before at hbefore
  unfold sequences at hseq
  omega

/-- The keys of a millisecond are those of its states. -/
theorem filter_map_key (settings : Settings) {states : List State}
    (hdrawable : ∀ state ∈ states, Drawable state) (millis : Int) :
    (states.map (key settings)).filter (fun key => (decompose key).millis = millis) =
      (states.filter fun state => state.last = millis).map (key settings) := by
  rw [List.filter_map]
  congr 1
  refine List.filter_congr fun state hstate => ?_
  simp [decompose_key settings (hdrawable state hstate)]

end Sharding.Key.Snowflake
