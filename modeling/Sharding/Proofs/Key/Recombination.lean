import Mathlib.Tactic.NormNum
import Sharding.Proofs.Key.History
/-!
# Keys taken apart and put together

A key comes apart into its milliseconds, its worker and its sequence number, and these put together
again by shifts are the key, for every integer of 64 bits. So the keys of different workers differ.
-/

namespace Sharding.Key.Snowflake

/-- The milliseconds since the epoch, the worker and the sequence number, each shifted to its place
in 64 bits. -/
def recombine (parts : Parts) : Int64 :=
  (Int64.ofInt parts.millis - Int64.ofInt epoch) <<< 22 ||| Int64.ofNat parts.worker <<< 12 |||
    Int64.ofNat parts.sequence

theorem or_eq_add (since : Nat) {worker sequence : Nat} (hworker : worker < 1024)
    (hsequence : sequence < 4096) :
    since <<< 22 ||| worker <<< 12 ||| sequence = since * 4194304 + worker * 4096 + sequence := by
  have hlow : worker <<< 12 ||| sequence = worker * 4096 + sequence := by
    rw [← Nat.shiftLeft_add_eq_or_of_lt (by omega), Nat.shiftLeft_eq]
  rw [Nat.or_assoc, hlow, ← Nat.shiftLeft_add_eq_or_of_lt (by omega), Nat.shiftLeft_eq,
    Nat.add_assoc]

theorem recombine_eq {parts : Parts} (hworker : parts.worker < 1024)
    (hsequence : parts.sequence < 4096) :
    recombine parts =
      Int64.ofInt ((parts.millis - epoch) * 4194304 + parts.worker * 4096 + parts.sequence) := by
  have h22 : ((22 : Int64).toBitVec.smod 64).toNat = 22 := by decide
  have h12 : ((12 : Int64).toBitVec.smod 64).toNat = 12 := by decide
  apply Int64.toBitVec_inj.1
  apply BitVec.eq_of_toNat_eq
  rw [recombine, ← Int64.ofInt_sub]
  generalize parts.millis - epoch = since
  simp only [Int64.toBitVec_or, Int64.toBitVec_shiftLeft, Int64.toBitVec_ofInt,
    Int64.toBitVec_ofNat', BitVec.shiftLeft_eq', h22, h12, BitVec.toNat_or, BitVec.toNat_shiftLeft,
    BitVec.toNat_ofInt, BitVec.toNat_ofNat]
  -- only the low 42 bits of the milliseconds are left after the shift
  have htime : (since % (2 ^ 64 : Nat)).toNat <<< 22 % 2 ^ 64 =
      (since % 4398046511104).toNat <<< 22 := by
    rw [Nat.shiftLeft_eq, Nat.shiftLeft_eq]
    omega
  have hplace : (parts.worker % 2 ^ 64) <<< 12 % 2 ^ 64 = parts.worker <<< 12 := by
    rw [Nat.shiftLeft_eq, Nat.shiftLeft_eq]
    omega
  have hlow : parts.sequence % 2 ^ 64 = parts.sequence := by omega
  rw [htime, hplace, hlow, or_eq_add _ hworker hsequence]
  omega

theorem recombine_decompose (key : Int64) : recombine (decompose key) = key := by
  have hworker : (decompose key).worker < 1024 := by
    simp only [decompose, sequences, workers]
    omega
  have hsequence : (decompose key).sequence < 4096 := by
    simp only [decompose, sequences]
    omega
  have hvalue : ((decompose key).millis - epoch) * 4194304 + (decompose key).worker * 4096 +
      (decompose key).sequence = key.toInt := by
    simp only [decompose, sequences, workers]
    omega
  rw [recombine_eq hworker hsequence, hvalue, Int64.ofInt_toInt]

variable {settings : Settings} {state final : State} {calls : List Call} {issued : Int64}

theorem Call.IsMade.decompose_eq {call : Call} (made : call.IsMade settings)
    (hclock : ∀ now ∈ call.readings, 0 ≤ now ∧ now < horizon) (hanswer : call.answer = .ok issued) :
    decompose issued = ⟨call.after.last, settings.worker, call.after.sequence⟩ ∧
      call.after.sequence < sequences := by
  obtain ⟨rfl, hdrawable⟩ := made.drawable hclock hanswer
  exact ⟨decompose_key settings hdrawable, hdrawable.sequence_lt⟩

theorem History.decompose_eq (history : History settings state calls final)
    (hclock : ∀ now ∈ clockReadings calls, 0 ≤ now ∧ now < horizon) {call : Call}
    (hcall : call ∈ calls) (hanswer : call.answer = .ok issued) :
    decompose issued = ⟨call.after.last, settings.worker, call.after.sequence⟩ ∧
      call.after.sequence < sequences :=
  (history.isMade hcall).decompose_eq
    (fun now hnow => hclock now (mem_clockReadings.2 ⟨call, hcall, hnow⟩)) hanswer

theorem mem_keys : issued ∈ keys calls ↔ ∃ call ∈ calls, call.answer = .ok issued := by
  simp only [keys, List.mem_filterMap]
  constructor
  · rintro ⟨call, hcall, hissued⟩
    exact ⟨call, hcall, Sharding.Outcome.eq_ok_of_toOption hissued⟩
  · rintro ⟨call, hcall, hissued⟩
    exact ⟨call, hcall, by rw [hissued]; rfl⟩

theorem History.worker_eq (history : History settings state calls final)
    (hclock : ∀ now ∈ clockReadings calls, 0 ≤ now ∧ now < horizon)
    (hissued : issued ∈ keys calls) : (decompose issued).worker = settings.worker := by
  obtain ⟨call, hcall, hanswer⟩ := mem_keys.1 hissued
  rw [(history.decompose_eq hclock hcall hanswer).1]

/-- The parts of a key are those of the state that its call left, whatever the clock did; every
integer is made up of its parts; and no key is issued for two workers. -/
theorem keys_lossless (history : History settings .initial calls final)
    (hclock : ∀ now ∈ clockReadings calls, 0 ≤ now ∧ now < epoch + 2 ^ 41) :
    (∀ call ∈ calls, ∀ issued, call.answer = .ok issued →
      decompose issued = ⟨call.after.last, settings.worker, call.after.sequence⟩ ∧
        call.after.sequence ≤ 4095) ∧
      (∀ key, recombine (decompose key) = key) ∧
      ∀ {other : Settings} {others : List Call} {otherFinal : State},
        History other .initial others otherFinal →
        (∀ now ∈ clockReadings others, 0 ≤ now ∧ now < epoch + 2 ^ 41) →
        settings.worker ≠ other.worker → ∀ issued ∈ keys calls, issued ∉ keys others := by
  refine ⟨fun call hcall issued hanswer => ?_, recombine_decompose, ?_⟩
  · obtain ⟨hparts, hsequence⟩ := history.decompose_eq hclock hcall hanswer
    exact ⟨hparts, Nat.le_of_lt_succ hsequence⟩
  · intro other others otherFinal otherHistory hotherClock hworkers issued hissued hcommon
    apply hworkers
    rw [← history.worker_eq hclock hissued, ← otherHistory.worker_eq hotherClock hcommon]

/-- Two workers whose clocks show the same times. -/
theorem keys_lossless_twoWorkers :
    ∃ calls others final otherFinal,
      History ⟨3, 1, 10, by decide, by decide⟩ .initial calls final ∧
      History ⟨4, 0, 10, by decide, by decide⟩ .initial others otherFinal ∧
      clockReadings calls = [7, 5, 8] ∧ clockReadings others = [7, 5, 8] ∧
      (keys calls).length = 2 ∧ (keys others).length = 2 ∧
      ∀ issued ∈ keys calls, issued ∉ keys others := by
  let first : Settings := ⟨3, 1, 10, by decide, by decide⟩
  let second : Settings := ⟨4, 0, 10, by decide, by decide⟩
  let calls : List Call :=
    [⟨.initial, [7], .ok (key first ⟨7, 1, 1⟩), ⟨7, 1, 1⟩⟩,
      ⟨⟨7, 1, 1⟩, [5, 8], .ok (key first ⟨8, 0, 0⟩), ⟨8, 0, 0⟩⟩]
  let others : List Call :=
    [⟨.initial, [7], .ok (key second ⟨7, 0, 0⟩), ⟨7, 0, 0⟩⟩,
      ⟨⟨7, 0, 0⟩, [5, 8], .ok (key second ⟨8, 0, 0⟩), ⟨8, 0, 0⟩⟩]
  have history : History first .initial calls ⟨8, 0, 0⟩ := .cons rfl rfl (.cons rfl rfl .nil)
  have otherHistory : History second .initial others ⟨8, 0, 0⟩ :=
    .cons rfl rfl (.cons rfl rfl .nil)
  have hclock : ∀ now ∈ [7, 5, 8], (0 : Int) ≤ now ∧ now < epoch + 2 ^ 41 := by
    norm_num [epoch]
  exact ⟨calls, others, _, _, history, otherHistory, rfl, rfl, rfl, rfl,
    (keys_lossless history hclock).2.2 otherHistory hclock (by decide)⟩

end Sharding.Key.Snowflake
