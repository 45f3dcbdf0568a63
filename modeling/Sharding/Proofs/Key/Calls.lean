import Mathlib.Data.List.Perm.Subperm
import Mathlib.Tactic.NormNum
import Sharding.Key.Generator
import Sharding.Proofs.Key.History
/-!
# Calls on a snowflake generator

A generator is called again and again while it reads an endless clock, which may stand still or go
back. Such a run is a history of calls (`Generator.Run.exists_history`), whose states follow each
other, and so its keys ascend.
-/

namespace Sharding.Key

/-- So many readings of a clock, from a position on. -/
def window (clock : Nat → Int) (start count : Nat) : List Int :=
  (List.range count).map fun i => clock (start + i)

/-- The answers of calls made one after another. Each call goes on reading the clock where the one
before it stopped: of the readings ahead it takes `count` and leaves the `more` after them. -/
inductive Generator.Run (generator : Generator) (clock : Nat → Int) :
    State → Nat → List (Except Fault Int64) → Prop where
  | done {state : State} {start : Nat} : Run generator clock state start []
  | call {state next : State} {start : Nat} (count more : Nat) {answer : Except Fault Int64}
      {answers : List (Except Fault Int64)}
      (turn : generator.next state (window clock start (count + more)) =
        some ⟨answer, next, window clock (start + count) more⟩)
      (rest : Run generator clock next (start + count) answers) :
      Run generator clock state start (answer :: answers)

/-- The keys among the answers. -/
def issued (answers : List (Except Fault Int64)) : List Int64 :=
  answers.filterMap Except.toOption

theorem window_add (clock : Nat → Int) (start count more : Nat) :
    window clock start (count + more) =
      window clock start count ++ window clock (start + count) more := by
  simp [window, List.range_add, Nat.add_assoc]

theorem mem_window {clock : Nat → Int} {start count : Nat} {now : Int}
    (h : now ∈ window clock start count) : ∃ i, clock i = now := by
  obtain ⟨i, _, rfl⟩ := List.mem_map.1 h
  exact ⟨start + i, rfl⟩

namespace Snowflake

/-- States of one millisecond that follow each other differ in their sequence numbers. -/
theorem length_le_sequences {states : List State} (millis : Int)
    (hbefore : states.Pairwise Before) (hdrawable : ∀ state ∈ states, Drawable state)
    (hmillis : ∀ state ∈ states, state.last = millis) : states.length ≤ sequences := by
  have hnodup : (states.map State.sequence).Nodup := by
    refine List.pairwise_map.2 (hbefore.imp_of_mem fun {a b} ha hb hab => ?_)
    have hlast : a.last = b.last := (hmillis a ha).trans (hmillis b hb).symm
    unfold Before at hab
    omega
  have hsubset : states.map State.sequence ⊆ List.range sequences := by
    intro n hn
    obtain ⟨state, hstate, rfl⟩ := List.mem_map.1 hn
    exact List.mem_range.2 (hdrawable state hstate).sequence_lt
  simpa using (hnodup.subperm hsubset).length_le

end Snowflake

open Snowflake

theorem next_of_clock {generator : Generator} {settings : Settings}
    (hsource : generator.source = .clock settings) {state next : State} {readings left : List Int}
    {answer : Except Fault Int64}
    (h : generator.next state readings = some ⟨answer, next, left⟩) :
    generate settings state.snowflake readings = some ⟨answer, next.snowflake, left⟩ := by
  unfold Generator.next at h
  rw [hsource] at h
  obtain ⟨turn, hturn, heq⟩ := Option.map_eq_some_iff.1 h
  cases heq
  exact hturn

/-- A run on a clock is a history whose calls take the readings of the clock one after another. -/
theorem Generator.Run.exists_history {generator : Generator} {settings : Settings}
    {clock : Nat → Int} (hsource : generator.source = .clock settings) {state : State}
    {start : Nat} {answers : List (Except Fault Int64)}
    (run : generator.Run clock state start answers) :
    ∃ calls final count, History settings state.snowflake calls final ∧
      calls.map (·.answer) = answers ∧ clockReadings calls = window clock start count := by
  induction run with
  | done => exact ⟨[], _, 0, .nil, rfl, rfl⟩
  | @call state next start count more answer answers turn _ ih =>
    obtain ⟨calls, final, others, history, hanswers, hreadings⟩ := ih
    obtain ⟨taken, htaken, htakes⟩ := generate_eq_some_iff.1 (next_of_clock hsource turn)
    rw [window_add] at htaken
    cases List.append_cancel_right htaken
    let call : Call := ⟨state.snowflake, window clock start count, answer, next.snowflake⟩
    refine ⟨call :: calls, final, count + others,
      .cons (Call.isMade_iff.2 htakes) rfl history, ?_, ?_⟩
    · rw [List.map_cons, hanswers]
    · rw [window_add, ← hreadings]
      rfl

theorem issued_map_answer (calls : List Call) : issued (calls.map (·.answer)) = keys calls :=
  List.filterMap_map

/-- The keys of a run are those of states that follow each other, from the first state on. -/
theorem Generator.Run.states {generator : Generator} {settings : Settings} {clock : Nat → Int}
    (hsource : generator.source = .clock settings)
    (hclock : ∀ i, 0 ≤ clock i ∧ clock i < horizon) {state : State} {start : Nat}
    {answers : List (Except Fault Int64)} (run : generator.Run clock state start answers) :
    ∃ states : List Snowflake.State, issued answers = states.map (key settings) ∧
      (state.snowflake :: states).Pairwise Before ∧ ∀ s ∈ states, Drawable s := by
  obtain ⟨calls, final, count, history, rfl, hreadings⟩ := run.exists_history hsource
  have hwithin : ∀ now ∈ clockReadings calls, 0 ≤ now ∧ now < horizon := by
    intro now hnow
    rw [hreadings] at hnow
    obtain ⟨i, rfl⟩ := mem_window hnow
    exact hclock i
  refine ⟨drawn calls, ?_, history.before, history.drawable hwithin⟩
  rw [issued_map_answer, history.keys_eq]

theorem Generator.Run.kind_of_error {generator : Generator} {settings : Settings}
    {clock : Nat → Int} (hsource : generator.source = .clock settings) {state : State}
    {start : Nat} {answers : List (Except Fault Int64)}
    (run : generator.Run clock state start answers) {fault : Fault}
    (hfault : .error fault ∈ answers) : fault.kind = .clockBackwards := by
  obtain ⟨calls, final, count, history, rfl, _⟩ := run.exists_history hsource
  obtain ⟨call, hcall, hanswer⟩ := List.mem_map.1 hfault
  rcases (Call.isMade_iff.1 (history.isMade hcall)).cases with ⟨_, herror, hkind, _⟩ | ⟨hok, _⟩
  · cases hanswer.symm.trans herror
    exact hkind
  · cases hanswer.symm.trans hok

theorem source_of_snowflake {props : Properties} {generator : Generator}
    (h : Key.snowflake props = .ok generator) :
    ∃ settings, generator.source = .clock settings := by
  unfold Key.snowflake at h
  cases hsettings : Settings.ofProperties props with
  | error fault =>
    rw [hsettings] at h
    cases h
  | ok settings =>
    rw [hsettings] at h
    cases h
    exact ⟨settings, rfl⟩

/-- Keys never repeat or go back, however the clock does, and of no millisecond are there more than
its sequence numbers. Calls fail for no other reason than the clock. -/
theorem snowflake_keys_ascend {props : Properties} {generator : Generator}
    (accepted : Key.snowflake props = .ok generator) {clock : Nat → Int}
    (hclock : ∀ i, 0 ≤ clock i ∧ clock i < epoch + 2 ^ 41)
    {answers : List (Except Fault Int64)} (run : generator.Run clock .initial 0 answers) :
    (issued answers).Pairwise (· < ·) ∧
      (∀ millis, ((issued answers).filter
        fun key => (decompose key).millis = millis).length ≤ 4096) ∧
      ∀ fault, .error fault ∈ answers → fault.kind = .clockBackwards := by
  obtain ⟨settings, hsource⟩ := source_of_snowflake accepted
  obtain ⟨states, hkeys, hbefore, hdrawable⟩ := run.states hsource hclock
  have hbefore := (List.pairwise_cons.1 hbefore).2
  rw [hkeys]
  refine ⟨?_, fun millis => ?_, fun fault => run.kind_of_error hsource⟩
  · refine List.pairwise_map.2 (hbefore.imp_of_mem fun {a b} ha hb hab => ?_)
    exact key_lt_key settings (hdrawable a ha) (hdrawable b hb) hab
  · rw [filter_map_key settings hdrawable, List.length_map]
    refine length_le_sequences millis (hbefore.filter _) (fun state hstate => ?_)
      (fun state hstate => ?_)
    · exact hdrawable state (List.mem_filter.1 hstate).1
    · simpa using (List.mem_filter.1 hstate).2

/-- A clock that stands still, goes back by a little and then by too much. -/
def unsteadyClock : Nat → Int
  | 0 | 1 | 3 => 5
  | 2 => 3
  | 4 => 20
  | 5 => 4
  | _ => 21

theorem snowflake_keys_ascend_unsteadyClock :
    ∃ generator answers, Key.snowflake .empty = .ok generator ∧
      generator.Run unsteadyClock .initial 0 answers ∧ answers.length = 6 ∧
      (issued answers).length = 5 ∧ (issued answers).Pairwise (· < ·) := by
  have hclock : ∀ i, 0 ≤ unsteadyClock i ∧ unsteadyClock i < epoch + 2 ^ 41 := by
    intro i
    unfold unsteadyClock epoch
    split <;> norm_num
  let generator : Generator :=
    ⟨"SNOWFLAKE", .empty, .clock ⟨0, 1, 10, by decide, by decide⟩⟩
  have accepted : Key.snowflake .empty = .ok generator := rfl
  have hrun : ∃ answers, generator.Run unsteadyClock .initial 0 answers ∧
      answers.length = 6 ∧ (issued answers).length = 5 :=
    ⟨_, .call 1 0 rfl <| .call 1 0 rfl <| .call 2 0 rfl <| .call 1 0 rfl <| .call 1 0 rfl <|
      .call 1 0 rfl .done, rfl, rfl⟩
  obtain ⟨answers, run, hcalls, hissued⟩ := hrun
  exact ⟨generator, answers, accepted, run, hcalls, hissued,
    (snowflake_keys_ascend accepted hclock run).1⟩

end Sharding.Key
