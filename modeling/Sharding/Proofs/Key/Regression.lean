import Mathlib.Tactic.NormNum
import Sharding.Proofs.Key.History
/-!
# Clocks that go back

A call fails exactly when the clock is back by too much, or back still when it is read again. The
failed call leaves no trace: it has taken its readings, and the calls after it are those of the
history without it.
-/

namespace Sharding.Key.Snowflake

variable {settings : Settings} {state final otherFinal : State}
variable {calls others earlier later : List Call}
variable {first second : Int} {readings more rest : List Int} {fault : Fault}

theorem generate_eq_error_iff {next : State} {left : List Int} :
    generate settings state (first :: second :: readings) = some ⟨.error fault, next, left⟩ ↔
      next = state ∧ first < state.last ∧
        (settings.tolerance ≤ state.last - first ∧ fault = .clockBackwards state.last first ∧
            left = second :: readings ∨
          state.last - first < settings.tolerance ∧ second < state.last ∧
            fault = .clockBackwards state.last second ∧ left = readings) := by
  constructor
  · intro h
    obtain ⟨taken, htaken, htakes⟩ := generate_eq_some_iff.1 h
    cases htakes with
    | refused back much =>
      cases htaken
      exact ⟨rfl, back, .inl ⟨much, rfl, rfl⟩⟩
    | refusedAgain back little again =>
      cases htaken
      exact ⟨rfl, back, .inr ⟨little, again, rfl, rfl⟩⟩
  · rintro ⟨rfl, back, ⟨much, rfl, rfl⟩ | ⟨little, again, rfl, rfl⟩⟩
    · exact generate_of_much back much
    · exact generate_of_again back little again

/-! ## Histories of the same readings -/

/-- What a call does depends on no more than the readings that it takes. -/
theorem Call.IsMade.generate_append {call : Call} (made : call.IsMade settings) (rest : List Int) :
    generate settings call.before (call.readings ++ rest) =
      some ⟨call.answer, call.after, rest⟩ :=
  generate_eq_some_iff.2 ⟨call.readings, rfl, Call.isMade_iff.1 made⟩

theorem Call.IsMade.eq_of_readings {call other : Call} (made : call.IsMade settings)
    (otherMade : other.IsMade settings) (hbefore : other.before = call.before)
    (hreadings : other.readings ++ more = call.readings ++ rest) : other = call ∧ more = rest := by
  have hcall := made.generate_append rest
  have hother := otherMade.generate_append more
  rw [hbefore, hreadings] at hother
  cases call
  cases other
  cases hbefore
  cases hother.symm.trans hcall
  cases List.append_cancel_right hreadings
  exact ⟨rfl, rfl⟩

/-- Readings decide about calls: as many calls on the same clock are the same calls. -/
theorem History.eq_of_readings (history : History settings state calls final)
    (other : History settings state others otherFinal) (hlength : others.length = calls.length)
    (hreadings : clockReadings others ++ more = clockReadings calls ++ rest) : others = calls := by
  induction history generalizing others with
  | nil => exact List.eq_nil_of_length_eq_zero hlength
  | @cons state final call calls made begins _ ih =>
    cases other with
    | nil => cases hlength
    | @cons _ _ otherCall others otherMade otherBegins otherRest =>
      have hfront : otherCall.readings ++ (clockReadings others ++ more) =
          call.readings ++ (clockReadings calls ++ rest) := by
        simpa [clockReadings_cons] using hreadings
      obtain ⟨rfl, hback⟩ := made.eq_of_readings otherMade (otherBegins.trans begins.symm) hfront
      rw [ih otherRest (Nat.succ.inj hlength) hback]

theorem History.final_eq (history : History settings state calls final)
    (other : History settings state calls otherFinal) : otherFinal = final := by
  induction history with
  | nil =>
    cases other
    rfl
  | cons _ _ _ ih =>
    cases other with
    | cons _ _ rest => exact ih rest

theorem Call.IsMade.after_eq_of_error {call : Call} (made : call.IsMade settings)
    (hanswer : call.answer = .error fault) : call.after = call.before := by
  rcases (Call.isMade_iff.1 made).cases with ⟨_, _, _, hafter⟩ | ⟨hok, _⟩
  · exact hafter
  · cases hanswer.symm.trans hok

/-- A failed call can be left out of a history together with its readings, or put in. -/
theorem history_failed_iff {failed : Call} (reached : History settings state earlier failed.before)
    (made : failed.IsMade settings) (hanswer : failed.answer = .error fault) :
    History settings state (earlier ++ failed :: later) final ↔
      History settings state (earlier ++ later) final := by
  have hafter := made.after_eq_of_error hanswer
  rw [history_append, history_append]
  constructor
  · rintro ⟨middle, hearlier, hrest⟩
    cases hrest with
    | cons _ begins hlater =>
      rw [hafter, begins] at hlater
      exact ⟨middle, hearlier, hlater⟩
  · rintro ⟨middle, hearlier, hlater⟩
    cases reached.final_eq hearlier
    exact ⟨_, hearlier, .cons made rfl (hafter ▸ hlater)⟩

/-- A call fails on two conditions only, with the last time and the one that it failed on, and
leaves state and clock as if it had not been made. When the clock has caught up, it goes on as if it
had not been back. -/
theorem regressions_leave_no_trace (reached : History settings .initial earlier state) :
    (∀ {first second readings fault next left},
      generate settings state (first :: second :: readings) = some ⟨.error fault, next, left⟩ ↔
        next = state ∧ first < state.last ∧
          (settings.tolerance ≤ state.last - first ∧ fault = .clockBackwards state.last first ∧
              left = second :: readings ∨
            state.last - first < settings.tolerance ∧ second < state.last ∧
              fault = .clockBackwards state.last second ∧ left = readings)) ∧
      (∀ {first second readings}, first < state.last →
        state.last - first < settings.tolerance → state.last ≤ second →
        generate settings state (first :: second :: readings) =
          generate settings state (second :: readings)) ∧
      (∀ {failed fault later final}, failed.IsMade settings → failed.before = state →
        failed.answer = .error fault →
        (History settings .initial (earlier ++ failed :: later) final ↔
          History settings .initial (earlier ++ later) final)) ∧
      ∀ {calls others final otherFinal more rest}, History settings .initial calls final →
        History settings .initial others otherFinal → others.length = calls.length →
        clockReadings others ++ more = clockReadings calls ++ rest → others = calls := by
  refine ⟨generate_eq_error_iff, generate_of_caughtUp, ?_,
    fun history other => history.eq_of_readings other⟩
  rintro failed fault later final made rfl hanswer
  exact history_failed_iff reached made hanswer

/-- A call that finds the clock back by three, which is the tolerance. -/
theorem regressions_leave_no_trace_backByThree :
    ∃ key, History ⟨0, 1, 3, by decide, by decide⟩ .initial
        [⟨.initial, [20], .ok key, ⟨20, 1, 1⟩⟩] ⟨20, 1, 1⟩ ∧
      generate ⟨0, 1, 3, by decide, by decide⟩ ⟨20, 1, 1⟩ [17, 21] =
        some ⟨.error (.clockBackwards 20 17), ⟨20, 1, 1⟩, [21]⟩ := by
  have reached : History ⟨0, 1, 3, by decide, by decide⟩ .initial
      [⟨.initial, [20], .ok (key _ ⟨20, 1, 1⟩), ⟨20, 1, 1⟩⟩] ⟨20, 1, 1⟩ :=
    .cons rfl rfl .nil
  exact ⟨_, reached, (regressions_leave_no_trace reached).1.2
    ⟨rfl, by decide, .inl ⟨by decide, rfl, rfl⟩⟩⟩

end Sharding.Key.Snowflake
