import Sharding.Proofs.Key.Layout
/-!
# The readings of a call

What a call on a snowflake generator comes to, told by the readings that it takes. A call goes by
one reading of the clock, but for one before it that was back by a little, and for those while it
waits for a later time when the sequence of its millisecond is used up.
-/

namespace Sharding.Key.Snowflake

/-- The readings before the one that a call goes by: none, or one that is back by less than the
tolerance. -/
inductive Overlooked (settings : Settings) (state : State) : List Int → Prop where
  | none : Overlooked settings state []
  | one {now : Int} (back : now < state.last) (little : state.last - now < settings.tolerance) :
      Overlooked settings state [now]

/-- Where the sequence of the next millisecond begins. -/
def nextOffset (settings : Settings) (state : State) : Nat :=
  if settings.maxOffset ≤ state.offset then 0 else state.offset + 1

/-- All that a call can come to: the readings that it takes, its answer and the state after it. -/
inductive Takes (settings : Settings) (state : State) :
    List Int → Except Fault Int64 → State → Prop where
  | refused {now : Int} (back : now < state.last) (much : settings.tolerance ≤ state.last - now) :
      Takes settings state [now] (.error (.clockBackwards state.last now)) state
  | refusedAgain {first now : Int} (back : first < state.last)
      (little : state.last - first < settings.tolerance) (again : now < state.last) :
      Takes settings state [first, now] (.error (.clockBackwards state.last now)) state
  | continued {overlooked : List Int} {next : State}
      (ahead : Overlooked settings state overlooked) (room : state.sequence + 1 < sequences)
      (hnext : next = { state with sequence := state.sequence + 1 }) :
      Takes settings state (overlooked ++ [state.last]) (.ok (key settings next)) next
  | renewed {overlooked : List Int} {now : Int} {next : State}
      (ahead : Overlooked settings state overlooked) (later : state.last < now)
      (hnext : next = ⟨now, nextOffset settings state, nextOffset settings state⟩) :
      Takes settings state (overlooked ++ [now]) (.ok (key settings next)) next
  | exhausted {overlooked still : List Int} {now : Int} {next : State}
      (ahead : Overlooked settings state overlooked) (full : sequences ≤ state.sequence + 1)
      (notLater : ∀ time ∈ still, time ≤ state.last) (later : state.last < now)
      (hnext : next = ⟨now, 0, state.offset⟩) :
      Takes settings state (overlooked ++ state.last :: still ++ [now]) (.ok (key settings next))
        next

theorem readAll_exhausted_iff {settings : Settings} {state : State} {readings left : List Int}
    {outcome : Except Fault State} :
    readAll settings state .exhausted readings = some (outcome, left) ↔
      ∃ still now, readings = still ++ now :: left ∧ (∀ time ∈ still, time ≤ state.last) ∧
        state.last < now ∧ outcome = .ok ⟨now, 0, state.offset⟩ := by
  induction readings with
  | nil => simp [readAll]
  | cons first readings ih =>
    by_cases hlater : state.last < first
    · have hread : read settings state .exhausted first = .issued ⟨first, 0, state.offset⟩ :=
        if_pos hlater
      rw [readAll, hread]
      constructor
      · intro h
        cases h
        exact ⟨[], first, rfl, List.forall_mem_nil _, hlater, rfl⟩
      · rintro ⟨still, now, hreadings, hstill, _, rfl⟩
        cases still with
        | nil =>
          cases hreadings
          rfl
        | cons again still =>
          cases hreadings
          exact absurd (hstill first List.mem_cons_self) (Int.not_le.2 hlater)
    · have hread : read settings state .exhausted first = .waiting .exhausted := if_neg hlater
      rw [readAll, hread]
      refine ih.trans ⟨?_, ?_⟩
      · rintro ⟨still, now, rfl, hstill, hnow, houtcome⟩
        exact ⟨first :: still, now, rfl,
          List.forall_mem_cons.2 ⟨Int.not_lt.1 hlater, hstill⟩, hnow, houtcome⟩
      · rintro ⟨still, now, hreadings, hstill, hnow, houtcome⟩
        cases still with
        | nil =>
          cases hreadings
          exact absurd hnow hlater
        | cons again still =>
          cases hreadings
          exact ⟨still, now, rfl, (List.forall_mem_cons.1 hstill).2, hnow, houtcome⟩

section Steps

variable {settings : Settings} {state next : State} {first now : Int} {readings left : List Int}
variable {answer : Except Fault Int64}

theorem generate_of_much (back : now < state.last)
    (much : settings.tolerance ≤ state.last - now) :
    generate settings state (now :: readings) =
      some ⟨.error (.clockBackwards state.last now), state, readings⟩ := by
  have hread : read settings state .start now = .failed (.clockBackwards state.last now) := by
    rw [read, if_neg (Int.not_le.2 back), if_neg (Int.not_lt.2 much)]
  simp only [generate, readAll, hread]

theorem readAll_of_little (back : first < state.last)
    (little : state.last - first < settings.tolerance) :
    readAll settings state .start (first :: readings) =
      readAll settings state .regressed readings := by
  have hread : read settings state .start first = .waiting .regressed := by
    rw [read, if_neg (Int.not_le.2 back), if_pos little]
  rw [readAll, hread]

theorem generate_of_again (back : first < state.last)
    (little : state.last - first < settings.tolerance) (again : now < state.last) :
    generate settings state (first :: now :: readings) =
      some ⟨.error (.clockBackwards state.last now), state, readings⟩ := by
  have hread : read settings state .regressed now = .failed (.clockBackwards state.last now) :=
    if_neg (Int.not_le.2 again)
  simp only [generate, readAll_of_little back little]
  simp only [readAll, hread]

/-- Once the clock is not back any more, a call goes on as if it had not been back. -/
theorem generate_of_caughtUp (back : first < state.last)
    (little : state.last - first < settings.tolerance) (caughtUp : state.last ≤ now) :
    generate settings state (first :: now :: readings) =
      generate settings state (now :: readings) := by
  have hread : read settings state .regressed now = read settings state .start now := by
    rw [read, read, if_pos caughtUp, if_pos caughtUp]
  simp only [generate, readAll_of_little back little]
  simp only [readAll, hread]

theorem generate_overlooked {overlooked : List Int}
    (ahead : Overlooked settings state overlooked) (caughtUp : state.last ≤ now) :
    generate settings state (overlooked ++ now :: readings) =
      generate settings state (now :: readings) := by
  cases ahead with
  | none => rfl
  | one back little => exact generate_of_caughtUp back little caughtUp

theorem generate_of_room (room : state.sequence + 1 < sequences) :
    generate settings state (state.last :: readings) =
      some ⟨.ok (key settings { state with sequence := state.sequence + 1 }),
        { state with sequence := state.sequence + 1 }, readings⟩ := by
  have hread : read settings state .start state.last =
      .issued { state with sequence := state.sequence + 1 } := by
    rw [read, if_pos (Int.le_refl _), advance, if_pos rfl, if_pos room]
  simp only [generate, readAll, hread]

theorem generate_of_later (later : state.last < now) :
    generate settings state (now :: readings) =
      some ⟨.ok (key settings ⟨now, nextOffset settings state, nextOffset settings state⟩),
        ⟨now, nextOffset settings state, nextOffset settings state⟩, readings⟩ := by
  have hread : read settings state .start now =
      .issued ⟨now, nextOffset settings state, nextOffset settings state⟩ := by
    rw [read, if_pos (Int.le_of_lt later), advance, if_neg (Int.ne_of_gt later)]
    rfl
  simp only [generate, readAll, hread]

theorem generate_of_full (full : sequences ≤ state.sequence + 1) :
    generate settings state (state.last :: readings) = some ⟨answer, next, left⟩ ↔
      ∃ still now, readings = still ++ now :: left ∧ (∀ time ∈ still, time ≤ state.last) ∧
        state.last < now ∧ next = ⟨now, 0, state.offset⟩ ∧ answer = .ok (key settings next) := by
  have hread : read settings state .start state.last = .waiting .exhausted := by
    rw [read, if_pos (Int.le_refl _), advance, if_pos rfl, if_neg (Nat.not_lt.2 full)]
  have hstart : readAll settings state .start (state.last :: readings) =
      readAll settings state .exhausted readings := by
    rw [readAll, hread]
  rw [generate, hstart]
  constructor
  · intro h
    split at h
    · cases h
    · next hwaited =>
      obtain ⟨_, _, _, _, _, houtcome⟩ := readAll_exhausted_iff.1 hwaited
      cases houtcome
    · next hwaited =>
      cases h
      obtain ⟨still, now, hreadings, hstill, later, houtcome⟩ := readAll_exhausted_iff.1 hwaited
      exact ⟨still, now, hreadings, hstill, later, Except.ok.inj houtcome, rfl⟩
  · rintro ⟨still, now, hreadings, hstill, later, rfl, rfl⟩
    rw [readAll_exhausted_iff.2 ⟨still, now, hreadings, hstill, later, rfl⟩]

/-- What a call does on a time that is not before the last one, whatever it overlooked. -/
theorem exists_takes_of_le {overlooked : List Int} (ahead : Overlooked settings state overlooked)
    (caughtUp : state.last ≤ now)
    (h : generate settings state (now :: readings) = some ⟨answer, next, left⟩) :
    ∃ taken, overlooked ++ now :: readings = taken ++ left ∧
      Takes settings state taken answer next := by
  rcases Int.lt_or_eq_of_le caughtUp with later | rfl
  · rw [generate_of_later later] at h
    cases h
    exact ⟨overlooked ++ [now], by simp, .renewed ahead later rfl⟩
  · by_cases room : state.sequence + 1 < sequences
    · rw [generate_of_room room] at h
      cases h
      exact ⟨overlooked ++ [state.last], by simp, .continued ahead room rfl⟩
    · have full := Nat.not_lt.1 room
      obtain ⟨still, now, rfl, notLater, later, hnext, rfl⟩ := (generate_of_full full).1 h
      exact ⟨overlooked ++ state.last :: still ++ [now], by simp,
        .exhausted ahead full notLater later hnext⟩

/-- A call takes its readings from the front of those that are there, and leaves the rest. -/
theorem generate_eq_some_iff :
    generate settings state readings = some ⟨answer, next, left⟩ ↔
      ∃ taken, readings = taken ++ left ∧ Takes settings state taken answer next := by
  constructor
  · intro h
    cases readings with
    | nil => cases h
    | cons first readings =>
      by_cases caughtUp : state.last ≤ first
      · exact exists_takes_of_le .none caughtUp h
      · have back := Int.not_le.1 caughtUp
        by_cases little : state.last - first < settings.tolerance
        · cases readings with
          | nil =>
            rw [generate, readAll_of_little back little] at h
            cases h
          | cons now readings =>
            by_cases caughtUp : state.last ≤ now
            · rw [generate_of_caughtUp back little caughtUp] at h
              exact exists_takes_of_le (.one back little) caughtUp h
            · have again := Int.not_le.1 caughtUp
              rw [generate_of_again back little again] at h
              cases h
              exact ⟨[first, now], rfl, .refusedAgain back little again⟩
        · have much := Int.not_lt.1 little
          rw [generate_of_much back much] at h
          cases h
          exact ⟨[first], rfl, .refused back much⟩
  · rintro ⟨taken, rfl, h⟩
    cases h with
    | refused back much => exact generate_of_much back much
    | refusedAgain back little again => exact generate_of_again back little again
    | continued ahead room hnext =>
      rw [List.append_assoc, List.singleton_append, generate_overlooked ahead (Int.le_refl _),
        generate_of_room room, hnext]
    | renewed ahead later hnext =>
      rw [List.append_assoc, List.singleton_append,
        generate_overlooked ahead (Int.le_of_lt later), generate_of_later later, hnext]
    | @exhausted overlooked still now _ ahead full notLater later hnext =>
      have hreadings : overlooked ++ state.last :: still ++ [now] ++ left =
          overlooked ++ state.last :: (still ++ now :: left) := by simp
      rw [hreadings, generate_overlooked ahead (Int.le_refl _)]
      exact (generate_of_full full).2 ⟨still, now, rfl, notLater, later, hnext, rfl⟩

end Steps

end Sharding.Key.Snowflake
