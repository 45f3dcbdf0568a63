import Sharding.Proofs.Key.Readings
import Sharding.Proofs.Outcome
/-!
# Histories of a snowflake generator

The calls on a generator from its first state on, each with the readings that it took of the clock.
The clock may stand still or go back, and calls may fail. The states that keys are drawn from follow
each other strictly, and the readings alone decide about all else.
-/

namespace Sharding.Key.Snowflake

/-- A call on a generator: the state before it, what it read of the clock, its answer and the state
after it. -/
structure Call where
  before : State
  readings : List Int
  answer : Except Fault Int64
  after : State

variable {settings : Settings} {state next middle final : State} {taken readings left : List Int}
variable {answer : Except Fault Int64} {call : Call} {calls earlier later : List Call}

/-- The call is one on a generator with the settings, and takes all its readings. -/
def Call.IsMade (settings : Settings) (call : Call) : Prop :=
  generate settings call.before call.readings = some ⟨call.answer, call.after, []⟩

theorem Call.isMade_iff :
    call.IsMade settings ↔ Takes settings call.before call.readings call.answer call.after := by
  rw [IsMade, generate_eq_some_iff]
  constructor
  · rintro ⟨taken, htaken, h⟩
    rwa [htaken, List.append_nil]
  · intro h
    exact ⟨call.readings, (List.append_nil _).symm, h⟩

/-- Calls made one after another, each in the state that the one before it left. -/
inductive History (settings : Settings) : State → List Call → State → Prop where
  | nil {state : State} : History settings state [] state
  | cons {state final : State} {call : Call} {calls : List Call} (made : call.IsMade settings)
      (begins : call.before = state) (rest : History settings call.after calls final) :
      History settings state (call :: calls) final

/-- The keys that the calls issued. -/
def keys (calls : List Call) : List Int64 :=
  calls.filterMap (·.answer.toOption)

/-- The states that the keys were drawn from. -/
def drawn (calls : List Call) : List State :=
  calls.filterMap fun call => call.answer.toOption.map fun _ => call.after

/-- What the calls read of the clock, from its first reading on. -/
def clockReadings (calls : List Call) : List Int :=
  calls.flatMap (·.readings)

theorem clockReadings_cons (call : Call) (calls : List Call) :
    clockReadings (call :: calls) = call.readings ++ clockReadings calls :=
  List.flatMap_cons

theorem clockReadings_append (earlier later : List Call) :
    clockReadings (earlier ++ later) = clockReadings earlier ++ clockReadings later :=
  List.flatMap_append

theorem mem_clockReadings {now : Int} :
    now ∈ clockReadings calls ↔ ∃ call ∈ calls, now ∈ call.readings :=
  List.mem_flatMap

theorem history_append :
    History settings state (earlier ++ later) final ↔
      ∃ middle, History settings state earlier middle ∧ History settings middle later final := by
  induction earlier generalizing state with
  | nil =>
    constructor
    · intro h
      exact ⟨state, .nil, h⟩
    · rintro ⟨_, hearlier, h⟩
      cases hearlier
      exact h
  | cons call earlier ih =>
    constructor
    · intro h
      cases h with
      | cons made begins rest =>
        obtain ⟨middle, hearlier, hlater⟩ := ih.1 rest
        exact ⟨middle, .cons made begins hearlier, hlater⟩
    · rintro ⟨middle, hearlier, hlater⟩
      cases hearlier with
      | cons made begins rest => exact .cons made begins (ih.2 ⟨middle, rest, hlater⟩)

theorem History.isMade (history : History settings state calls final) (hcall : call ∈ calls) :
    call.IsMade settings := by
  induction history with
  | nil => cases hcall
  | cons made _ _ ih =>
    rcases List.mem_cons.1 hcall with rfl | hcall
    · exact made
    · exact ih hcall

theorem Overlooked.lt_last {overlooked : List Int} (ahead : Overlooked settings state overlooked) :
    ∀ time ∈ overlooked, time < state.last := by
  cases ahead with
  | none => exact List.forall_mem_nil _
  | one back _ => simpa using back

/-- A call fails and changes nothing, or draws the key of a later state. -/
theorem Takes.cases (h : Takes settings state taken answer next) :
    (∃ fault, answer = .error fault ∧ fault.kind = .clockBackwards ∧ next = state) ∨
      (answer = .ok (key settings next) ∧ Before state next ∧ next.last ∈ taken ∧
        next.sequence < sequences) := by
  have hoffset := settings.maxOffset_lt
  cases h with
  | refused => exact .inl ⟨_, rfl, rfl, rfl⟩
  | refusedAgain => exact .inl ⟨_, rfl, rfl, rfl⟩
  | continued ahead room hnext =>
    subst hnext
    exact .inr ⟨rfl, .inr ⟨rfl, Nat.lt_succ_self _⟩, by simp, room⟩
  | renewed ahead later hnext =>
    subst hnext
    refine .inr ⟨rfl, .inl later, by simp, ?_⟩
    show nextOffset settings state < sequences
    unfold nextOffset
    split <;> omega
  | exhausted ahead full notLater later hnext =>
    subst hnext
    exact .inr ⟨rfl, .inl later, by simp, show 0 < sequences by decide⟩

/-- The last time is never before one that was read. -/
theorem Takes.le_last (h : Takes settings state taken answer next) :
    ∀ time ∈ taken, time ≤ next.last := by
  intro time htime
  cases h with
  | refused back => exact List.mem_singleton.1 htime ▸ Int.le_of_lt back
  | refusedAgain back _ again =>
    rcases List.mem_cons.1 htime with rfl | htime
    · exact Int.le_of_lt back
    · exact List.mem_singleton.1 htime ▸ Int.le_of_lt again
  | continued ahead _ hnext =>
    subst hnext
    rcases List.mem_append.1 htime with htime | htime
    · exact Int.le_of_lt (ahead.lt_last time htime)
    · exact List.mem_singleton.1 htime ▸ Int.le_refl _
  | renewed ahead later hnext =>
    subst hnext
    rcases List.mem_append.1 htime with htime | htime
    · exact Int.le_of_lt (Int.lt_trans (ahead.lt_last time htime) later)
    · exact List.mem_singleton.1 htime ▸ Int.le_refl _
  | exhausted ahead _ notLater later hnext =>
    subst hnext
    simp only [List.mem_append, List.mem_cons, List.not_mem_nil, or_false] at htime
    rcases htime with (htime | rfl | htime) | rfl
    · exact Int.le_of_lt (Int.lt_trans (ahead.lt_last time htime) later)
    · exact Int.le_of_lt later
    · exact Int.le_of_lt (Int.lt_of_le_of_lt (notLater time htime) later)
    · exact Int.le_refl _

section Cons

variable {fault : Fault} {issued : Int64}

theorem keys_cons_of_error (h : call.answer = .error fault) :
    keys (call :: calls) = keys calls := by
  simp [keys, h, Except.toOption]

theorem keys_cons_of_ok (h : call.answer = .ok issued) :
    keys (call :: calls) = issued :: keys calls := by
  simp [keys, h, Except.toOption]

theorem drawn_cons_of_error (h : call.answer = .error fault) :
    drawn (call :: calls) = drawn calls := by
  simp [drawn, h, Except.toOption]

theorem drawn_cons_of_ok (h : call.answer = .ok issued) :
    drawn (call :: calls) = call.after :: drawn calls := by
  simp [drawn, h, Except.toOption]

theorem drawn_append (earlier later : List Call) :
    drawn (earlier ++ later) = drawn earlier ++ drawn later :=
  List.filterMap_append

end Cons

theorem History.keys_eq (history : History settings state calls final) :
    keys calls = (drawn calls).map (key settings) := by
  induction history with
  | nil => rfl
  | cons made _ _ ih =>
    rcases (Call.isMade_iff.1 made).cases with ⟨fault, hanswer, _⟩ | ⟨hanswer, _⟩
    · rw [keys_cons_of_error hanswer, drawn_cons_of_error hanswer, ih]
    · rw [keys_cons_of_ok hanswer, drawn_cons_of_ok hanswer, List.map_cons, ih]

/-- The states that keys are drawn from follow the first state and each other. -/
theorem History.before (history : History settings state calls final) :
    (state :: drawn calls).Pairwise Before := by
  induction history with
  | nil => exact List.pairwise_singleton _ _
  | cons made begins _ ih =>
    subst begins
    rcases (Call.isMade_iff.1 made).cases with ⟨fault, hanswer, _, hafter⟩ | ⟨hanswer, hbefore, _⟩
    · rwa [drawn_cons_of_error hanswer, ← hafter]
    · rw [drawn_cons_of_ok hanswer]
      refine List.pairwise_cons.2 ⟨fun s hs => ?_, ih⟩
      rcases List.mem_cons.1 hs with rfl | hs
      · exact hbefore
      · exact hbefore.trans ((List.pairwise_cons.1 ih).1 s hs)

/-- While the clock is within bounds, the keys lose nothing of the states they are drawn from. -/
theorem Call.IsMade.drawable (made : call.IsMade settings)
    (hclock : ∀ now ∈ call.readings, 0 ≤ now ∧ now < horizon) {issued : Int64}
    (hanswer : call.answer = .ok issued) :
    issued = key settings call.after ∧ Drawable call.after := by
  rcases (Call.isMade_iff.1 made).cases with ⟨fault, herror, _⟩ | ⟨hok, _, hlast, hsequence⟩
  · cases hanswer.symm.trans herror
  · obtain ⟨hnonneg, hlt⟩ := hclock _ hlast
    exact ⟨Except.ok.inj (hanswer.symm.trans hok), hnonneg, hlt, hsequence⟩

theorem History.drawable (history : History settings state calls final)
    (hclock : ∀ now ∈ clockReadings calls, 0 ≤ now ∧ now < horizon) :
    ∀ s ∈ drawn calls, Drawable s := by
  intro s hs
  obtain ⟨call, hcall, hdrawn⟩ := List.mem_filterMap.1 hs
  obtain ⟨issued, hissued, rfl⟩ := Option.map_eq_some_iff.1 hdrawn
  have hwithin : ∀ now ∈ call.readings, 0 ≤ now ∧ now < horizon := fun now hnow =>
    hclock now (mem_clockReadings.2 ⟨call, hcall, hnow⟩)
  exact ((history.isMade hcall).drawable hwithin
    (Sharding.Outcome.eq_ok_of_toOption hissued)).2

end Sharding.Key.Snowflake
