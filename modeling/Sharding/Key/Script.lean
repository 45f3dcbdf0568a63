import Sharding.Key.Snowflake
/-!
# Scripted clocks

A clock told in advance by runs of equal readings, however long a run is. Keys drawn from the runs
are those drawn from their readings one by one (`generate_expand`).
-/

namespace Sharding.Key.Snowflake

/-- A time that the clock shows so many times in a row. -/
structure Run where
  now : Int
  times : Nat

def Run.readings (run : Run) : List Int :=
  List.replicate run.times run.now

/-- The readings of all runs, one by one. -/
def expand (runs : List Run) : List Int :=
  runs.flatMap Run.readings

/-- What is left to read: every run counts for its readings and for itself. -/
def remaining : List Run → Nat
  | [] => 0
  | run :: runs => run.times + 1 + remaining runs

/-- The outcome of reading the clock until it is decided, with the runs left over; none if the runs
end before. Once a sequence is used up, what is left of a run makes no difference. -/
def readRuns (settings : Settings) (state : State) (phase : Phase) :
    List Run → Option (Except Fault State × List Run)
  | [] => none
  | ⟨_, 0⟩ :: runs => readRuns settings state phase runs
  | ⟨now, times + 1⟩ :: runs =>
    match read settings state phase now with
    | .waiting .exhausted => readRuns settings state .exhausted runs
    | .waiting phase => readRuns settings state phase (⟨now, times⟩ :: runs)
    | .failed fault => some (.error fault, ⟨now, times⟩ :: runs)
    | .issued state => some (.ok state, ⟨now, times⟩ :: runs)
termination_by runs => remaining runs
decreasing_by all_goals simp only [remaining]; omega

/-- The state between two turns, and the runs that are still to come. -/
structure Script where
  state : State
  runs : List Run

namespace Script

/-- The key of the next turn and the script after it; none if the runs end. A failed turn leaves
the state as it was. -/
def next (settings : Settings) (script : Script) : Option (Except Fault Int64 × Script) :=
  match readRuns settings script.state .start script.runs with
  | none => none
  | some (.error fault, runs) => some (.error fault, ⟨script.state, runs⟩)
  | some (.ok state, runs) => some (.ok (key settings state), ⟨state, runs⟩)

/-- The keys of so many turns, fewer if the runs end. -/
def keys (settings : Settings) (script : Script) : Nat → List (Except Fault Int64)
  | 0 => []
  | count + 1 =>
    match script.next settings with
    | none => []
    | some (key, script) => key :: keys settings script count

/-- The script after so many turns. -/
def skip (settings : Settings) (script : Script) : Nat → Script
  | 0 => script
  | count + 1 =>
    match script.next settings with
    | none => script
    | some (_, script) => skip settings script count

end Script

theorem expand_cons (now : Int) (times : Nat) (runs : List Run) :
    expand (⟨now, times⟩ :: runs) = List.replicate times now ++ expand runs := rfl

/-- Only a time that is not later than the last one finds its sequence used up. -/
theorem le_last_of_exhausted {settings : Settings} {state : State} {phase : Phase} {now : Int}
    (h : read settings state phase now = .waiting .exhausted) : now ≤ state.last := by
  cases phase <;> simp only [read, advance] at h <;> grind

theorem readAll_exhausted_replicate (settings : Settings) {state : State} {now : Int}
    (h : now ≤ state.last) (times : Nat) (readings : List Int) :
    readAll settings state .exhausted (List.replicate times now ++ readings) =
      readAll settings state .exhausted readings := by
  induction times with
  | zero => rfl
  | succ times ih =>
    have still : read settings state .exhausted now = .waiting .exhausted :=
      if_neg (Int.not_lt.2 h)
    simp [List.replicate_succ, readAll, still, ih]

theorem readAll_expand (settings : Settings) (state : State) (phase : Phase) (runs : List Run) :
    readAll settings state phase (expand runs) =
      (readRuns settings state phase runs).map fun (found, left) => (found, expand left) := by
  fun_induction readRuns settings state phase runs with
  | case1 => rfl
  | case2 phase now runs ih => simpa [expand_cons] using ih
  | case3 phase now times runs h ih =>
    rw [expand_cons, List.replicate_succ, List.cons_append, readAll, h]
    simpa [readAll_exhausted_replicate settings (le_last_of_exhausted h)] using ih
  | case4 phase now times runs next _ h ih =>
    rw [expand_cons, List.replicate_succ, List.cons_append, readAll, h]
    simpa [expand_cons] using ih
  | case5 phase now times runs fault h =>
    rw [expand_cons, List.replicate_succ, List.cons_append, readAll, h]
    simp [expand_cons]
  | case6 phase now times runs state h =>
    rw [expand_cons, List.replicate_succ, List.cons_append, readAll, h]
    simp [expand_cons]

theorem generate_expand (settings : Settings) (script : Script) :
    generate settings script.state (expand script.runs) =
      (script.next settings).map fun (key, after) => ⟨key, after.state, expand after.runs⟩ := by
  simp only [generate, Script.next, readAll_expand]
  rcases readRuns settings script.state .start script.runs with _ | ⟨_ | _, _⟩ <;> rfl

end Sharding.Key.Snowflake
