import Mathlib.Tactic.NormNum
import Sharding.Proofs.Key.Recombination
/-!
# Sequence numbers

The keys of a millisecond are numbered one after another. Where the numbers begin tells how the
millisecond was entered: at zero when the sequence of the one before it was used up, else at an
offset that moves on by one from each such millisecond to the next, and back to zero past its
greatest value.
-/

namespace Sharding.Key.Snowflake

variable {settings : Settings} {state next final : State} {taken : List Int}
variable {answer : Except Fault Int64} {call entering : Call} {calls earlier later : List Call}

/-- The call drew the first key of a millisecond. -/
def Call.enters (call : Call) : Bool :=
  call.before.last < call.after.last

/-- The call met the millisecond of the last key once more when its sequence was used up. -/
def Call.exhausts (call : Call) : Bool :=
  call.readings.contains call.before.last && sequences ≤ call.before.sequence + 1

/-- How many milliseconds were entered without a sequence being used up. -/
def renewals (calls : List Call) : Nat :=
  calls.countP fun call => call.enters && !call.exhausts

/-- The sequence numbers of the keys of a millisecond, in the order in which they were issued. -/
def numbers (calls : List Call) (millis : Int) : List Nat :=
  ((keys calls).filter fun key => (decompose key).millis = millis).map fun key =>
    (decompose key).sequence

/-- The first number of the millisecond that a call enters after the earlier ones. -/
def firstNumber (settings : Settings) (earlier : List Call) (entering : Call) : Nat :=
  if entering.exhausts then 0
  else renewals (earlier ++ [entering]) % (settings.maxOffset + 1)

/-! ## The course of a call -/

/-- What a call makes of the millisecond and the numbers of its state. -/
inductive Call.Course (settings : Settings) (call : Call) : Prop where
  | failed {fault : Fault} (hanswer : call.answer = .error fault)
      (hafter : call.after = call.before)
  | continued {issued : Int64} (hanswer : call.answer = .ok issued)
      (hlast : call.after.last = call.before.last)
      (hsequence : call.after.sequence = call.before.sequence + 1)
      (hoffset : call.after.offset = call.before.offset)
  | renewed {issued : Int64} (hanswer : call.answer = .ok issued) (henters : call.enters)
      (hnew : call.exhausts = false) (hsequence : call.after.sequence = call.after.offset)
      (hoffset : call.after.offset = nextOffset settings call.before)
  | exhausted {issued : Int64} (hanswer : call.answer = .ok issued) (henters : call.enters)
      (hused : call.exhausts) (hsequence : call.after.sequence = 0)
      (hoffset : call.after.offset = call.before.offset)

theorem Call.enters_iff : call.enters ↔ call.before.last < call.after.last :=
  decide_eq_true_iff

theorem Call.IsMade.course (made : call.IsMade settings) : call.Course settings := by
  obtain ⟨before, readings, answer, after⟩ := call
  have htakes : Takes settings before readings answer after := Call.isMade_iff.1 made
  cases htakes with
  | refused => exact .failed rfl rfl
  | refusedAgain => exact .failed rfl rfl
  | continued _ _ hnext =>
    subst hnext
    exact .continued rfl rfl rfl rfl
  | @renewed overlooked now _ ahead later hnext =>
    subst hnext
    have hnew : before.last ∉ overlooked ++ [now] := by
      intro hmem
      rcases List.mem_append.1 hmem with hmem | hmem
      · exact absurd (ahead.lt_last _ hmem) (Int.lt_irrefl _)
      · exact absurd (List.mem_singleton.1 hmem) (Int.ne_of_lt later)
    refine .renewed rfl (Call.enters_iff.2 later) ?_ rfl rfl
    simp [Call.exhausts, hnew]
  | exhausted _ full _ later hnext =>
    subst hnext
    refine .exhausted rfl (Call.enters_iff.2 later) ?_ rfl rfl
    simp [Call.exhausts, full]

theorem Takes.last_le (h : Takes settings state taken answer next) : state.last ≤ next.last := by
  rcases h.cases with ⟨_, _, _, rfl⟩ | ⟨_, hbefore, _⟩
  · exact Int.le_refl _
  · unfold Before at hbefore
    omega

/-- A later time is the first one among the readings of a call that is later than the last one. -/
theorem Takes.find?_later (h : Takes settings state taken answer next)
    (later : state.last < next.last) : taken.find? (state.last < ·) = some next.last := by
  have hskip : ∀ {overlooked : List Int}, Overlooked settings state overlooked →
      overlooked.find? (state.last < ·) = none := by
    intro overlooked ahead
    refine List.find?_eq_none.2 fun time htime => ?_
    simpa using Int.le_of_lt (ahead.lt_last time htime)
  cases h with
  | refused => exact absurd later (Int.lt_irrefl _)
  | refusedAgain => exact absurd later (Int.lt_irrefl _)
  | continued _ _ hnext =>
    subst hnext
    exact absurd later (Int.lt_irrefl _)
  | renewed ahead _ hnext =>
    subst hnext
    simp [List.find?_append, hskip ahead, later]
  | @exhausted _ still _ _ ahead _ notLater _ hnext =>
    subst hnext
    have hstill : still.find? (state.last < ·) = none :=
      List.find?_eq_none.2 fun time htime => by simpa using notLater time htime
    simp [List.find?_append, hskip ahead, hstill, later]

/-! ## Times in a history -/

theorem History.last_le (history : History settings state calls final) :
    state.last ≤ final.last := by
  induction history with
  | nil => exact Int.le_refl _
  | cons made begins _ ih =>
    subst begins
    exact Int.le_trans (Call.isMade_iff.1 made).last_le ih

theorem History.readings_le (history : History settings state calls final) :
    ∀ now ∈ clockReadings calls, now ≤ final.last := by
  induction history with
  | nil => exact List.forall_mem_nil _
  | cons made begins rest ih =>
    intro now hnow
    rw [clockReadings_cons] at hnow
    rcases List.mem_append.1 hnow with hnow | hnow
    · exact Int.le_trans ((Call.isMade_iff.1 made).le_last now hnow) rest.last_le
    · exact ih now hnow

theorem History.last_mem_readings (history : History settings state calls final) {s : State}
    (hs : s ∈ drawn calls) : s.last ∈ clockReadings calls := by
  obtain ⟨call, hcall, hdrawn⟩ := List.mem_filterMap.1 hs
  obtain ⟨issued, hissued, rfl⟩ := Option.map_eq_some_iff.1 hdrawn
  refine mem_clockReadings.2 ⟨call, hcall, ?_⟩
  rcases (Call.isMade_iff.1 (history.isMade hcall)).cases with ⟨_, herror, _⟩ | ⟨_, _, hlast, _⟩
  · rw [herror] at hissued
    cases hissued
  · exact hlast

theorem History.last_le_of_drawn (history : History settings state calls final) {s : State}
    (hs : s ∈ drawn calls) : state.last ≤ s.last := by
  have hbefore := (List.pairwise_cons.1 history.before).1 s hs
  unfold Before at hbefore
  omega

/-- Every millisecond that keys carry was entered by some call. -/
theorem History.exists_enters (history : History settings state calls final) {s : State}
    (hs : s ∈ drawn calls) (hlater : state.last < s.last) :
    ∃ earlier entering later, calls = earlier ++ entering :: later ∧ entering.enters ∧
      entering.after.last = s.last := by
  induction history with
  | nil => cases hs
  | @cons state final call calls made begins rest ih =>
    subst begins
    by_cases hafter : call.after.last < s.last
    · have hrest : s ∈ drawn calls := by
        rcases (Call.isMade_iff.1 made).cases with ⟨_, herror, _⟩ | ⟨hok, _⟩
        · rwa [drawn_cons_of_error herror] at hs
        · rw [drawn_cons_of_ok hok] at hs
          rcases List.mem_cons.1 hs with rfl | hs
          · exact absurd hafter (Int.lt_irrefl _)
          · exact hs
      obtain ⟨earlier, entering, later, rfl, henters, hlast⟩ := ih hrest hafter
      exact ⟨call :: earlier, entering, later, rfl, henters, hlast⟩
    · have hle : call.after.last ≤ s.last := by
        rcases (Call.isMade_iff.1 made).cases with ⟨_, herror, _, hsame⟩ | ⟨hok, _⟩
        · exact hsame ▸ Int.le_of_lt hlater
        · rw [drawn_cons_of_ok hok] at hs
          rcases List.mem_cons.1 hs with rfl | hs
          · exact Int.le_refl _
          · exact rest.last_le_of_drawn hs
      have hlast : call.after.last = s.last := Int.le_antisymm hle (Int.not_lt.1 hafter)
      exact ⟨[], call, calls, rfl, Call.enters_iff.2 (hlast ▸ hlater), hlast⟩

/-! ## Numbers in a history -/

theorem nextOffset_eq {entered : Nat} (h : state.offset = entered % (settings.maxOffset + 1)) :
    nextOffset settings state = (entered + 1) % (settings.maxOffset + 1) := by
  have hmod : (entered + 1) % (settings.maxOffset + 1) =
      (state.offset + 1) % (settings.maxOffset + 1) := by
    rw [h, Nat.mod_add_mod]
  have hlt : state.offset < settings.maxOffset + 1 := h ▸ Nat.mod_lt _ (Nat.succ_pos _)
  rw [hmod, nextOffset]
  split
  · next hmax =>
    have heq : state.offset + 1 = settings.maxOffset + 1 := by omega
    rw [heq, Nat.mod_self]
  · rw [Nat.mod_eq_of_lt (by omega)]

theorem renewals_append (earlier later : List Call) :
    renewals (earlier ++ later) = renewals earlier + renewals later :=
  List.countP_append

/-- The offset counts the milliseconds that were entered without a sequence being used up. -/
theorem Call.IsMade.offset_eq (made : call.IsMade settings) {entered : Nat}
    (h : call.before.offset = entered % (settings.maxOffset + 1)) :
    call.after.offset = (entered + renewals [call]) % (settings.maxOffset + 1) := by
  cases made.course with
  | failed _ hafter =>
    have hnone : renewals [call] = 0 := by simp [renewals, Call.enters, hafter]
    rw [hnone, Nat.add_zero, hafter, h]
  | continued _ hlast _ hoffset =>
    have hnone : renewals [call] = 0 := by simp [renewals, Call.enters, hlast]
    rw [hnone, Nat.add_zero, hoffset, h]
  | renewed _ henters hnew _ hoffset =>
    have hone : renewals [call] = 1 := by simp [renewals, henters, hnew]
    rw [hone, hoffset, nextOffset_eq h]
  | exhausted _ _ hused _ hoffset =>
    have hnone : renewals [call] = 0 := by simp [renewals, hused]
    rw [hnone, Nat.add_zero, hoffset, h]

theorem History.offset_eq (history : History settings state calls final) {entered : Nat}
    (h : state.offset = entered % (settings.maxOffset + 1)) :
    final.offset = (entered + renewals calls) % (settings.maxOffset + 1) := by
  induction history generalizing entered with
  | nil => exact h
  | @cons state final call calls made begins _ ih =>
    subst begins
    have hcons : renewals (call :: calls) = renewals [call] + renewals calls :=
      renewals_append [call] calls
    rw [hcons, ← Nat.add_assoc]
    exact ih (made.offset_eq h)

theorem History.numbers_eq (history : History settings state calls final)
    (hclock : ∀ now ∈ clockReadings calls, 0 ≤ now ∧ now < horizon) (millis : Int) :
    numbers calls millis = ((drawn calls).filter (·.last = millis)).map (·.sequence) := by
  have hdrawable := history.drawable hclock
  rw [numbers, history.keys_eq, filter_map_key settings hdrawable, List.map_map]
  refine List.map_congr_left fun s hs => ?_
  simp [decompose_key settings (hdrawable s (List.mem_filter.1 hs).1)]

theorem filter_eq_nil_of_lt {states : List State} {millis : Int}
    (h : ∀ s ∈ states, millis < s.last) : states.filter (·.last = millis) = [] := by
  refine List.filter_eq_nil_iff.2 fun s hs => ?_
  simpa using (Int.ne_of_lt (h s hs)).symm

/-- Until the next millisecond the numbers go on from that of the first state. -/
theorem History.exists_range' (history : History settings state calls final)
    (hsequence : state.sequence < sequences) :
    ∃ count, ((drawn calls).filter (·.last = state.last)).map (·.sequence) =
        List.range' (state.sequence + 1) count ∧ state.sequence + 1 + count ≤ sequences := by
  induction history with
  | nil => exact ⟨0, rfl, hsequence⟩
  | @cons state final call calls made begins rest ih =>
    subst begins
    have hentered (henters : call.enters) (s : State) (hs : s ∈ call.after :: drawn calls) :
        call.before.last < s.last := by
      rcases List.mem_cons.1 hs with rfl | hs
      · exact Call.enters_iff.1 henters
      · exact Int.lt_of_lt_of_le (Call.enters_iff.1 henters) (rest.last_le_of_drawn hs)
    cases made.course with
    | failed hanswer hafter =>
      rw [drawn_cons_of_error hanswer, ← hafter]
      exact ih (hafter ▸ hsequence)
    | continued hanswer hlast hnumber _ =>
      have hroom : call.after.sequence < sequences := by
        rcases (Call.isMade_iff.1 made).cases with ⟨_, herror, _⟩ | ⟨_, _, _, hroom⟩
        · cases hanswer.symm.trans herror
        · exact hroom
      obtain ⟨count, hcount, hle⟩ := ih hroom
      rw [hlast, hnumber] at hcount
      refine ⟨count + 1, ?_, by omega⟩
      rw [drawn_cons_of_ok hanswer, List.filter_cons_of_pos (by simpa using hlast), List.map_cons,
        hcount, hnumber, List.range'_succ]
    | renewed hanswer henters =>
      rw [drawn_cons_of_ok hanswer, filter_eq_nil_of_lt (hentered henters)]
      exact ⟨0, rfl, hsequence⟩
    | exhausted hanswer henters =>
      rw [drawn_cons_of_ok hanswer, filter_eq_nil_of_lt (hentered henters)]
      exact ⟨0, rfl, hsequence⟩

/-- The first number of a millisecond that a call enters from a reachable state. -/
theorem firstNumber_eq (reached : History settings .initial earlier entering.before)
    (made : entering.IsMade settings) (henters : entering.enters) :
    entering.after.sequence = firstNumber settings earlier entering := by
  have hoffset : entering.after.offset =
      renewals (earlier ++ [entering]) % (settings.maxOffset + 1) := by
    rw [renewals_append, ← Nat.zero_add (renewals earlier)]
    exact made.offset_eq (reached.offset_eq (Nat.zero_mod _).symm)
  unfold firstNumber
  cases made.course with
  | failed _ hafter =>
    rw [Call.enters_iff, hafter] at henters
    exact absurd henters (Int.lt_irrefl _)
  | continued _ hlast =>
    rw [Call.enters_iff, hlast] at henters
    exact absurd henters (Int.lt_irrefl _)
  | renewed _ _ hnew hsequence => rw [if_neg (by simp [hnew]), hsequence, hoffset]
  | exhausted _ _ hused hsequence => rw [if_pos hused, hsequence]

theorem firstNumber_le (settings : Settings) (earlier : List Call) (entering : Call) :
    firstNumber settings earlier entering ≤ settings.maxOffset := by
  unfold firstNumber
  split
  · exact Nat.zero_le _
  · exact Nat.le_of_lt_succ (Nat.mod_lt _ (Nat.succ_pos _))

/-- The first reading of the clock that is later than the millisecond before is the one that a call
enters. -/
theorem History.find?_entered
    (history : History settings state (earlier ++ entering :: later) final)
    (henters : entering.enters) :
    (clockReadings (earlier ++ entering :: later)).find? (entering.before.last < ·) =
      some entering.after.last := by
  obtain ⟨middle, hearlier, hrest⟩ := history_append.1 history
  cases hrest with
  | cons made begins _ =>
    subst begins
    have hskip : (clockReadings earlier).find? (entering.before.last < ·) = none :=
      List.find?_eq_none.2 fun now hnow => by simpa using hearlier.readings_le now hnow
    have hfound := (Call.isMade_iff.1 made).find?_later (Call.enters_iff.1 henters)
    rw [clockReadings_append, clockReadings_cons, List.find?_append, List.find?_append, hskip,
      hfound]
    rfl

theorem History.numbers_entered
    (history : History settings .initial (earlier ++ entering :: later) final)
    (hclock : ∀ now ∈ clockReadings (earlier ++ entering :: later), 0 ≤ now ∧ now < horizon)
    (henters : entering.enters) :
    ∃ count, numbers (earlier ++ entering :: later) entering.after.last =
        List.range' (firstNumber settings earlier entering) (count + 1) ∧
      firstNumber settings earlier entering + count + 1 ≤ sequences := by
  rw [history.numbers_eq hclock, drawn_append, List.filter_append, List.map_append]
  obtain ⟨middle, hearlier, hrest⟩ := history_append.1 history
  cases hrest with
  | cons made begins rest =>
    subst begins
    rcases (Call.isMade_iff.1 made).cases with ⟨_, _, _, hafter⟩ | ⟨hok, _, _, hsequence⟩
    · rw [Call.enters_iff, hafter] at henters
      exact absurd henters (Int.lt_irrefl _)
    · -- the earlier keys carry earlier milliseconds
      have hnone : (drawn earlier).filter (·.last = entering.after.last) = [] := by
        refine List.filter_eq_nil_iff.2 fun s hs => ?_
        have hle := hearlier.readings_le _ (hearlier.last_mem_readings hs)
        simpa using Int.ne_of_lt (Int.lt_of_le_of_lt hle (Call.enters_iff.1 henters))
      obtain ⟨count, hcount, hle⟩ := rest.exists_range' hsequence
      rw [← firstNumber_eq hearlier made henters]
      refine ⟨count, ?_, by omega⟩
      rw [hnone, drawn_cons_of_ok hok, List.filter_cons_of_pos (by simp), List.map_cons, hcount,
        List.range'_succ]
      rfl

/-- The keys of each millisecond that a run of calls enters are numbered one after another. The
first number is zero if the sequence of the millisecond before was used up, and else counts, modulo
the offsets, the milliseconds entered without that. -/
theorem numbers_consecutive (history : History settings .initial calls final)
    (hclock : ∀ now ∈ clockReadings calls, 1 ≤ now ∧ now < epoch + 2 ^ 41) :
    (∀ key ∈ keys calls, ∃ earlier entering later, calls = earlier ++ entering :: later ∧
      entering.enters ∧ entering.after.last = (decompose key).millis) ∧
    ∀ earlier entering later, calls = earlier ++ entering :: later → entering.enters →
      (∃ count, numbers calls entering.after.last =
          List.range' (firstNumber settings earlier entering) (count + 1) ∧
        firstNumber settings earlier entering + count ≤ 4095) ∧
      firstNumber settings earlier entering ≤ settings.maxOffset ∧
      (clockReadings calls).find? (entering.before.last < ·) = some entering.after.last := by
  have hwithin : ∀ now ∈ clockReadings calls, 0 ≤ now ∧ now < horizon := fun now hnow =>
    ⟨Int.le_trans (by decide) (hclock now hnow).1, (hclock now hnow).2⟩
  constructor
  · intro issued hissued
    obtain ⟨s, hs, rfl⟩ := List.mem_map.1 (history.keys_eq ▸ hissued)
    have hlater : State.initial.last < s.last :=
      Int.lt_of_lt_of_le (by decide) (hclock _ (history.last_mem_readings hs)).1
    rw [decompose_key settings (history.drawable hwithin s hs)]
    exact history.exists_enters hs hlater
  · rintro earlier entering later rfl henters
    obtain ⟨count, hnumbers, hle⟩ := history.numbers_entered hwithin henters
    exact ⟨⟨count, hnumbers, Nat.le_of_lt_succ hle⟩, firstNumber_le settings earlier entering,
      history.find?_entered henters⟩

/-- On a clock that stands still every number up to the greatest is issued. -/
theorem exists_standing (settings : Settings) (state : State) (count : Nat)
    (hroom : state.sequence + count < sequences) :
    ∃ calls, History settings state calls { state with sequence := state.sequence + count } ∧
      clockReadings calls = List.replicate count state.last := by
  induction count generalizing state with
  | zero => exact ⟨[], .nil, rfl⟩
  | succ count ih =>
    let next : State := { state with sequence := state.sequence + 1 }
    let call : Call := ⟨state, [state.last], .ok (key settings next), next⟩
    have hnow : state.sequence + 1 < sequences := by omega
    have made : call.IsMade settings := Call.isMade_iff.2 (.continued .none hnow rfl)
    have hnext : next.sequence + count = state.sequence + (count + 1) :=
      Nat.succ_add_eq_add_succ _ _
    obtain ⟨calls, history, hreadings⟩ := ih next (hnext ▸ hroom)
    rw [hnext] at history
    refine ⟨call :: calls, .cons made rfl history, ?_⟩
    rw [clockReadings_cons, hreadings]
    rfl

/-- A clock that goes back by too much, stands still until the sequence is used up, and is back by a
little when it is read again. -/
theorem numbers_consecutive_usedUp :
    ∃ earlier entering later final,
      History ⟨0, 1, 3, by decide, by decide⟩ .initial (earlier ++ entering :: later) final ∧
      clockReadings (earlier ++ entering :: later) =
        [3, 7, 2] ++ List.replicate 4095 7 ++ [6, 7, 5, 9, 9] ∧
      entering.enters ∧ entering.exhausts ∧
      (∃ count, numbers (earlier ++ entering :: later) 9 = List.range' 0 (count + 1) ∧
        0 + count ≤ 4095) ∧
      (clockReadings (earlier ++ entering :: later)).find? (7 < ·) = some 9 := by
  let settings : Settings := ⟨0, 1, 3, by decide, by decide⟩
  let begun : List Call :=
    [⟨.initial, [3], .ok (key settings ⟨3, 1, 1⟩), ⟨3, 1, 1⟩⟩,
      ⟨⟨3, 1, 1⟩, [7], .ok (key settings ⟨7, 0, 0⟩), ⟨7, 0, 0⟩⟩,
      ⟨⟨7, 0, 0⟩, [2], .error (.clockBackwards 7 2), ⟨7, 0, 0⟩⟩]
  have hbegun : History settings .initial begun ⟨7, 0, 0⟩ :=
    .cons rfl rfl (.cons rfl rfl (.cons rfl rfl .nil))
  obtain ⟨standing, hstanding, hreadings⟩ := exists_standing settings ⟨7, 0, 0⟩ 4095 (by decide)
  let entering : Call := ⟨⟨7, 4095, 0⟩, [6, 7, 5, 9], .ok (key settings ⟨9, 0, 0⟩), ⟨9, 0, 0⟩⟩
  let later : List Call := [⟨⟨9, 0, 0⟩, [9], .ok (key settings ⟨9, 1, 0⟩), ⟨9, 1, 0⟩⟩]
  have hlater : History settings ⟨7, 4095, 0⟩ (entering :: later) ⟨9, 1, 0⟩ :=
    .cons rfl rfl (.cons rfl rfl .nil)
  have history : History settings .initial (begun ++ standing ++ entering :: later) ⟨9, 1, 0⟩ :=
    history_append.2 ⟨_, history_append.2 ⟨_, hbegun, hstanding⟩, hlater⟩
  have hall : clockReadings (begun ++ standing ++ entering :: later) =
      [3, 7, 2] ++ List.replicate 4095 7 ++ [6, 7, 5, 9, 9] := by
    rw [clockReadings_append, clockReadings_append, hreadings]
    rfl
  have hclock : ∀ now ∈ clockReadings (begun ++ standing ++ entering :: later),
      1 ≤ now ∧ now < epoch + 2 ^ 41 := by
    intro now hnow
    rw [hall] at hnow
    simp only [List.mem_append, List.mem_replicate, List.mem_cons, List.not_mem_nil,
      or_false] at hnow
    have hsmall : 1 ≤ now ∧ now ≤ 9 := by omega
    exact ⟨hsmall.1, Int.lt_of_le_of_lt hsmall.2 (by norm_num [epoch])⟩
  have hfirst : firstNumber settings (begun ++ standing) entering = 0 := if_pos (by decide)
  obtain ⟨hnumbers, _, hentered⟩ :=
    (numbers_consecutive history hclock).2 _ entering later rfl (by decide)
  rw [hfirst] at hnumbers
  exact ⟨begun ++ standing, entering, later, _, history, hall, by decide, by decide, hnumbers,
    hentered⟩

end Sharding.Key.Snowflake
