import Sharding.Proofs.Algorithm.Targets
/-!
# How built-in algorithms fail

Once its settings were found to be in order, a built-in algorithm fails for one kind of fault only:
one that places numbers refuses values, one that evaluates an expression blames the expression.
-/

namespace Sharding.Algorithm

open Outcome

theorem kind_of_text {props : Properties} {algorithm key : String} {fault : Fault}
    (h : props.text algorithm key = .error fault) : fault.kind = .configuration := by
  unfold Properties.text at h
  split at h
  · cases h
  · cases h
    rfl

theorem kind_of_namedTarget {available : List String} {expression : String}
    {bindings : Inline.Bindings} {fault : Fault}
    (h : namedTarget available expression bindings = .error fault) :
    fault.kind = .configuration := by
  unfold namedTarget at h
  split at h
  · cases h
  · cases h
    rfl

theorem kind_of_integer {type : String} {v : Value} {fault : Fault}
    (h : integer type v = .error fault) : fault.kind = .value := by
  unfold integer at h
  split at h
  · cases h
  · cases h
    rfl

theorem kind_of_byPlace {type : String} {props : Properties}
    {place : Value → Int → Except Fault Nat} {available : List String} {point : Point}
    {fault : Fault} (hcheck : (byPlace type props place).check = .ok ())
    (hplace : ∀ {count fault}, place point.value count = .error fault → fault.kind = .value)
    (h : (byPlace type props place).precise available point = .error fault) :
    fault.kind = .value := by
  obtain ⟨count, hcount, _⟩ := map_eq_ok.1 hcheck
  rcases bind_eq_error.1 h with hsettings | ⟨_, _, h⟩
  · cases hcount.symm.trans hsettings
  · exact hplace (map_eq_error.1 h)

section Partition

variable {type : String} {props : Properties} {table : Except Fault (List Partition)}
variable {available : List String} {fault : Fault}

theorem kind_of_byPartition {point : Point}
    (hcheck : (byPartition type props table).check = .ok ())
    (h : (byPartition type props table).precise available point = .error fault) :
    fault.kind = .value := by
  obtain ⟨partitions, htable, _⟩ := map_eq_ok.1 hcheck
  rcases bind_eq_error.1 h with hsettings | ⟨_, _, h⟩
  · cases htable.symm.trans hsettings
  · rcases bind_eq_error.1 h with hinteger | ⟨_, _, h⟩
    · exact kind_of_integer hinteger
    · cases h

theorem kind_of_range_byPartition {span : Span}
    (hcheck : (byPartition type props table).check = .ok ())
    (h : (byPartition type props table).range available span = .error fault) :
    fault.kind = .value := by
  obtain ⟨partitions, htable, _⟩ := map_eq_ok.1 hcheck
  rcases bind_eq_error.1 h with hsettings | ⟨_, _, h⟩
  · cases htable.symm.trans hsettings
  · split at h <;> cases h
    rfl

theorem exists_range_byPartition {span : Span}
    (hcheck : (byPartition type props table).check = .ok ()) (hspan : span.interval.IsNumeric) :
    ∃ names, (byPartition type props table).range available span = .ok names := by
  obtain ⟨partitions, htable, _⟩ := map_eq_ok.1 hcheck
  obtain ⟨found, hfound⟩ := Interval.exists_integers hspan
  cases found with
  | none => exact ⟨[], bind_eq_ok.2 ⟨partitions, htable, by rw [hfound]⟩⟩
  | some ends => exact ⟨_, bind_eq_ok.2 ⟨partitions, htable, by rw [hfound]⟩⟩

end Partition

/-- The kind of fault for which an algorithm fails on values. -/
def Standard.faultKind (a : Standard) : Fault.Kind :=
  if a.type ∈ placingTypes then .value else .configuration

variable {a : Standard} {available : List String} {fault : Fault}

theorem Standard.BuiltIn.kind_of_precise (h : a.BuiltIn) (hcheck : a.check = .ok ()) {point : Point}
    (hfault : a.precise available point = .error fault) : fault.kind = a.faultKind := by
  cases h with
  | inline props =>
    rcases bind_eq_error.1 hfault with hsettings | ⟨_, _, hfault⟩
    · exact kind_of_text hsettings
    · exact kind_of_namedTarget hfault
  | modulo props =>
    apply kind_of_byPlace hcheck _ hfault
    intro count fault hplace
    rcases bind_eq_error.1 hplace with hinteger | ⟨_, _, hplace⟩
    · exact kind_of_integer hinteger
    · cases hplace
  | hashModulo props => exact kind_of_byPlace hcheck (fun hplace => nomatch hplace) hfault
  | fixedRange props => exact kind_of_byPartition hcheck hfault
  | listedRange props => exact kind_of_byPartition hcheck hfault

theorem Standard.BuiltIn.kind_of_range (h : a.BuiltIn) (hcheck : a.check = .ok ())
    (htype : a.type ∈ placingTypes) {span : Span}
    (hfault : a.range available span = .error fault) : fault.kind = .value := by
  cases h with
  | inline props => exact absurd htype (show "INLINE" ∉ placingTypes by decide)
  | modulo props => cases hfault
  | hashModulo props => cases hfault
  | fixedRange props => exact kind_of_range_byPartition hcheck hfault
  | listedRange props => exact kind_of_range_byPartition hcheck hfault

/-- A range between numbers has targets. -/
theorem Standard.BuiltIn.exists_range (h : a.BuiltIn) (hcheck : a.check = .ok ())
    (htype : a.type ∈ placingTypes) {span : Span} (hspan : span.interval.IsNumeric) :
    ∃ names, a.range available span = .ok names := by
  cases h with
  | inline props => exact absurd htype (show "INLINE" ∉ placingTypes by decide)
  | modulo props => exact ⟨_, rfl⟩
  | hashModulo props => exact ⟨_, rfl⟩
  | fixedRange props => exact exists_range_byPartition hcheck hspan
  | listedRange props => exact exists_range_byPartition hcheck hspan

end Sharding.Algorithm
