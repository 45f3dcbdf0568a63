import Sharding.Inline.Expansion
import Sharding.Proofs.Outcome
/-!
# More variables in scope

A body that has a value under some bindings looked up only variables that they bind. Under bindings
that keep these and add others it has the same value, and a template expands to the same names.
-/

namespace Sharding.Inline

open Outcome

/-- Every variable that is bound in `narrow` has the same datum in `wide`. -/
def Within (narrow wide : Bindings) : Prop :=
  ∀ name datum, narrow.lookup name = some datum → wide.lookup name = some datum

variable {narrow wide : Bindings}

mutual

theorem Expr.eval_within (h : Within narrow wide) {datum : Datum} :
    (expr : Expr) → expr.eval narrow = .ok datum → expr.eval wide = .ok datum
  | .int n, heval => by rwa [Expr.eval] at heval ⊢
  | .text s, heval => by rwa [Expr.eval] at heval ⊢
  | .variable name, heval => by
    rw [Expr.eval] at heval ⊢
    cases hlookup : narrow.lookup name with
    | none =>
      rw [hlookup] at heval
      cases heval
    | some found =>
      rw [hlookup] at heval
      rw [h name found hlookup]
      exact heval
  | .negate operand, heval => by
    rw [Expr.eval] at heval ⊢
    obtain ⟨a, ha, heval⟩ := bind_eq_ok.1 heval
    exact bind_eq_ok.2 ⟨a, Expr.eval_within h operand ha, heval⟩
  | .binary op left right, heval => by
    rw [Expr.eval] at heval ⊢
    obtain ⟨a, ha, heval⟩ := bind_eq_ok.1 heval
    obtain ⟨b, hb, heval⟩ := bind_eq_ok.1 heval
    exact bind_eq_ok.2 ⟨a, Expr.eval_within h left ha,
      bind_eq_ok.2 ⟨b, Expr.eval_within h right hb, heval⟩⟩
  | .range first last, heval => by
    rw [Expr.eval] at heval ⊢
    obtain ⟨a, ha, heval⟩ := bind_eq_ok.1 heval
    obtain ⟨b, hb, heval⟩ := bind_eq_ok.1 heval
    exact bind_eq_ok.2 ⟨a, Expr.eval_within h first ha,
      bind_eq_ok.2 ⟨b, Expr.eval_within h last hb, heval⟩⟩
  | .list items, heval => by
    rw [Expr.eval] at heval ⊢
    obtain ⟨data, hdata, heval⟩ := map_eq_ok.1 heval
    exact map_eq_ok.2 ⟨data, Expr.evalAll_within h items hdata, heval⟩
  | .broken read problem, heval => by
    rw [Expr.eval] at heval
    obtain ⟨_, _, heval⟩ := bind_eq_ok.1 heval
    cases heval

theorem Expr.evalAll_within (h : Within narrow wide) {data : List Datum} :
    (exprs : List Expr) → Expr.evalAll narrow exprs = .ok data →
      Expr.evalAll wide exprs = .ok data
  | [], heval => by rwa [Expr.evalAll] at heval ⊢
  | expr :: exprs, heval => by
    rw [Expr.evalAll] at heval ⊢
    obtain ⟨a, ha, heval⟩ := bind_eq_ok.1 heval
    obtain ⟨rest, hrest, heval⟩ := bind_eq_ok.1 heval
    exact bind_eq_ok.2 ⟨a, Expr.eval_within h expr ha,
      bind_eq_ok.2 ⟨rest, Expr.evalAll_within h exprs hrest, heval⟩⟩

end

theorem evaluate_within (h : Within narrow wide) {body : List Char} {datum : Datum}
    (heval : evaluate body narrow = .ok datum) : evaluate body wide = .ok datum := by
  obtain ⟨tokens, htokens, heval⟩ := bind_eq_ok.1 heval
  exact bind_eq_ok.2 ⟨tokens, htokens, Expr.eval_within h _ heval⟩

theorem alternatives_within (h : Within narrow wide) {segment : Segment} {names : List String}
    (hnames : segment.alternatives narrow = .ok names) :
    segment.alternatives wide = .ok names := by
  cases segment with
  | literal text => exact hnames
  | placeholder body =>
    simp only [Segment.alternatives] at hnames ⊢
    cases heval : evaluate body narrow with
    | error problem =>
      rw [heval] at hnames
      cases hnames
    | ok datum =>
      rw [heval] at hnames
      rw [evaluate_within h heval]
      exact hnames

theorem expandFrom_within (h : Within narrow wide) {template : String} {segments : List Segment}
    {names found : List String} (hfound : expandFrom template narrow names segments = .ok found) :
    expandFrom template wide names segments = .ok found := by
  induction segments generalizing names with
  | nil => exact hfound
  | cons segment segments ih =>
    rw [expandFrom] at hfound ⊢
    obtain ⟨endings, hendings, hfound⟩ := bind_eq_ok.1 hfound
    refine bind_eq_ok.2 ⟨endings, alternatives_within h hendings, ?_⟩
    by_cases hmany : names.length * endings.length > maxNames
    · rw [if_pos hmany] at hfound
      cases hfound
    · rw [if_neg hmany] at hfound ⊢
      exact ih hfound

theorem expandOne_within (h : Within narrow wide) {template name : String}
    (hname : expandOne template narrow = .ok name) : expandOne template wide = .ok name := by
  obtain ⟨names, hnames, hone⟩ := bind_eq_ok.1 hname
  refine bind_eq_ok.2 ⟨names, ?_, hone⟩
  unfold expand expandTrimmed at hnames ⊢
  split at hnames
  · cases hnames
  · exact expandFrom_within h hnames

end Sharding.Inline
