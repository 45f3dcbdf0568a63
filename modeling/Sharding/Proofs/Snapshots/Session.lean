import Sharding.Proofs.Rule.Routing
import Sharding.Proofs.Snapshots.Places
/-!
# Sessions

A session reloads its rule, holds snapshots, and calls the current one or one that it holds, in any
order. All that a step can do is told by its effect (`step_effect`). By induction over the steps,
the replies of each snapshot are those of a rule of its own, on which nothing else was called.
-/

namespace Sharding

/-- What a rule is built from. -/
structure Request where
  config : Configuration.Rule
  dataSources : List String

/-- A call on a rule. What it may read from the clock comes with it. -/
inductive Call where
  | route (table : String) (predicates : List Predicate) (hints : Hints)
  | generateKey (table : String) (readings : List Int)

/-- The nodes of a route, or a key with the readings it left over, none if it needs more of them. -/
inductive Reply where
  | nodes (found : Except Fault (List Node))
  | key (issued : Option (Except Fault Int64 × List Int))

/-- The current snapshot, or the one that was held as the first, the second and so on. -/
inductive Handle where
  | current
  | held (index : Nat)

inductive Step where
  | reload (request : Request)
  | hold
  | call (call : Call) (handle : Handle)

/-- The answer to a step. A reply tells the place of the snapshot that gave it. -/
inductive Answer where
  | reload (outcome : Except Fault Unit)
  | hold
  | reply (place : Nat) (reply : Reply)
  | nothingHeld

/-- The snapshots with the places of those that are held. -/
structure Session where
  snapshots : Snapshots
  held : List Nat

def Request.build (request : Request) (catalog : Catalog) : Except Fault Rule :=
  Rule.build catalog request.config request.dataSources

namespace Snapshot

/-- A call on a snapshot by itself. -/
def ask (snapshot : Snapshot) : Call → Reply × Snapshot
  | .route table predicates hints => (.nodes (snapshot.rule.route table predicates hints), snapshot)
  | .generateKey table readings =>
    match snapshot.rule.generateKey snapshot.memory readings table with
    | none => (.key none, snapshot)
    | some turn => (.key (some (turn.key, turn.readings)), { snapshot with memory := turn.state })

/-- The replies to calls made one after another on a snapshot by itself, and what it becomes. -/
def replay (snapshot : Snapshot) : List Call → List Reply × Snapshot
  | [] => ([], snapshot)
  | call :: calls =>
    let (reply, next) := snapshot.ask call
    let (replies, last) := next.replay calls
    (reply :: replies, last)

@[simp]
theorem rule_ask (snapshot : Snapshot) (call : Call) :
    (snapshot.ask call).2.rule = snapshot.rule := by
  cases call with
  | route => rfl
  | generateKey table readings =>
    simp only [ask]
    cases snapshot.rule.generateKey snapshot.memory readings table <;> rfl

@[simp]
theorem rule_replay (snapshot : Snapshot) (calls : List Call) :
    (snapshot.replay calls).2.rule = snapshot.rule := by
  induction calls generalizing snapshot with
  | nil => rfl
  | cons call calls ih => exact (ih _).trans (rule_ask snapshot call)

theorem replay_concat (snapshot : Snapshot) (calls : List Call) (call : Call) :
    snapshot.replay (calls ++ [call]) =
      ((snapshot.replay calls).1 ++ [((snapshot.replay calls).2.ask call).1],
        ((snapshot.replay calls).2.ask call).2) := by
  induction calls generalizing snapshot with
  | nil => rfl
  | cons first calls ih => simp only [List.cons_append, replay, ih]

end Snapshot

/-- A call on the snapshot at a place; none if there is no such place. -/
def Snapshots.ask (snapshots : Snapshots) (place : Nat) (call : Call) :
    Option (Reply × Snapshots) :=
  (snapshots.at? place).map fun snapshot =>
    match call with
    | .route table predicates hints =>
      (.nodes (snapshot.rule.route table predicates hints), snapshots)
    | .generateKey table readings =>
      match snapshots.generateKey place readings table with
      | none => (.key none, snapshots)
      | some turn => (.key (some (turn.key, turn.readings)), turn.state)

/-- A snapshot among others replies as it does by itself, and becomes what it does by itself. -/
theorem Snapshots.ask_of_at? {snapshots : Snapshots} {place : Nat} {snapshot : Snapshot}
    (found : snapshots.at? place = some snapshot) (call : Call) :
    ∃ next, snapshots.ask place call = some ((snapshot.ask call).1, next) ∧
      snapshots.Replaces place (snapshot.ask call).2 next := by
  cases call with
  | route table predicates hints =>
    exact ⟨snapshots, by rw [ask, found]; rfl, replaces_self found⟩
  | generateKey table readings =>
    simp only [ask, found, Option.map_some, generateKey_of_at? found, Snapshot.ask]
    cases snapshot.rule.generateKey snapshot.memory readings table with
    | none => exact ⟨snapshots, rfl, replaces_self found⟩
    | some turn => exact ⟨_, rfl, replaces_remember found turn.state⟩

namespace Session

/-- The place of a snapshot; none if nothing is held under the index. -/
def place? (session : Session) : Handle → Option Nat
  | .current => some session.snapshots.currentPlace
  | .held index => session.held[index]?

def step (session : Session) : Step → Answer × Session
  | .reload request =>
    match session.snapshots.reload request.config request.dataSources with
    | .error fault => (.reload (.error fault), session)
    | .ok snapshots => (.reload (.ok ()), { session with snapshots })
  | .hold => (.hold, { session with held := session.held ++ [session.snapshots.currentPlace] })
  | .call call handle =>
    match session.place? handle with
    | none => (.nothingHeld, session)
    | some place =>
      match session.snapshots.ask place call with
      | none => (.nothingHeld, session)
      | some (reply, snapshots) => (.reply place reply, { session with snapshots })

/-- The session after all steps. -/
def after (session : Session) : List Step → Session
  | [] => session
  | step :: steps => (session.step step).2.after steps

/-- The answers to all steps, one for each. -/
def answers (session : Session) : List Step → List Answer
  | [] => []
  | step :: steps => (session.step step).1 :: (session.step step).2.answers steps

/-- The call and the reply of a step that called the snapshot at a place. -/
def exchange? (place : Nat) : Step → Answer → Option (Call × Reply)
  | .call call _, .reply source reply => if source = place then some (call, reply) else none
  | _, _ => none

/-- All calls on the snapshot at a place, each with its reply. -/
def exchanges (place : Nat) (steps : List Step) (answers : List Answer) : List (Call × Reply) :=
  (steps.zip answers).filterMap fun (step, answer) => exchange? place step answer

/-- The request of a reload that succeeds. -/
def installs? (catalog : Catalog) : Step → Option Request
  | .reload request => if (request.build catalog).isOk then some request else none
  | _ => none

/-- The requests of the rules that came into effect, in this order, from the first one on. -/
def installed (catalog : Catalog) (first : Request) (steps : List Step) : List Request :=
  first :: steps.filterMap (installs? catalog)

/-! ## One step -/

/-- All that a step can do. -/
inductive Effect (session : Session) : Step → Answer → Session → Prop where
  | refused {request : Request} {fault : Fault}
      (fails : request.build session.snapshots.catalog = .error fault) :
      Effect session (.reload request) (.reload (.error fault)) session
  | installed {request : Request} {rule : Rule} {snapshots : Snapshots}
      (builds : request.build session.snapshots.catalog = .ok rule)
      (installs : session.snapshots.Installs rule snapshots) :
      Effect session (.reload request) (.reload (.ok ())) { session with snapshots }
  | held : Effect session .hold .hold
      { session with held := session.held ++ [session.snapshots.currentPlace] }
  | missed {call : Call} {handle : Handle}
      (missing : ∀ place, session.place? handle = some place →
        session.snapshots.at? place = none) :
      Effect session (.call call handle) .nothingHeld session
  | replied {call : Call} {handle : Handle} {place : Nat} {snapshot : Snapshot}
      {snapshots : Snapshots} (handled : session.place? handle = some place)
      (found : session.snapshots.at? place = some snapshot)
      (replaces : session.snapshots.Replaces place (snapshot.ask call).2 snapshots) :
      Effect session (.call call handle) (.reply place (snapshot.ask call).1)
        { session with snapshots }

theorem step_effect (session : Session) (step : Step) :
    Effect session step (session.step step).1 (session.step step).2 := by
  cases step with
  | reload request =>
    obtain ⟨fault, hbuild, hreload⟩ | ⟨rule, next, hbuild, hreload, hinstalls⟩ :=
      session.snapshots.reload_cases request.config request.dataSources
    · simp only [Session.step, hreload]
      exact .refused hbuild
    · simp only [Session.step, hreload]
      exact .installed hbuild hinstalls
  | hold => exact .held
  | call call handle =>
    simp only [Session.step]
    cases hplace : session.place? handle with
    | none => exact .missed (by simp [hplace])
    | some place =>
      cases found : session.snapshots.at? place with
      | none =>
        simp only [Snapshots.ask, found, Option.map_none]
        exact .missed (by simpa [hplace])
      | some snapshot =>
        obtain ⟨next, hask, hreplaces⟩ := Snapshots.ask_of_at? found call
        simp only [hask]
        exact .replied hplace found hreplaces

theorem Effect.catalog_eq {session next : Session} {step : Step} {answer : Answer}
    (effect : Effect session step answer next) :
    next.snapshots.catalog = session.snapshots.catalog := by
  cases effect with
  | refused | held | missed => rfl
  | installed _ installs => exact installs.catalog_eq
  | replied _ _ replaces => exact replaces.catalog_eq

theorem step_of_build_error {session : Session} {request : Request} {fault : Fault}
    (fails : request.build session.snapshots.catalog = .error fault) :
    session.step (.reload request) = (.reload (.error fault), session) := by
  have effect := session.step_effect (.reload request)
  generalize session.step (.reload request) = outcome at effect ⊢
  obtain ⟨answer, next⟩ := outcome
  cases effect with
  | refused h =>
    cases fails.symm.trans h
    rfl
  | installed h => cases fails.symm.trans h

theorem step_of_build_ok {session : Session} {request : Request} {rule : Rule}
    (builds : request.build session.snapshots.catalog = .ok rule) :
    ∃ snapshots, session.step (.reload request) = (.reload (.ok ()), { session with snapshots }) ∧
      session.snapshots.Installs rule snapshots := by
  have effect := session.step_effect (.reload request)
  generalize session.step (.reload request) = outcome at effect ⊢
  obtain ⟨answer, next⟩ := outcome
  cases effect with
  | refused h => cases builds.symm.trans h
  | installed h installs =>
    cases builds.symm.trans h
    exact ⟨_, rfl, installs⟩

theorem step_of_at? {session : Session} {handle : Handle} {place : Nat} {snapshot : Snapshot}
    (handled : session.place? handle = some place)
    (found : session.snapshots.at? place = some snapshot) (call : Call) :
    (session.step (.call call handle)).1 = .reply place (snapshot.ask call).1 := by
  have effect := session.step_effect (.call call handle)
  generalize session.step (.call call handle) = outcome at effect ⊢
  obtain ⟨answer, next⟩ := outcome
  cases effect with
  | missed missing => cases (missing place handled).symm.trans found
  | replied h kept =>
    cases handled.symm.trans h
    cases found.symm.trans kept
    rfl

/-! ## Runs -/

/-- What holds after any number of steps when `requests` came into effect and `asked` tells what
was asked at each place: each snapshot came from its request and the calls on it alone. -/
structure Faithful (catalog : Catalog) (requests : List Request)
    (asked : Nat → List (Call × Reply)) (session : Session) : Prop where
  catalog_eq : session.snapshots.catalog = catalog
  length_eq : requests.length = session.snapshots.currentPlace + 1
  held_le : ∀ place ∈ session.held, place ≤ session.snapshots.currentPlace
  silent : ∀ place, session.snapshots.currentPlace < place → asked place = []
  replayed : ∀ place request, requests[place]? = some request → ∃ rule snapshot,
    request.build catalog = .ok rule ∧ session.snapshots.at? place = some snapshot ∧
      Snapshot.replay ⟨rule, .empty⟩ ((asked place).map (·.1)) =
        ((asked place).map (·.2), snapshot)

theorem faithful_start {catalog : Catalog} {first : Request} {snapshots : Snapshots}
    (started : Snapshots.start catalog first.config first.dataSources = .ok snapshots) :
    Faithful catalog [first] (fun _ => []) ⟨snapshots, []⟩ := by
  obtain ⟨rule, hbuild, hstart⟩ := Outcome.bind_eq_ok.1 started
  cases hstart
  refine ⟨rfl, rfl, List.forall_mem_nil _, fun _ _ => rfl, fun place request hrequest => ?_⟩
  rw [List.getElem?_singleton] at hrequest
  split at hrequest
  · next hplace =>
    cases hrequest
    subst hplace
    exact ⟨rule, _, hbuild, rfl, rfl⟩
  · cases hrequest

namespace Faithful

variable {catalog : Catalog} {requests : List Request} {asked : Nat → List (Call × Reply)}
  {session next : Session} {step : Step} {answer : Answer}

theorem hold (h : Faithful catalog requests asked session) :
    Faithful catalog requests asked
      { session with held := session.held ++ [session.snapshots.currentPlace] } := by
  refine ⟨h.catalog_eq, h.length_eq, fun place hplace => ?_, h.silent, h.replayed⟩
  rcases List.mem_append.1 hplace with hplace | hplace
  · exact h.held_le place hplace
  · exact (List.mem_singleton.1 hplace).le

theorem install (h : Faithful catalog requests asked session) {request : Request} {rule : Rule}
    {snapshots : Snapshots} (builds : request.build catalog = .ok rule)
    (installs : session.snapshots.Installs rule snapshots) :
    Faithful catalog (requests ++ [request]) asked { session with snapshots } where
  catalog_eq := installs.catalog_eq.trans h.catalog_eq
  length_eq := by simp [h.length_eq, installs.currentPlace_eq]
  held_le place hplace := by
    rw [installs.currentPlace_eq]
    exact Nat.le_succ_of_le (h.held_le place hplace)
  silent place hplace := by
    rw [installs.currentPlace_eq] at hplace
    exact h.silent place (Nat.lt_of_succ_lt hplace)
  replayed place built hbuilt := by
    have hlength := h.length_eq
    have hnext := installs.currentPlace_eq
    rw [List.getElem?_append] at hbuilt
    split at hbuilt
    · obtain ⟨rule, snapshot, hbuild, found, hreplay⟩ := h.replayed place built hbuilt
      exact ⟨rule, snapshot, hbuild, (installs.elsewhere place (by omega)).trans found, hreplay⟩
    · -- The new snapshot is at a place where nothing can have been asked so far.
      rw [List.getElem?_singleton] at hbuilt
      split at hbuilt
      · have hplace : place = snapshots.currentPlace := by omega
        cases hbuilt
        subst hplace
        refine ⟨rule, _, builds, installs.here, ?_⟩
        rw [h.silent _ (by omega)]
        rfl
      · cases hbuilt

theorem reply (h : Faithful catalog requests asked session) {call : Call} {place : Nat}
    {snapshot : Snapshot} {snapshots : Snapshots}
    (found : session.snapshots.at? place = some snapshot)
    (replaces : session.snapshots.Replaces place (snapshot.ask call).2 snapshots) :
    Faithful catalog requests
      (fun other => asked other ++
        (if place = other then some (call, (snapshot.ask call).1) else none).toList)
      { session with snapshots } where
  catalog_eq := replaces.catalog_eq.trans h.catalog_eq
  length_eq := by rw [replaces.currentPlace_eq, h.length_eq]
  held_le other hother := by
    rw [replaces.currentPlace_eq]
    exact h.held_le other hother
  silent other hother := by
    rw [replaces.currentPlace_eq] at hother
    have hne : place ≠ other :=
      Nat.ne_of_lt ((Snapshots.le_currentPlace_of_at? found).trans_lt hother)
    rw [if_neg hne, h.silent other hother]
    rfl
  replayed other request hrequest := by
    obtain ⟨rule, kept, hbuild, hkept, hreplay⟩ := h.replayed other request hrequest
    by_cases hother : place = other
    · subst hother
      cases found.symm.trans hkept
      refine ⟨rule, _, hbuild, replaces.here, ?_⟩
      rw [if_pos rfl, Option.toList_some, List.map_append, List.map_append, List.map_singleton,
        List.map_singleton, Snapshot.replay_concat, hreplay]
    · rw [if_neg hother, Option.toList_none, List.append_nil]
      exact ⟨rule, kept, hbuild, (replaces.elsewhere other (Ne.symm hother)).trans hkept, hreplay⟩

/-- Each step keeps it, with the request that it installs and what it asks. -/
theorem extend (h : Faithful catalog requests asked session)
    (effect : Effect session step answer next) :
    Faithful catalog (requests ++ (installs? catalog step).toList)
      (fun place => asked place ++ (exchange? place step answer).toList) next := by
  cases effect with
  | refused fails =>
    rw [h.catalog_eq] at fails
    simpa [installs?, exchange?, fails, Except.isOk, Except.toBool] using h
  | installed builds installs =>
    rw [h.catalog_eq] at builds
    simpa [installs?, exchange?, builds, Except.isOk, Except.toBool] using
      h.install builds installs
  | held => simpa [installs?, exchange?] using h.hold
  | missed => simpa [installs?, exchange?] using h
  | replied _ found replaces =>
    simpa only [installs?, exchange?, Option.toList_none, List.append_nil] using
      h.reply found replaces

theorem after (h : Faithful catalog requests asked session) (steps : List Step) :
    Faithful catalog (requests ++ steps.filterMap (installs? catalog))
      (fun place => asked place ++ exchanges place steps (session.answers steps))
      (session.after steps) := by
  induction steps generalizing requests asked session with
  | nil => simpa [exchanges, answers, Session.after] using h
  | cons step steps ih =>
    have hrest := ih (h.extend (session.step_effect step))
    simpa only [exchanges, answers, Session.after, List.zip_cons_cons,
      List.filterMap_eq_flatMap_toList, List.flatMap_cons, List.append_assoc] using hrest

/-- The last rule that came into effect is current. -/
theorem current_rule (h : Faithful catalog requests asked session) (hne : requests ≠ []) :
    (requests.getLast hne).build catalog = .ok session.snapshots.current.rule := by
  have hlast := List.getLast?_eq_some_getLast hne
  rw [List.getLast?_eq_getElem?, h.length_eq, Nat.add_sub_cancel] at hlast
  obtain ⟨rule, snapshot, hbuild, found, hreplay⟩ := h.replayed _ _ hlast
  rw [Snapshots.at?_currentPlace] at found
  cases found
  have hrule := Snapshot.rule_replay ⟨rule, .empty⟩
    ((asked session.snapshots.currentPlace).map (·.1))
  rw [hreplay] at hrule
  rw [hbuild, hrule]

/-- Every handle is of a snapshot. -/
theorem exists_at? (h : Faithful catalog requests asked session) {handle : Handle} {place : Nat}
    (handled : session.place? handle = some place) :
    ∃ snapshot, session.snapshots.at? place = some snapshot := by
  have hplace : place ≤ session.snapshots.currentPlace := by
    cases handle with
    | current =>
      cases handled
      exact le_rfl
    | held index => exact h.held_le place (List.mem_of_getElem? handled)
  rw [← Option.isSome_iff_exists, ← Option.ne_none_iff_isSome, ne_eq, Snapshots.at?_eq_none_iff]
  omega

end Faithful

theorem erase_refused {catalog : Catalog} {steps : List Step} {i : Nat} {request : Request}
    {fault : Fault} (fails : request.build catalog = .error fault) {session : Session}
    (hcatalog : session.snapshots.catalog = catalog)
    (hstep : steps[i]? = some (.reload request)) :
    (session.answers steps)[i]? = some (.reload (.error fault)) ∧
      session.answers (steps.eraseIdx i) = (session.answers steps).eraseIdx i ∧
      session.after (steps.eraseIdx i) = session.after steps := by
  induction steps generalizing i session with
  | nil => cases hstep
  | cons step steps ih =>
    cases i with
    | zero =>
      rw [List.getElem?_cons_zero] at hstep
      cases hstep
      subst hcatalog
      simp [answers, Session.after, step_of_build_error fails]
    | succ i =>
      have hnext := (session.step_effect step).catalog_eq.trans hcatalog
      obtain ⟨hanswer, herase, hafter⟩ := ih hnext (List.getElem?_cons_succ ▸ hstep)
      simp [answers, Session.after, hanswer, herase, hafter]

/-! ## Atomic reloads -/

/-- What it means for a run that its reloads are atomic. -/
structure Atomic (catalog : Catalog) (first : Request) (opening : Session) (steps : List Step) :
    Prop where
  /-- The current snapshot is the rule of the last reload that succeeded. -/
  current : ((installed catalog first steps).getLast (List.cons_ne_nil _ _)).build catalog =
    .ok (opening.after steps).snapshots.current.rule
  /-- A further reload that can be built puts the new rule at a place that no snapshot had, and
  leaves all others where and as they are. -/
  installs : ∀ request rule, request.build catalog = .ok rule → ∃ snapshots,
    (opening.after steps).step (.reload request) =
        (.reload (.ok ()), { opening.after steps with snapshots }) ∧
      (opening.after steps).snapshots.Installs rule snapshots ∧
      (opening.after steps).snapshots.at? snapshots.currentPlace = none ∧
      snapshots.currentPlace ∉ (opening.after steps).held
  /-- A reload that cannot be built says why. Without it all other answers are the same, and so is
  everything that is remembered in the end. -/
  refuses : ∀ i request fault, steps[i]? = some (.reload request) →
    request.build catalog = .error fault →
      (opening.answers steps)[i]? = some (.reload (.error fault)) ∧
        opening.answers (steps.eraseIdx i) = (opening.answers steps).eraseIdx i ∧
        opening.after (steps.eraseIdx i) = opening.after steps
  /-- The replies of each snapshot, and what it is in the end, come from its own calls on its rule
  built anew. -/
  replays : ∀ place request, (installed catalog first steps)[place]? = some request →
    ∃ rule snapshot, request.build catalog = .ok rule ∧
      (opening.after steps).snapshots.at? place = some snapshot ∧
      Snapshot.replay ⟨rule, .empty⟩
          ((exchanges place steps (opening.answers steps)).map (·.1)) =
        ((exchanges place steps (opening.answers steps)).map (·.2), snapshot)
  /-- No replies come from elsewhere. -/
  silent : ∀ place, (installed catalog first steps).length ≤ place →
    exchanges place steps (opening.answers steps) = []
  /-- A further call on the current snapshot or on one that is held has a reply. -/
  replies : ∀ call handle place, (opening.after steps).place? handle = some place →
    ∃ reply, ((opening.after steps).step (.call call handle)).1 = .reply place reply

/-- Reloads are atomic in every run: they take effect as a whole or not at all, and no snapshot has
a part in another. -/
theorem reloads_atomic {catalog : Catalog} {first : Request} {snapshots : Snapshots}
    (started : Snapshots.start catalog first.config first.dataSources = .ok snapshots)
    (steps : List Step) : Atomic catalog first ⟨snapshots, []⟩ steps := by
  have hstart := faithful_start started
  have hend : Faithful catalog (installed catalog first steps)
      (fun place => exchanges place steps (answers ⟨snapshots, []⟩ steps))
      (Session.after ⟨snapshots, []⟩ steps) :=
    hstart.after steps
  refine ⟨hend.current_rule _, fun request rule builds => ?_,
    fun i request fault hstep fails => erase_refused fails hstart.catalog_eq hstep,
    hend.replayed, fun place hplace => ?_, fun call handle place handled => ?_⟩
  · rw [← hend.catalog_eq] at builds
    obtain ⟨next, hnext, hinstalls⟩ := step_of_build_ok builds
    have hplace := hinstalls.currentPlace_eq
    refine ⟨next, hnext, hinstalls, Snapshots.at?_eq_none_iff.2 (by omega), fun hheld => ?_⟩
    have := hend.held_le _ hheld
    omega
  · rw [hend.length_eq] at hplace
    exact hend.silent place hplace
  · obtain ⟨snapshot, found⟩ := hend.exists_at? handled
    exact ⟨_, step_of_at? handled found call⟩

/-! ## A shop

Its rule is reloaded twice, once without data sources.
-/

def shopRequest : Request := ⟨Rule.shopConfiguration, ["a", "b"]⟩

def shopSteps : List Step :=
  let key := Call.generateKey "orders" []
  [.call key .current, .hold, .reload { shopRequest with dataSources := [] }, .call key .current,
    .reload shopRequest, .call key .current, .call key (.held 0),
    .call (.route "orders" [] .empty) (.held 0), .call key (.held 1)]

def shopOpening : Session := ⟨⟨.builtIn, [], ⟨Rule.shop, .empty⟩⟩, []⟩

theorem start_shop : Snapshots.start .builtIn shopRequest.config shopRequest.dataSources =
    .ok shopOpening.snapshots :=
  Outcome.bind_eq_ok.2 ⟨Rule.shop, Rule.build_shop, rfl⟩

theorem generateKey_shop (memory : Key.Memory) (readings : List Int) :
    Rule.shop.generateKey memory readings "orders" =
      some ⟨.ok (Int64.ofNat ((memory.state none).count + 1)),
        memory.set none { memory.state none with count := (memory.state none).count + 1 },
        readings⟩ := by
  rw [Rule.generateKey, Rule.findTable?_shop]
  rfl

/-- The snapshot that is held counts on, and the new one begins anew. -/
theorem reloads_atomic_shop :
    Snapshots.start .builtIn shopRequest.config shopRequest.dataSources =
        .ok shopOpening.snapshots ∧
      Atomic .builtIn shopRequest shopOpening shopSteps ∧
      shopOpening.answers shopSteps =
        [.reply 0 (.key (some (.ok 1, []))), .hold,
          .reload (.error (.argument .noDataSources)), .reply 0 (.key (some (.ok 2, []))),
          .reload (.ok ()), .reply 1 (.key (some (.ok 1, []))),
          .reply 0 (.key (some (.ok 3, []))), .reply 0 (.nodes (.ok Rule.orders.nodes)),
          .nothingHeld] := by
  refine ⟨start_shop, reloads_atomic start_shop shopSteps, ?_⟩
  have hinitial : Key.Memory.empty.state none = .initial := rfl
  have hbuilds : Rule.build .builtIn Rule.shopConfiguration ["a", "b"] = .ok Rule.shop :=
    Rule.build_shop
  have hfails : Rule.build .builtIn Rule.shopConfiguration [] =
      .error (.argument .noDataSources) := rfl
  have hroute : Rule.shop.route "orders" [] .empty = .ok Rule.orders.nodes := by
    rw [Rule.route_eq_found Rule.findTable?_shop rfl]
    exact Outcome.eq_ok_of_toOption (by decide)
  have hkey := generateKey_shop
  -- These facts are all that counts: the rule itself is a variable, and nothing can open it.
  obtain ⟨shop, hshop⟩ : ∃ shop, shop = Rule.shop := ⟨_, rfl⟩
  rw [← hshop] at hbuilds hroute hkey
  simp [shopSteps, shopOpening, ← hshop, shopRequest, answers, step, place?, Snapshots.ask,
    Snapshots.at?, Snapshots.currentPlace, Snapshots.reload, Snapshots.generateKey,
    Snapshots.remember, hkey, hinitial, hbuilds, hfails, hroute, Key.Memory.state_set_self,
    Key.State.initial, bind, Except.bind]

end Session

end Sharding
