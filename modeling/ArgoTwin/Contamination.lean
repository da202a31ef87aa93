import ArgoTwin.Transparency
/-!
# What a simulation leaves behind

Operations on one service and on the branches forked from it. An actor
whose only role is the simulation service's writes nothing through the write
methods, and what it does on a branch stays there. The one way into the
ledger is `append`: nothing holds a predicted scenario to the simulation
plane, and one sent on the authoritative plane takes a place in the stream.
-/

namespace ArgoTwin

open Library TwinAggregate

/-- `SIMULATION_SERVICE` is the actor's only role. -/
def ActorContext.simulationOnly (actor : ActorContext) : Bool :=
  actor.roles.all fun role => role = .simulationService

/-! ## The machine -/

/-- One operation on the service, or on a branch its holder keeps under a
name. The relay drains the outbox of itself. -/
inductive Operation where
  | call (actor : ActorContext) (request : Request)
  | fork (actor : ActorContext) (twinId scenario branchId : String) (name : Nat)
  | append (actor : ActorContext) (name : Nat) (event : EventEnvelope)
  | proposal (actor : ActorContext) (name : Nat)
  | relay (limit : Int) (readings : RelayReadings)

/-- What an operation comes to; a name may stand for no branch. -/
inductive Operation.Result where
  | called (answer : Except PyError Answer)
  | forked (branch : Except PyError SimulationBranch)
  | appended (done : Option (Except PyError Unit))
  | proposed (payload : Option Payload)
  | relayed (counts : Except PyError (Nat × Nat × Nat))

namespace Operation

/-- The operation is a simulation-only actor's. -/
def simulated : Operation → Bool
  | call actor _ | fork actor _ _ _ _ | append actor _ _ | proposal actor _ => actor.simulationOnly
  | relay _ _ => false

/-- The branch an operation is on. -/
def branch? : Operation → Option Nat
  | fork _ _ _ _ name | append _ name _ | proposal _ name => some name
  | call _ _ | relay _ _ => none

/-- The names a simulation-only actor's operations are on. -/
def simulatedNames (ops : List Operation) : List Nat :=
  (ops.filter simulated).filterMap branch?

/-- What the operation hands a service is read back as it is. -/
def Canonical : Operation → Prop
  | call _ request => request.Canonical
  | _ => True

/-- The operation is on no branch that a simulation-only actor's is on. -/
def apart (ops : List Operation) (op : Operation) : Bool :=
  match op.branch? with
  | some name => !(simulatedNames ops).contains name
  | none => true

/-- What is left of a run without the operations of simulation-only actors. -/
def purged (ops : List Operation) : List Operation := ops.filter fun op => !op.simulated

end Operation

/-- A service and the branches forked from it. -/
structure Simulating where
  process : Process := {}
  branches : Nat → Option SimulationBranch := fun _ => none

namespace Simulating

variable [Digest] (svc : Service) (env : Surroundings)

def step (w : Simulating) : Operation → Simulating
  | .call actor request => { w with process := finalState (svc.respond env actor request) w.process }
  | .fork actor twinId scenario branchId name =>
    let method := svc.forkSimulation twinId scenario branchId actor
    let branches := match outcome method w.process with
      | .ok branch => Function.update w.branches name (some branch)
      | .error _ => w.branches
    { process := finalState method w.process, branches := branches }
  | .append actor name event =>
    match w.branches name with
    | none => w
    | some branch =>
      match branch.append event actor with
      | .ok branch => { w with branches := Function.update w.branches name (some branch) }
      | .error _ => w
  | .proposal _ _ => w
  | .relay limit readings => { w with process := finalState (svc.drain limit readings) w.process }

def answer (w : Simulating) : Operation → Operation.Result
  | .call actor request => .called (outcome (svc.respond env actor request) w.process)
  | .fork actor twinId scenario branchId _ =>
    .forked (outcome (svc.forkSimulation twinId scenario branchId actor) w.process)
  | .append actor name event =>
    .appended ((w.branches name).map fun branch => (branch.append event actor).map fun _ => ())
  | .proposal _ name => .proposed ((w.branches name).map SimulationEngine.proposalPayload)
  | .relay limit readings => .relayed (outcome (svc.drain limit readings) w.process)

/-- **Nothing of a simulation shows**: the run with the operations of
simulation-only actors and the run without them end on one store, serve the
same state of every twin, and answer every other operation alike; but for
what is done on a branch such an actor works on. -/
structure Undisturbed (w : Simulating) (ops : List Operation) : Prop where
  store : (run (step svc env) w ops).process.store =
    (run (step svc env) w (Operation.purged ops)).process.store
  state : ∀ twinId, outcome (svc.state twinId) (run (step svc env) w ops).process =
    outcome (svc.state twinId) (run (step svc env) w (Operation.purged ops)).process
  answers : (answers (step svc env) (answer svc env) w ops).filter
      (fun said => !said.1.simulated && said.1.apart ops) =
    (answers (step svc env) (answer svc env) w (Operation.purged ops)).filter
      fun said => said.1.apart ops

end Simulating

/-- The request comes by an event and appends it. -/
def Request.writes : Request → Bool
  | .append .. | .write .. | .issueProjection .. => true
  | _ => false

/-- An outbox row waits to be claimed. -/
def Store.Due (s : Store) (now : Instant) : Prop :=
  ∃ row ∈ s.outbox, row.publishedAt = none ∧ Store.leaseFree (DateTime.utc now) row = true

/-- **The append reaches the store and moves it**: it passes the checks, the
state accepts it where it is to be tried, and it is either new or the
retry of an event stored, whose drain finds the outbox waiting. -/
structure Store.Moved [Digest] (s : Store) (e : EventEnvelope) (actor : ActorContext) (x : Int)
    (readings : AppendReadings) : Prop where
  authorized : EventOwnershipPolicy.authorize e actor = .ok ()
  validated : validateEvent e = .ok ()
  plane : e.plane ≠ .simulation
  accepted : (s.head e.twinId).1 = x →
    Accepts (e.sealAt (x + 1) (s.head e.twinId).2 (DateTime.utc readings.previewed))
      (latest s e.twinId)
  answered : (∃ r s', s.Fresh e x readings.recorded r s') ∨
    ((∃ r, s.Duplicate e r) ∧ s.Due readings.relay.claimed)

/-- What a simulation-only actor's operation has to meet: it is no append
that moves the store. -/
def Simulating.Contained [Digest] (w : Simulating) : Operation → Prop
  | .call actor (.append e x readings) =>
    actor.simulationOnly = true → ¬ w.process.store.Moved e actor x readings
  | _ => True

/-! ## Who is kept out -/

namespace Service

variable {actor : ActorContext} {p : Process} {α β : Type} {s : Store}

theorem not_mem_roles {role : ProducerRole} (hactor : actor.simulationOnly = true)
    (hrole : role ≠ .simulationService) : role ∉ actor.roles := by
  intro hmem
  have hall : ∀ r ∈ actor.roles, r = .simulationService := by
    simpa [ActorContext.simulationOnly] using hactor
  exact hrole (hall role hmem)

/-- A check that fails ends a method where it began. -/
theorem raise_bind {r : Except PyError α} {err : PyError} (h : r = .error err)
    (f : α → Method β) : (fromExcept r >>= f) p = .error err p := by
  rw [h]
  rfl

theorem authorizeIntent_refused {role : ProducerRole} (hrole : role ∉ actor.roles)
    (eventType : String) : EventOwnershipPolicy.authorizeIntent eventType role actor =
      .error (.authorizationDenied "producer role is not present in actor claims") := by
  rw [EventOwnershipPolicy.authorizeIntent, if_pos hrole]

/-- No write method is the simulation service's. -/
theorem role_ne (call : WriteCall) : call.role ≠ .simulationService := by
  cases call <;> simp [WriteCall.role]

theorem keeps_map {P : Process → Prop} {f : α → β} {x : Method α} (hx : Keeps P x) :
    Keeps P (f <$> x) := by
  rw [map_eq_pure_bind]
  exact keeps_bind hx fun _ => keeps_pure

variable [Digest] {svc : Service} {env : Surroundings}

theorem issueEvent_refused (svc : Service) (with_ : Collaborators) (args : IssueProjection)
    (ctx : WriteContext) (hrole : .projectionService ∉ ctx.actor.roles) (p : Process) :
    ∃ err, Prepare.issueProjection svc with_ args ctx p = .error err p :=
  ⟨_, raise_bind (authorizeIntent_refused hrole _) _⟩

/-- **A write method in a role its caller has not** raises at once. -/
theorem prepare_refused (svc : Service) (with_ : Collaborators) (call : WriteCall)
    (ctx : WriteContext) (hrole : call.role ∉ ctx.actor.roles) (p : Process) :
    ∃ err, svc.prepare with_ call ctx p = .error err p := by
  cases call with
  | issueProjection args =>
    obtain ⟨err, h⟩ := issueEvent_refused svc with_ args ctx hrole p
    exact ⟨err, by simp [prepare, bind, EStateM.bind, h]⟩
  | _ => exact ⟨_, raise_bind (authorizeIntent_refused hrole _) _⟩

/-! ## What leaves the store alone -/

theorem keeps_state (twinId : String) : Keeps (fun q : Process => q.store = s) (svc.state twinId) :=
  fun q hq => by
    have hstays : (finalState (svc.state twinId) q).store = q.store := store_state
    exact hstays.trans hq

theorem keeps_stateAsOf (twinId : String) (upToSequence : Option Int) (asOf : Option DateTime) :
    Keeps (fun q : Process => q.store = s) (svc.stateAsOf twinId upToSequence asOf) :=
  keeps_ite (keeps_state twinId) (keeps_bind keeps_get fun _ => keeps_fromExcept)

theorem keeps_forkSimulation (twinId scenario branchId : String) :
    Keeps (fun q : Process => q.store = s) (svc.forkSimulation twinId scenario branchId actor) :=
  keeps_bind keeps_fromExcept fun _ => keeps_bind (keeps_state twinId) fun _ =>
    keeps_bind keeps_fromExcept fun _ => keeps_fromExcept

/-- **A query** writes nothing. -/
theorem keeps_respond_query {request : Request} (hquery : request.writes = false) :
    Keeps (fun q : Process => q.store = s) (svc.respond env actor request) := by
  cases request with
  | append e x readings => cases hquery
  | write call x key readings => cases hquery
  | issueProjection args x key readings => cases hquery
  | state twinId upTo valid recorded =>
    refine keeps_map (keeps_bind (keeps_stateAsOf twinId upTo recorded) fun state => ?_)
    cases valid with
    | some instant => exact keeps_fromExcept
    | none => exact keeps_pure
  | traceLineage twinId kind nodeId asOf =>
    exact keeps_map (keeps_bind (keeps_stateAsOf twinId none asOf) fun _ =>
      keeps_bind keeps_fromExcept fun _ => keeps_bind keeps_get fun _ => keeps_fromExcept)
  | planElicitation twinId objective claimIds =>
    exact keeps_map (keeps_bind (keeps_state twinId) fun _ => keeps_fromExcept)
  | forkSimulation twinId scenario branchId =>
    exact keeps_map (keeps_forkSimulation twinId scenario branchId)
  | subscribe twinId afterSequence =>
    have hopen : Keeps (fun q : Process => q.store = s) (do
        let start ← fromExcept ((← get).store.streamPosition twinId afterSequence)
        fromExcept (DurableSubscription.open (← get).store env.streams.queueCapacity start
          env.streams.syncLimits {}) : Method DurableSubscription) :=
      keeps_bind keeps_get fun _ => keeps_bind keeps_fromExcept fun _ =>
        keeps_bind keeps_get fun _ => keeps_fromExcept
    exact keeps_map (keeps_bind keeps_demand fun _ =>
      keeps_ite (keeps_bind (keeps_state twinId) fun _ =>
        keeps_bind keeps_fromExcept fun _ => hopen) hopen)
  | openStateStream request =>
    refine keeps_map (keeps_bind ?_ fun _ => keeps_bind keeps_get fun _ => keeps_fromExcept)
    unfold authorizeStream
    cases actor.subjectId with
    | none => exact keeps_demand
    | some S => exact keeps_bind (keeps_state _) fun _ => keeps_fromExcept

/-- With nothing waiting a claim takes nothing. -/
theorem claimOutbox_idle (leaseOwner : String) (limit leaseSeconds : Int) {now : Instant}
    (hidle : ¬ s.Due now) :
    Store.claimOutbox leaseOwner limit leaseSeconds now s = .ok [] s ∨
      ∃ err, Store.claimOutbox leaseOwner limit leaseSeconds now s = .error err s := by
  have hpending : s.outbox.filter (fun row => row.publishedAt.isNone &&
      Store.leaseFree (DateTime.utc now) row) = [] := by
    refine List.filter_eq_nil_iff.2 fun row hrow hdue => hidle ⟨row, hrow, ?_⟩
    simpa using hdue
  unfold Store.claimOutbox
  split_ifs
  · exact .inr ⟨_, rfl⟩
  · exact .inl rfl
  · exact .inr ⟨_, rfl⟩
  cases hlease : Store.leaseEnd now leaseSeconds with
  | error err => exact .inr ⟨err, by simp [bind, EStateM.bind, fromExcept]⟩
  | ok leaseUntil =>
    cases hbound : Store.bindInteger limit with
    | error err => exact .inr ⟨err, by simp [bind, EStateM.bind, fromExcept]⟩
    | ok bound =>
    refine .inl ?_
    simp [Store.claimPending, transaction, bind, EStateM.bind, get, getThe, MonadStateOf.get,
      EStateM.get, hpending, pure, EStateM.pure, fromExcept]

/-- An outbox with nothing to claim is drained without a trace. -/
theorem finalState_drain_idle {limit : Int} {readings : RelayReadings}
    (hidle : ¬ p.store.Due readings.claimed) : finalState (svc.drain limit readings) p = p := by
  rcases claimOutbox_idle svc.leaseOwner limit 30 hidle with hnone | ⟨err, hraised⟩
  · simp [drain, finalState, onStore, onPart, bind, EStateM.bind, hnone, pure, EStateM.pure]
  · simp [drain, finalState, onStore, onPart, bind, EStateM.bind, hraised]

/-- **An append that does not move the store** leaves it as it was. -/
theorem store_append_contained {e : EventEnvelope} {x : Int} {readings : AppendReadings}
    (hp : p.Healthy) (hcontained : ¬ p.store.Moved e actor x readings) :
    (finalState (svc.append e actor x readings) p).store = p.store := by
  unfold append
  rcases finalState_cases (vet e actor) p with ⟨head, hvet⟩ | ⟨err, hvet⟩
  swap
  · rw [finalState_bind_error hvet, finalState_vet]
  rw [finalState_bind hvet, finalState_vet]
  rw [finalState_vet, returns_vet] at hvet
  obtain ⟨⟨hauthorized, hvalidated, hplane⟩, rfl, -⟩ := hvet
  have hpreviewed : (finalState (svc.preview e x (p.store.head e.twinId) readings.previewed) p).store
      = p.store := store_preview
  rcases finalState_cases (svc.preview e x (p.store.head e.twinId) readings.previewed) p with
    ⟨held, hpreview⟩ | ⟨err, hpreview⟩
  swap
  · rw [finalState_bind_error hpreview, hpreviewed]
  rw [finalState_bind hpreview]
  generalize finalState (svc.preview e x (p.store.head e.twinId) readings.previewed) p = q
    at hpreview hpreviewed
  rcases finalState_cases (persist e x readings.recorded) q with ⟨r, hpersist⟩ | ⟨err, hpersist⟩
  swap
  · rw [finalState_bind_error hpersist, persist_error hpersist, hpreviewed]
  rw [finalState_bind hpersist]
  generalize finalState (persist e x readings.recorded) q = q' at hpersist
  obtain ⟨s', hstored, rfl⟩ := returns_onStore.1 hpersist
  rw [hpreviewed] at hstored
  have haccepted := (previewed hp hpreview).2
  obtain ⟨q', hsettle, hq'⟩ := settles svc hp hvalidated hpreview hstored
  rcases answered_append hp hvalidated hpreview hstored with
    ⟨rfl, hduplicate, hwithin⟩ | ⟨-, hfresh⟩
  · -- a retry: it is no later than the head, and nothing waits in the outbox
    have hidle : ¬ p.store.Due readings.relay.claimed := fun hdue => hcontained
      ⟨hauthorized, hvalidated, hplane, haccepted, .inr ⟨⟨r, hduplicate⟩, hdue⟩⟩
    have hpast : ¬ (p.store.head e.twinId).1 < r.sequence := not_lt.2 hwithin
    have hdue : svc.snapshotDue (p.store.head e.twinId) r = false := by
      simp [snapshotDue, hpast]
    rw [finalState_bind hsettle]
    have hsnapshot : Returns (svc.snapshot (p.store.head e.twinId) r readings) q' () q' := by
      simp [snapshot, hdue]
    rw [finalState_bind hsnapshot, finalState_bind_pure, finalState_drain_idle (by rwa [hq']), hq']
  · exact absurd ⟨hauthorized, hvalidated, hplane, haccepted, .inl ⟨r, s', hfresh⟩⟩ hcontained

/-- **What a simulation-only actor's call does to the store**, where it is
no append that moves it: nothing. -/
theorem store_respond_simulated {request : Request} (hp : p.Healthy)
    (hactor : actor.simulationOnly = true)
    (hcontained : ∀ e x readings, request = .append e x readings →
      ¬ p.store.Moved e actor x readings) :
    (finalState (svc.respond env actor request) p).store = p.store := by
  have hmap : ∀ {α : Type} {f : α → Answer} {m : Method α},
      finalState (f <$> m) p = finalState m p := fun {α f m} => by
    rw [map_eq_pure_bind, finalState_bind_pure]
  cases request with
  | append e x readings =>
    rw [respond, hmap]
    exact store_append_contained hp (hcontained e x readings rfl)
  | write call x key readings =>
    obtain ⟨err, hrefused⟩ := prepare_refused svc env.collaborators call
      ⟨actor, x, key, readings⟩ (not_mem_roles hactor (role_ne call)) p
    rw [respond, hmap, write, finalState_bind_error hrefused]
  | issueProjection args x key readings =>
    obtain ⟨err, hrefused⟩ := issueEvent_refused svc env.collaborators args
      ⟨actor, x, key, readings⟩ (not_mem_roles hactor (by decide)) p
    have hraised : svc.issueProjection env.collaborators args ⟨actor, x, key, readings⟩ p =
        .error err p := by
      simp [issueProjection, bind, EStateM.bind, hrefused]
    rw [respond, finalState_bind_error hraised]
  | _ => exact keeps_respond_query rfl p rfl

end Service

/-- **What gets through**: a predicted scenario, sent on the authoritative
plane. -/
theorem scenario_of_moved [Digest] {s : Store} {e : EventEnvelope} {actor : ActorContext} {x : Int}
    {readings : AppendReadings} (hactor : actor.simulationOnly = true)
    (h : s.Moved e actor x readings) :
    e.eventType = "ScenarioStatePredicted" ∧ e.plane = .authoritative := by
  obtain ⟨-, hintent, -⟩ := EventOwnershipPolicy.authorize_eq_ok.1 h.authorized
  obtain ⟨hheld, roles, hroles, howns⟩ := EventOwnershipPolicy.owner_of_authorizeIntent hintent
  have hrole : e.producerRole = .simulationService := by
    by_contra hne
    exact Service.not_mem_roles hactor hne hheld
  have htype : e.eventType = "ScenarioStatePredicted" := by
    have htable : ∀ entry ∈ eventOwners, .simulationService ∈ entry.2 →
        entry.1 = "ScenarioStatePredicted" := by decide
    obtain ⟨before, after, hentry, -⟩ := List.lookup_eq_some_iff.1 hroles
    have hmem : (e.eventType, roles) ∈ eventOwners := by simp [hentry]
    exact htable _ hmem (hrole ▸ howns)
  refine ⟨htype, ?_⟩
  have hprojection := (header_of_validateEvent h.validated).2.2
  cases hplane : e.plane with
  | authoritative => rfl
  | simulation => exact absurd hplane h.plane
  | projection =>
    have hkind := hprojection.1 hplane
    rw [EventEnvelope.kind, htype] at hkind
    exact absurd hkind (by decide)

namespace Simulating

variable [Digest] (svc : Service) (env : Surroundings)

/-- Where two runs stand alike: on one store, and with the same branches
under the names that are not `names`. -/
structure Alongside (names : List Nat) (w w' : Simulating) : Prop where
  process : w.process.Agree w'.process
  branches : ∀ name ∉ names, w.branches name = w'.branches name

variable {svc env} {names : List Nat} {w w' : Simulating} {op : Operation}

omit [Digest] in
theorem update_branches {branches branches' : Nat → Option SimulationBranch} {name : Nat}
    {branch branch' : Option SimulationBranch}
    (h : ∀ n ∉ names, branches n = branches' n) (hbranch : name ∉ names → branch = branch') :
    ∀ n ∉ names, Function.update branches name branch n = Function.update branches' name branch' n := by
  intro n hn
  by_cases hname : n = name
  · subst hname
    simpa using hbranch hn
  · rw [Function.update_of_ne hname, Function.update_of_ne hname]
    exact h n hn

/-- What is done on a branch is done there. -/
theorem step_append (svc : Service) (env : Surroundings) (w : Simulating) (actor : ActorContext)
    (name : Nat) (event : EventEnvelope) :
    (step svc env w (.append actor name event)).process = w.process ∧
      ∀ n ≠ name, (step svc env w (.append actor name event)).branches n = w.branches n := by
  simp only [step]
  cases w.branches name with
  | none => exact ⟨rfl, fun _ _ => rfl⟩
  | some branch =>
    simp only
    cases branch.append event actor with
    | error err => exact ⟨rfl, fun _ _ => rfl⟩
    | ok branch => exact ⟨rfl, fun n hn => Function.update_of_ne hn _ _⟩

/-- **A simulated step** moves the store nowhere, and no branch but those
under its names. -/
theorem step_simulated (h : Alongside names w w') (hcanonical : op.Canonical)
    (hop : op.simulated = true) (hnames : ∀ name, op.branch? = some name → name ∈ names) (hcontained : w.Contained op) :
    Alongside names (step svc env w op) w' := by
  have hstays : ∀ {α : Type} {m : Service.Method α}, Oblivious Process.Agree m →
      (finalState m w.process).store = w.process.store →
      (finalState m w.process).Agree w'.process := by
    intro α m hm hstore
    have hself : w.process.Agree w.process := ⟨rfl, h.process.left, h.process.left⟩
    exact ⟨hstore.trans h.process.store, (hm.finalState hself).left, h.process.right⟩
  cases op with
  | call actor request =>
    refine ⟨hstays (Service.oblivious_respond svc env actor hcanonical) ?_, h.branches⟩
    refine Service.store_respond_simulated h.process.left hop fun e x readings hrequest => ?_
    subst hrequest
    exact hcontained hop
  | fork actor twinId scenario branchId name =>
    refine ⟨hstays (Service.oblivious_forkSimulation svc twinId scenario branchId actor)
      (Service.keeps_forkSimulation twinId scenario branchId _ rfl), ?_⟩
    intro n hn
    have hne : n ≠ name := fun heq => hn (heq ▸ hnames name rfl)
    simp only [step]
    cases outcome (svc.forkSimulation twinId scenario branchId actor) w.process with
    | ok branch => simpa [Function.update_of_ne hne] using h.branches n hn
    | error err => exact h.branches n hn
  | append actor name event =>
    obtain ⟨hprocess, hbranches⟩ := step_append svc env w actor name event
    refine ⟨hprocess ▸ h.process, fun n hn => ?_⟩
    rw [hbranches n fun heq => hn (heq ▸ hnames name rfl)]
    exact h.branches n hn
  | proposal actor name => exact h
  | relay limit readings => simp [Operation.simulated] at hop

/-- **Any other step** goes alike on both sides, and is answered alike but
on those branches. -/
theorem step_shown (h : Alongside names w w') (hcanonical : op.Canonical) :
    Alongside names (step svc env w op) (step svc env w' op) ∧
      ((∀ name, op.branch? = some name → name ∉ names) →
        answer svc env w op = answer svc env w' op) := by
  cases op with
  | call actor request =>
    have hrespond := Service.oblivious_respond svc env actor hcanonical
    exact ⟨⟨hrespond.finalState h.process, h.branches⟩, fun _ => by
      simp only [answer, hrespond.outcome_eq h.process]⟩
  | fork actor twinId scenario branchId name =>
    have hfork := Service.oblivious_forkSimulation svc twinId scenario branchId actor
    have houtcome := hfork.outcome_eq h.process
    refine ⟨⟨hfork.finalState h.process, ?_⟩, fun _ => by simp only [answer, houtcome]⟩
    simp only [step, houtcome]
    cases outcome (svc.forkSimulation twinId scenario branchId actor) w'.process with
    | ok branch => exact update_branches h.branches fun _ => rfl
    | error err => exact h.branches
  | append actor name event =>
    obtain ⟨hprocess, hbranches⟩ := step_append svc env w actor name event
    obtain ⟨hprocess', hbranches'⟩ := step_append svc env w' actor name event
    refine ⟨⟨by rw [hprocess, hprocess']; exact h.process, fun n hn => ?_⟩, ?_⟩
    · by_cases hname : n = name
      · subst hname
        simp only [step, h.branches n hn]
        cases w'.branches n with
        | none => exact h.branches n hn
        | some branch =>
          simp only
          cases branch.append event actor with
          | error err => exact h.branches n hn
          | ok branch => simp
      · rw [hbranches n hname, hbranches' n hname, h.branches n hn]
    · intro hnames
      simp only [answer, h.branches name (hnames name rfl)]
  | proposal actor name =>
    exact ⟨h, fun hnames => by simp only [answer, h.branches name (hnames name rfl)]⟩
  | relay limit readings =>
    have hdrain := Service.oblivious_relay svc limit readings
    exact ⟨⟨hdrain.finalState h.process, h.branches⟩, fun _ => by
      simp only [answer, hdrain.outcome_eq h.process]⟩

/-- What a service and its branches can come to, by operations that hand in
what is read back as it is. -/
abbrev SimulatingReachable (svc : Service) (env : Surroundings) (w : Simulating) : Prop :=
  Reachable (step svc env) (fun _ op => op.Canonical) {} w

theorem alongside_of_reachable (hw : SimulatingReachable svc env w) : Alongside [] w w := by
  refine hw.invariant (I := fun w => Alongside [] w w) ?_ fun w op h hop => (step_shown h hop).1
  have hempty : ({} : Process).Healthy := ⟨sound_empty, Memory.coherent_empty⟩
  exact ⟨⟨rfl, hempty, hempty⟩, fun _ _ => rfl⟩

/-- **Simulation does not contaminate**, as long as no simulation-only
actor's append moves the store and what is handed in is read back as it is:
whatever else such actors do, on the service or on branches, the run without
it ends on the same ledger, outbox and dependency index, serves the same
states, and gives every other operation the same answer. -/
theorem undisturbed_of_contained {ops : List Operation} (hw : SimulatingReachable svc env w)
    (hcanonical : ∀ op ∈ ops, op.Canonical) (hcontained : ∀ n op, ops[n]? = some op → op.simulated = true →
      (run (step svc env) w (ops.take n)).Contained op) : Undisturbed svc env w ops := by
  let names := Operation.simulatedNames ops
  let fits : Simulating → Operation → Prop := fun w op => op.Canonical ∧ (op.simulated = true →
    w.Contained op ∧ ∀ name, op.branch? = some name → name ∈ names)
  have hstart : Alongside names w w := by
    have hself := alongside_of_reachable hw
    exact ⟨hself.process, fun _ _ => rfl⟩
  have hfits : ∀ n op, ops[n]? = some op → fits (run (step svc env) w (ops.take n)) op := by
    intro n op hop
    have hmem : op ∈ ops := List.mem_of_getElem? hop
    refine ⟨hcanonical op hmem, fun hsimulated =>
      ⟨hcontained n op hop hsimulated, fun name hname => ?_⟩⟩
    exact List.mem_filterMap.2 ⟨op, List.mem_filter.2 ⟨hmem, hsimulated⟩, hname⟩
  have hapart : ∀ op, Operation.apart ops op = true → ∀ name, op.branch? = some name →
      name ∉ names := by
    intro op h name hname
    simpa [Operation.apart, hname] using h
  obtain ⟨hstates, hanswers⟩ := purge (step svc env) (answer svc env) (Alongside names)
    Operation.simulated (Operation.apart ops) fits
    (fun w w' op h hop hfit => step_simulated h hfit.1 hop (hfit.2 hop).2 (hfit.2 hop).1)
    (fun w w' op h _ hfit =>
      ⟨(step_shown h hfit.1).1, fun h' => (step_shown h hfit.1).2 (hapart op h')⟩)
    hstart hfits
  exact ⟨hstates.process.store,
    fun twinId => (Service.oblivious_state svc twinId).outcome_eq hstates.process, hanswers⟩

/-- An actor that only simulates. -/
def simulator : ActorContext where
  identityId := "simulator"
  roles := [.simulationService]
  subjectId := none
  identity_required := by decide
  roles_required := by decide

/-- A predicted scenario for the stream of `t`. -/
def prediction (plane : EventPlane) : EventEnvelope :=
  EventEnvelope.new "t" "ScenarioStatePredicted" plane
    (Payload.ofFields [("predicted_state", .obj [("mood", .str "calm")])]) "simulator"
    .simulationService "scenario-1" none none ⟨0, "event-0"⟩

/-- A prediction is appended to the ledger, and then evidence. -/
def predictedFirst (plane : EventPlane) : List Operation :=
  [.call simulator (.append (prediction plane) 0 Streaming.secondOne),
   .fork simulator "t" "a calm week" "branch-1" 0, .append simulator 0 (prediction .simulation),
   .call ingestActor (.append firstEvent 0 Streaming.secondOne)]

omit [Digest] in
/-- **A contaminated ledger**: a prediction on the authoritative plane takes
the first place of the stream, and the evidence that was expected there is
refused. -/
theorem contaminated_by_prediction :
    let _ : Digest := checksumDigest
    SimulatingReachable {} {} {} ∧ ¬ Undisturbed {} {} {} (predictedFirst .authoritative) := by
  intro digest
  refine ⟨.init, fun h => ?_⟩
  have hevents : (run (step {} {}) {} (predictedFirst .authoritative)).process.store.events.map
      (·.eventType) = ["ScenarioStatePredicted"] := by decide +kernel
  rw [h.store] at hevents
  exact absurd hevents (by decide +kernel)

omit [Digest] in
theorem undisturbed_predictedFirst :
    let _ : Digest := checksumDigest
    (run (step {} {}) {} (predictedFirst .simulation)).process.store.events.map (·.eventType) =
        ["EvidenceIngested"] ∧
      Undisturbed {} {} {} (predictedFirst .simulation) := by
  intro digest
  have hpredicted : (prediction .simulation).payload.Canonical := by decide +kernel
  have hfirst : firstEvent.payload.Canonical := by decide +kernel
  have hcanonical : ∀ op ∈ predictedFirst .simulation, op.Canonical := by
    simpa [predictedFirst, Operation.Canonical, Request.Canonical] using ⟨hpredicted, hfirst⟩
  refine ⟨by decide +kernel,
    undisturbed_of_contained .init hcanonical fun n op hop hsimulated => ?_⟩
  match n, hop with
  | 0, hop =>
    cases hop
    exact fun _ h => h.plane rfl
  | 1, hop => cases hop; trivial
  | 2, hop => cases hop; trivial
  | 3, hop =>
    cases hop
    exact absurd hsimulated (by decide)
  | n + 4, hop => cases hop

end Simulating

end ArgoTwin
