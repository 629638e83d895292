import LinkReconciler.Manager.Run
import LinkReconciler.Proofs.QueueFold
import LinkReconciler.Proofs.SessionRun

/-!
The gate before a reconciliation. A pass reconciles only while it holds the lock and the
system was seen to be configured, and it reconciles exactly what was delivered since the
last reconciliation. Every other pass sets its batch aside and changes nothing else.
-/

namespace LinkReconciler

def Event.delivered (event : Event) : List Batch :=
  event.wait.toOption.toList

theorem Event.delivered_of_ok {event : Event} {batch : Batch} (wait : event.wait = .ok batch) :
    event.delivered = [batch] := by
  rw [delivered, wait]
  rfl

theorem Event.delivered_of_error {event : Event} {error : StoreError}
    (wait : event.wait = .error error) : event.delivered = [] := by
  rw [delivered, wait]
  rfl

/-- The failure that ends a run with this pass: that of a wait which may not be tried again. -/
def Event.ending? (event : Event) : Option Failure :=
  match event.wait with
  | .ok _ => none
  | .error error => if error.isRetryable then none else some (.store error)

/-- The events that a run gets to. -/
def Event.reached : List Event → List Event
  | [] => []
  | event :: rest => if event.ending?.isSome then [event] else event :: reached rest

theorem Event.reached_prefix (events : List Event) : reached events <+: events := by
  induction events with
  | nil => exact List.prefix_rfl
  | cons event rest ih =>
      rw [reached]
      split
      · exact ⟨rest, rfl⟩
      · exact (List.prefix_cons_inj event).mpr ih

def Request.ofPass (config : Config) (attempt : Option Transaction) : List Request :=
  .wait config.store.pollTimeoutMs :: attempt.toList.map .commit

def reconciles : Except Failure Outcome → Bool
  | .ok outcome => outcome.reconciled
  | .error _ => false

def latestSystem (events : List Event) : Option SystemRow :=
  ((events.flatMap Event.delivered).filterMap (·.system)).getLast?

namespace Manager

/-! ## One pass -/

def Opens (manager : Manager) (batch : Batch) (lock : LockState) : Prop :=
  lock = .held ∧
    (manager.systemReady = true ∨ (manager.defer batch).seesReady = true)

def handed (manager : Manager) (batch : Batch) : Batch :=
  (manager.defer batch).deferred.batch

def settledWith (manager : Manager) (batch : Batch) : Manager × Transaction :=
  ({ (manager.reconcile (manager.handed batch) ∅).1 with deferred := {}, systemReady := true },
    (manager.reconcile (manager.handed batch) ∅).2)

theorem reconcile_aside (manager : Manager) (deferred : Pending) (systemReady : Bool)
    (batch : Batch) (transaction : Transaction) :
    { manager with deferred, systemReady }.reconcile batch transaction =
      ({ (manager.reconcile batch transaction).1 with deferred, systemReady },
        (manager.reconcile batch transaction).2) := rfl

theorem settleDeferred_defer (manager : Manager) (batch : Batch) :
    (manager.defer batch).settleDeferred =
      ((manager.settledWith batch).1,
        if (manager.settledWith batch).2.isEmpty then .idle
        else .commit (manager.settledWith batch).2) := by
  have readied : { manager.defer batch with deferred := {}, systemReady := true } =
      { manager with deferred := {}, systemReady := true } := rfl
  rw [settleDeferred_eq, readied, reconcile_aside]
  rfl

inductive Passed (manager : Manager) (event : Event) :
    Except Failure Outcome × Option Transaction × Manager → Prop where
  | failed (error : StoreError) (wait : event.wait = .error error) :
      Passed manager event (.error (.store error), none, manager)
  | waited (batch : Batch) (outcome : Outcome) (wait : event.wait = .ok batch)
      (shut : ¬ manager.Opens batch event.lock) (waits : outcome.reconciled = false) :
      Passed manager event (.ok outcome, none, manager.defer batch)
  | reconciled (batch : Batch) (outcome : Outcome) (wait : event.wait = .ok batch)
      (opens : manager.Opens batch event.lock) (settles : outcome.reconciled = true) :
      Passed manager event (.ok outcome,
        if (manager.settledWith batch).2.isEmpty then none
          else some (manager.settledWith batch).2,
        (manager.settledWith batch).1)

theorem plan_shut {manager : Manager} {batch : Batch} {lock : LockState}
    (shut : ¬ manager.Opens batch lock) :
    ∃ plan, manager.plan batch lock = (manager.defer batch, plan) ∧
      plan.transaction? = none ∧ ∀ result, (plan.outcome result).reconciled = false := by
  cases lock with
  | contended => exact ⟨.notLeader, rfl, rfl, fun _ => rfl⟩
  | pending => exact ⟨.notLeader, rfl, rfl, fun _ => rfl⟩
  | held =>
      refine ⟨.systemNotReady, if_neg fun ready => shut ⟨rfl, ?_⟩, rfl, fun _ => rfl⟩
      exact Bool.or_eq_true_iff.mp ready

theorem plan_open {manager : Manager} {batch : Batch} {lock : LockState}
    (opens : manager.Opens batch lock) :
    manager.plan batch lock =
      ((manager.settledWith batch).1,
        if (manager.settledWith batch).2.isEmpty then .idle
        else .commit (manager.settledWith batch).2) := by
  obtain ⟨rfl, ready⟩ := opens
  rw [← settleDeferred_defer]
  exact if_pos (Bool.or_eq_true_iff.mpr ready)

theorem step_eq (manager : Manager) {event : Event} {batch : Batch}
    (wait : event.wait = .ok batch) :
    manager.step event =
      (.ok ((manager.plan batch event.lock).2.outcome event.commitResult),
        (manager.plan batch event.lock).2.transaction?,
        (manager.plan batch event.lock).1) := by
  unfold step
  rw [wait]

theorem step_passed (manager : Manager) (event : Event) :
    manager.Passed event (manager.step event) := by
  cases wait : event.wait with
  | error error =>
      unfold step
      rw [wait]
      exact .failed error wait
  | ok batch =>
      rw [step_eq manager wait]
      by_cases opens : manager.Opens batch event.lock
      · rw [plan_open opens]
        by_cases empty : (manager.settledWith batch).2.isEmpty = true
        · have idle := Passed.reconciled batch .idle wait opens rfl
          rw [if_pos empty] at idle ⊢
          exact idle
        · cases result : event.commitResult with
          | ok done =>
              have committed := Passed.reconciled batch
                (.committed (manager.settledWith batch).2.size) wait opens rfl
              rw [if_neg empty] at committed ⊢
              exact committed
          | error error =>
              have refused := Passed.reconciled batch .commitFailed wait opens rfl
              rw [if_neg empty] at refused ⊢
              exact refused
      · obtain ⟨plan, planned, nothing, waits⟩ := plan_shut opens
        rw [planned, nothing]
        exact .waited batch (plan.outcome event.commitResult) wait opens (waits _)

end Manager

/-! ## Runs -/

/-- A manager in the course of a run, with the batches that were delivered since it last
reconciled. -/
structure Watch where
  manager : Manager
  waiting : List Batch := []

namespace Watch

def next (watch : Watch) (event : Event) : Watch :=
  let passed := watch.manager.step event
  { manager := passed.2.2
    waiting := if reconciles passed.1 then [] else watch.waiting ++ event.delivered }

def ofRun (config : Config) (events : List Event) : Watch :=
  events.foldl next { manager := .ofConfig config }

theorem ofRun_append (config : Config) (events more : List Event) :
    ofRun config (events ++ more) = more.foldl next (ofRun config events) :=
  List.foldl_append

/-- What is set aside is what waits, and before the first reconciliation everything
that was delivered still does. -/
structure Kept (watch : Watch) (events : List Event) : Prop where
  gathers : watch.manager.deferred.Gathers watch.waiting
  unready : watch.manager.systemReady = false →
    watch.waiting = events.flatMap Event.delivered

theorem next_kept {watch : Watch} {events : List Event} (kept : watch.Kept events)
    (event : Event) : (watch.next event).Kept (events ++ [event]) := by
  have passed := watch.manager.step_passed event
  unfold next
  generalize watch.manager.step event = result at passed
  cases passed with
  | failed error wait =>
      have nothing := Event.delivered_of_error wait
      constructor
      · simpa [reconciles, nothing] using kept.gathers
      · simpa [reconciles, nothing] using kept.unready
  | waited batch outcome wait shut waits =>
      have delivers := Event.delivered_of_ok wait
      constructor
      · simpa [reconciles, waits, delivers, Manager.defer] using
          Pending.merge_gathers kept.gathers batch
      · intro unready
        simp [reconciles, waits, delivers, kept.unready unready]
  | reconciled batch outcome wait opens settles =>
      have taken : (watch.manager.settledWith batch).1.deferred = {} := rfl
      constructor
      · simpa [reconciles, settles, taken] using Pending.empty_gathers
      · exact nofun

theorem ofRun_kept (config : Config) (events : List Event) :
    (ofRun config events).Kept events := by
  have run (rest : List Event) {watch : Watch} {past : List Event} (kept : watch.Kept past) :
      (rest.foldl next watch).Kept (past ++ rest) := by
    induction rest generalizing watch past with
    | nil => simpa using kept
    | cons event rest ih => simpa using ih (next_kept kept event)
  have start : Kept { manager := .ofConfig config } [] :=
    ⟨Pending.empty_gathers, fun _ => rfl⟩
  exact run events start

theorem next_ready {watch : Watch} (ready : watch.manager.systemReady = true)
    (event : Event) : (watch.next event).manager.systemReady = true := by
  have passed := watch.manager.step_passed event
  unfold next
  generalize watch.manager.step event = result at passed
  cases passed with
  | failed error wait => exact ready
  | waited batch outcome wait shut waits => exact ready
  | reconciled batch outcome wait opens settles => rfl

/-- Before the first reconciliation the latest System row still waits, so that it is the
one that the gate looks at. -/
theorem opens_iff {watch : Watch} {events : List Event} (kept : watch.Kept events)
    {event : Event} {batch : Batch} (wait : event.wait = .ok batch) :
    watch.manager.Opens batch event.lock ↔
      event.lock = .held ∧ (watch.manager.systemReady = true ∨
        ∃ system, latestSystem (events ++ [event]) = some system ∧ 0 < system.generation) := by
  refine and_congr_right fun _ => ?_
  cases ready : watch.manager.systemReady with
  | true => simp
  | false =>
      have delivers := Event.delivered_of_ok wait
      have merged := (Pending.merge_gathers kept.gathers batch).system
      rw [kept.unready ready] at merged
      have latest : (watch.manager.defer batch).deferred.system =
          latestSystem (events ++ [event]) := by
        simpa [latestSystem, delivers, Manager.defer] using merged
      unfold Manager.seesReady
      rw [latest]
      cases latestSystem (events ++ [event]) <;> simp

/-! ## The gate -/

/-- What the gate guarantees of one pass of a run and of what came of it: its outcome,
the transaction whose commit it attempted, and the manager after it. -/
structure Gated (before : Watch) (earlier : List Event) (event : Event)
    (passed : Except Failure Outcome × Option Transaction × Manager) : Prop where
  /-- The pass reconciles exactly if it is given a batch, holds the lock, and the system
  was seen to be configured before or is so by its latest row. -/
  opens : reconciles passed.1 = true ↔
    event.delivered ≠ [] ∧ event.lock = .held ∧ (before.manager.systemReady = true ∨
      ∃ system, latestSystem (earlier ++ [event]) = some system ∧ 0 < system.generation)
  /-- Only a pass that reconciles commits, and only what writes some column. -/
  commits : ∀ transaction, passed.2.1 = some transaction →
    reconciles passed.1 = true ∧ ∃ name, (transaction.under name).isEmpty = false
  /-- Any other pass leaves the registry and the size limit alone. -/
  unmoved : reconciles passed.1 = false →
    passed.2.2.registry = before.manager.registry ∧
      passed.2.2.maxMtu = before.manager.maxMtu ∧ passed.2.1 = none
  /-- What is reconciled is what was delivered since the last time, and none is kept. -/
  hands : reconciles passed.1 = true → ∀ batch, event.wait = .ok batch →
    (before.manager.handed batch).FoldOf (before.waiting ++ [batch]) ∧
      passed.2.2 = (before.manager.settledWith batch).1 ∧
      passed.2.1 = if (before.manager.settledWith batch).2.isEmpty then none
        else some (before.manager.settledWith batch).2

theorem exists_written {transaction : Transaction} (nonempty : ¬ transaction.isEmpty = true) :
    ∃ name, (transaction.under name).isEmpty = false := by
  rw [transaction.isEmpty_iff, Classical.not_forall] at nonempty
  obtain ⟨name, writes⟩ := nonempty
  exact ⟨name, Bool.eq_false_iff.mpr writes⟩

theorem gated_of_kept {before : Watch} {earlier : List Event} (kept : before.Kept earlier)
    (event : Event) : before.Gated earlier event (before.manager.step event) := by
  have passed := before.manager.step_passed event
  generalize before.manager.step event = result at passed ⊢
  cases passed with
  | failed error wait =>
      have nothing := Event.delivered_of_error wait
      constructor
      case opens => simp [reconciles, nothing]
      case commits => exact nofun
      case unmoved => exact fun _ => ⟨rfl, rfl, rfl⟩
      case hands => exact nofun
  | waited batch outcome wait shut waits =>
      rw [opens_iff kept wait] at shut
      constructor
      case opens => simp [reconciles, waits, shut]
      case commits => exact nofun
      case unmoved => exact fun _ => ⟨rfl, rfl, rfl⟩
      case hands => simp [reconciles, waits]
  | reconciled batch outcome wait opens settles =>
      have delivers := Event.delivered_of_ok wait
      rw [opens_iff kept wait] at opens
      constructor
      case opens => simp [reconciles, settles, delivers, opens]
      case commits =>
        intro transaction attempted
        refine ⟨settles, ?_⟩
        split at attempted
        · cases attempted
        next nonempty =>
          cases attempted
          exact exists_written nonempty
      case unmoved => simp [reconciles, settles]
      case hands =>
        intro _ other given
        cases wait.symm.trans given
        refine ⟨(Pending.merge_gathers kept.gathers batch).foldOf, rfl, ?_⟩
        dsimp only

end Watch

namespace Manager

theorem config_step (manager : Manager) (event : Event) :
    (manager.step event).2.2.config = manager.config := by
  have passed := manager.step_passed event
  generalize manager.step event = result at passed
  cases passed <;> rfl

theorem run_cons (manager : Manager) (event : Event) (rest : List Event) :
    manager.run (event :: rest) =
      match event.ending? with
      | some failure =>
          { requests := Request.ofPass manager.config (manager.step event).2.1
            failure := some failure
            manager := (manager.step event).2.2 }
      | none =>
          let later := (manager.step event).2.2.run rest
          { later with
            requests :=
              Request.ofPass manager.config (manager.step event).2.1 ++ later.requests } := by
  have ended : event.ending? = match (manager.step event).1 with
      | .ok _ => none
      | .error failure => if failure.isRetryable then none else some failure := by
    unfold Event.ending? step
    cases event.wait <;> rfl
  rw [ended]
  rfl

theorem run_eq (watch : Watch) (events : List Event) :
    watch.manager.run events =
      { requests := List.flatMap (fun passed => Request.ofPass watch.manager.config passed.2.1)
          ((Event.reached events).mapIdx fun turn event =>
            (((Event.reached events).take turn).foldl Watch.next watch).manager.step event)
        failure := events.findSome? Event.ending?
        manager := ((Event.reached events).foldl Watch.next watch).manager } := by
  induction events generalizing watch with
  | nil => rfl
  | cons event rest ih =>
      rw [run_cons, List.findSome?_cons]
      cases ending : event.ending? with
      | some failure => simp [Event.reached, ending, Watch.next]
      | none =>
          have later := ih (watch.next event)
          have config : (watch.next event).manager.config = watch.manager.config :=
            config_step watch.manager event
          rw [config] at later
          have reached : Event.reached (event :: rest) = event :: Event.reached rest := by
            simp [Event.reached, ending]
          rw [reached, List.mapIdx_cons, List.flatMap_cons, List.foldl_cons]
          dsimp only
          rw [show (watch.manager.step event).2.2 = (watch.next event).manager from rfl, later]
          rfl

/-- In every run of a new manager, whatever is delivered, whoever holds the lock and
however commits end: the run makes its passes up to the first wait that fails for good and
asks, pass by pass, for one wait and then for the commit that the pass attempts; every pass
is gated; and a system once seen to be configured stays so. -/
theorem commits_gated (config : Config) (events : List Event) :
    (Event.reached events <+: events ∧
      (ofConfig config).run events =
        { requests := List.flatMap (fun passed => Request.ofPass config passed.2.1)
            ((Event.reached events).mapIdx fun turn event =>
              (Watch.ofRun config ((Event.reached events).take turn)).manager.step event)
          failure := events.findSome? Event.ending?
          manager := (Watch.ofRun config (Event.reached events)).manager }) ∧
    ∀ earlier event later, events = earlier ++ event :: later →
      let before := Watch.ofRun config earlier
      before.Gated earlier event (before.manager.step event) ∧
        (before.manager.systemReady = true →
          (Watch.ofRun config events).manager.systemReady = true) := by
  refine ⟨⟨Event.reached_prefix events, run_eq { manager := ofConfig config } events⟩, ?_⟩
  rintro earlier event later rfl
  refine ⟨Watch.gated_of_kept (Watch.ofRun_kept config earlier) event, fun ready => ?_⟩
  rw [Watch.ofRun_append]
  exact List.foldlRecOn (motive := fun watch => watch.manager.systemReady = true)
    (event :: later) Watch.next ready fun _ ready event _ => Watch.next_ready ready event

/-- A row that shows the system configured is overtaken while another instance holds the
lock, so that the gate stays shut. -/
example :
    let overtaken : List Event :=
      [{ wait := .ok { system := some { generation := 1 } }, lock := .contended },
        { wait := .ok { system := some { generation := 0 } } }]
    ((ofConfig {}).run overtaken).manager.systemReady = false := by decide +kernel

end Manager

end LinkReconciler
