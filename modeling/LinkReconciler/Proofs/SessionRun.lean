import LinkReconciler.Manager.Session
import LinkReconciler.Proofs.Reconciliation

/-!
Runs of a session: client actions and passes in any order. A pass either sets
everything aside or reconciles everything that is on its way, and in both cases
nothing is lost: what is set aside and what was not taken yet still turn what the
registry tracks into what is stored.
-/

namespace LinkReconciler

def Outcome.reconciled : Outcome → Bool
  | notLeader | systemNotReady => false
  | idle | committed _ | commitFailed => true

inductive Step where
  | act (action : ClientAction)
  | pass

def Step.KeepsNames : Step → Prop
  | act (.reviseInterface _ change) => ∀ row, (change row).name = row.name
  | _ => True

namespace Session

def start (config : Config) : Session where
  manager := .ofConfig config

def next (session : Session) : Step → Session
  | .act action => (session.act action).2
  | .pass => session.pass.2

def after (session : Session) (steps : List Step) : Session :=
  steps.foldl next session

theorem after_append (session : Session) (steps more : List Step) :
    session.after (steps ++ more) = (session.after steps).after more :=
  List.foldl_append

/-- Everything set aside and everything not taken yet, as one batch. -/
def outstanding (session : Session) : Batch :=
  (session.manager.deferred.merge session.store.pending.batch).batch

def waited (session : Session) : Session where
  store := { session.store with pending := {} }
  manager := session.manager.defer session.store.pending.batch

def readied (session : Session) : Manager :=
  { session.manager with deferred := {}, systemReady := true }

def reconciliation (session : Session) : Manager × Transaction :=
  session.readied.reconcile session.outstanding ∅

/-- What a pass that reconciles leaves. -/
structure Reconciled (session : Session) : Prop where
  outcome : session.pass.1.reconciled = true
  manager : session.pass.2.manager = session.reconciliation.1
  interfaces : session.pass.2.store.interfaces =
    if session.pass.1 = .commitFailed then session.store.interfaces
    else Store.applyUpdates session.store.interfaces session.reconciliation.2
  others : session.pass.2.store.system = session.store.system ∧
    session.pass.2.store.subsystems = session.store.subsystems ∧
    session.pass.2.store.ports = session.store.ports
  pending : session.pass.2.store.pending = {}
  idle : session.pass.1 = .idle ↔ session.reconciliation.2.isEmpty = true
  failed : session.pass.1 = .commitFailed → session.store.refusal.isSome = true
  refusal : session.store.refusal = none → session.pass.2.store.refusal = none
  untouched : session.pass.1 = .idle →
    session.pass.2.store = { session.store with pending := {} }

theorem Reconciled.deferred {session : Session} (passed : session.Reconciled) :
    session.pass.2.manager.deferred = {} := by
  rw [passed.manager]
  exact Manager.deferred_reconcile _ _ _

theorem Reconciled.config {session : Session} (passed : session.Reconciled) :
    session.pass.2.manager.config = session.manager.config := by
  rw [passed.manager]
  exact Manager.config_reconcile _ _ _

theorem reconciled_of_prepare {session : Session}
    (planned : session.prepare =
      (if session.reconciliation.2.isEmpty then .idle else .commit session.reconciliation.2,
        ⟨{ session.store with pending := {} }, session.reconciliation.1⟩)) :
    session.Reconciled := by
  by_cases empty : session.reconciliation.2.isEmpty = true
  · have passed : session.pass =
        (.idle, ⟨{ session.store with pending := {} }, session.reconciliation.1⟩) := by
      unfold pass
      rw [planned, if_pos empty]
      rfl
    have unwritten := Store.applyUpdates_of_isEmpty session.store.interfaces empty
    constructor <;> simp [passed, Outcome.reconciled, empty, unwritten]
  · have commits : session.pass = (⟨{ session.store with pending := {} },
        session.reconciliation.1⟩ : Session).finish (.commit session.reconciliation.2) := by
      unfold pass
      rw [planned, if_neg empty]
    -- A refused commit leaves the table as it was and uses the refusal up.
    cases refusal : session.store.refusal with
    | some message =>
        have passed : session.pass =
            (.commitFailed, ⟨{ session.store with pending := {}, refusal := none },
              session.reconciliation.1⟩) := by
          rw [commits]
          simp only [finish, Plan.transaction?, Store.commit, refusal, Plan.outcome]
        constructor <;> simp [passed, Outcome.reconciled, empty, refusal]
    | none =>
        have passed : session.pass =
            (.committed session.reconciliation.2.size,
              ⟨{ session.store with
                pending := {}
                interfaces := Store.applyUpdates session.store.interfaces
                  session.reconciliation.2
                commits := session.store.commits + 1 }, session.reconciliation.1⟩) := by
          rw [commits]
          simp only [finish, Plan.transaction?, Store.commit, refusal, Plan.outcome]
        constructor <;> simp [passed, Outcome.reconciled, empty, refusal]

/-- Whether the next pass may reconcile. -/
def mayReconcile (session : Session) : Bool :=
  let manager := session.manager.defer session.store.pending.batch
  session.store.lock = .held && (manager.systemReady || manager.seesReady)

theorem settleDeferred_defer (session : Session) :
    (session.manager.defer session.store.pending.batch).settleDeferred =
      (session.reconciliation.1,
        if session.reconciliation.2.isEmpty then .idle
        else .commit session.reconciliation.2) := by
  have same : { session.manager.defer session.store.pending.batch with
        deferred := {}, systemReady := true }.reconcile
      (session.manager.defer session.store.pending.batch).deferred.batch ∅ =
        session.reconciliation := rfl
  rw [Manager.settleDeferred_eq, same]

theorem prepare_eq (session : Session) :
    session.prepare =
      ((session.manager.plan session.store.pending.batch session.store.lock).2,
        ⟨{ session.store with pending := {} },
          (session.manager.plan session.store.pending.batch session.store.lock).1⟩) := rfl

theorem reconciled_of_mayReconcile {session : Session}
    (ready : session.mayReconcile = true) : session.Reconciled := by
  unfold mayReconcile at ready
  simp only [Bool.and_eq_true, decide_eq_true_iff] at ready
  obtain ⟨held, seen⟩ := ready
  have planned : session.manager.plan session.store.pending.batch .held =
      (session.manager.defer session.store.pending.batch).settleDeferred := if_pos seen
  apply reconciled_of_prepare
  rw [prepare_eq, held, planned, settleDeferred_defer]

theorem waited_of_not_mayReconcile {session : Session}
    (unready : session.mayReconcile = false) :
    session.pass.1.reconciled = false ∧ session.pass.2 = session.waited := by
  have planned : ∃ plan, plan.transaction? = none ∧
      (plan.outcome (.ok ())).reconciled = false ∧
      session.manager.plan session.store.pending.batch session.store.lock =
        (session.manager.defer session.store.pending.batch, plan) := by
    cases lock : session.store.lock with
    | contended => exact ⟨.notLeader, rfl, rfl, rfl⟩
    | pending => exact ⟨.notLeader, rfl, rfl, rfl⟩
    | held =>
        refine ⟨.systemNotReady, rfl, rfl, if_neg ?_⟩
        intro seen
        unfold mayReconcile at unready
        simp only [lock, decide_true, Bool.true_and, seen] at unready
        cases unready
  obtain ⟨plan, uncommitted, waits, planned⟩ := planned
  unfold pass finish
  rw [prepare_eq, planned]
  simp only [uncommitted]
  exact ⟨waits, rfl⟩

/-- A pass sets everything aside or reconciles everything. -/
theorem pass_cases (session : Session) :
    (session.pass.1.reconciled = false ∧ session.pass.2 = session.waited) ∨
      session.Reconciled := by
  cases ready : session.mayReconcile with
  | false => exact Or.inl (waited_of_not_mayReconcile ready)
  | true => exact Or.inr (reconciled_of_mayReconcile ready)

theorem reconciled_iff (session : Session) :
    session.pass.1.reconciled = true ↔ session.Reconciled := by
  constructor
  · intro reconciles
    rcases pass_cases session with ⟨waits, _⟩ | reconciled
    · rw [waits] at reconciles
      cases reconciles
    · exact reconciled
  · exact Reconciled.outcome

end Session

end LinkReconciler
