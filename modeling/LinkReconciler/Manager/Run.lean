import LinkReconciler.Manager.Pass

/-!
Runs of a manager against a database whose answers are given beforehand, one
event per wait. A refused commit does not end a run, and neither does a failed
wait that may be tried again; any other failed wait does. Where the events end,
the manager is asked to stop.
-/

namespace LinkReconciler

/-- How the database answers during one pass. -/
structure Event where
  wait : Except StoreError Batch := .ok {}
  lock : LockState := .held
  commitError : Option StoreError := none

inductive Request where
  | wait (timeoutMs : UInt64)
  | commit (transaction : Transaction)
deriving DecidableEq

/-- A run so far: the requests in order, and the failure that ended it if any. -/
structure Run where
  requests : List Request
  failure : Option Failure
  manager : Manager
deriving DecidableEq

namespace Event

def commitResult (event : Event) : Except StoreError Unit :=
  match event.commitError with
  | some error => .error error
  | none => .ok ()

end Event

namespace Manager

/-- One pass: its outcome or the failure of its wait, the transaction whose
commit it attempted, and the manager after it. -/
def step (manager : Manager) (event : Event) :
    Except Failure Outcome × Option Transaction × Manager :=
  match event.wait with
  | .error error => (.error (.store error), none, manager)
  | .ok batch =>
      let (manager, plan) := manager.plan batch event.lock
      (.ok (plan.outcome event.commitResult), plan.transaction?, manager)

/-- Runs passes until the events end or a failure may not be tried again. -/
def run (manager : Manager) : List Event → Run
  | [] => ⟨[], none, manager⟩
  | event :: rest =>
      let (result, attempt, after) := manager.step event
      let requests := .wait manager.config.store.pollTimeoutMs ::
        attempt.toList.map .commit
      let ended := match result with
        | .ok _ => none
        | .error failure => if failure.isRetryable then none else some failure
      match ended with
      | some failure => ⟨requests, some failure, after⟩
      | none =>
          let later := after.run rest
          { later with requests := requests ++ later.requests }

end Manager

end LinkReconciler
