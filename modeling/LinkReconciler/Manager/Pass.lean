import LinkReconciler.Config
import LinkReconciler.Manager.Reconcile
import LinkReconciler.Table.Store

/-!
The manager and its passes. In a pass the manager takes one batch. It sets the
batch aside while it may not write, or while the system is not configured yet;
otherwise it reconciles everything set aside as one batch and commits the writes.
-/

namespace LinkReconciler

structure Manager where
  config : Config := {}
  registry : Registry := ∅
  /-- The size limit of the configured subsystem; zero until it was seen. -/
  maxMtu : UInt32 := 0
  /-- Whether the system was ever seen to be configured. -/
  systemReady : Bool := false
  /-- Changes set aside for the next reconciliation. -/
  deferred : Pending := {}
deriving DecidableEq

/-- What a manager makes of a batch, short of committing. -/
inductive Plan where
  | notLeader
  | systemNotReady
  | idle
  | commit (transaction : Transaction)
deriving DecidableEq

inductive Outcome where
  | notLeader
  | systemNotReady
  | idle
  | committed (interfaces : Nat)
  | commitFailed
deriving DecidableEq, Repr

namespace Manager

def ofConfig (config : Config) : Manager := { config }

def arbiter (manager : Manager) : Arbiter :=
  .standard manager.config.arbiter.requireHwReady

def reconcile (manager : Manager) (batch : Batch) (transaction : Transaction) :
    Manager × Transaction :=
  let work := Work.absorb manager.config.system.subsystem manager.arbiter
    { registry := manager.registry, maxMtu := manager.maxMtu } batch
  let settlement := work.settle manager.arbiter transaction
  ({ manager with registry := settlement.registry, maxMtu := work.maxMtu },
    settlement.transaction)

def defer (manager : Manager) (batch : Batch) : Manager :=
  { manager with deferred := manager.deferred.merge batch }

/-- Whether the changes set aside show the system to be configured. -/
def seesReady (manager : Manager) : Bool :=
  match manager.deferred.system with
  | some system => system.generation > 0
  | none => false

def settleDeferred (manager : Manager) : Manager × Plan :=
  let (batch, deferred) := manager.deferred.take
  let (manager, transaction) :=
    { manager with deferred, systemReady := true }.reconcile batch ∅
  (manager, if transaction.isEmpty then .idle else .commit transaction)

def plan (manager : Manager) (batch : Batch) (lock : LockState) :
    Manager × Plan :=
  let manager := manager.defer batch
  match lock with
  | .contended | .pending => (manager, .notLeader)
  | .held =>
      if manager.systemReady || manager.seesReady then manager.settleDeferred
      else (manager, .systemNotReady)

end Manager

namespace Plan

def transaction? : Plan → Option Transaction
  | commit transaction => some transaction
  | _ => none

def outcome (plan : Plan) (result : Except StoreError Unit) : Outcome :=
  match plan with
  | notLeader => .notLeader
  | systemNotReady => .systemNotReady
  | idle => .idle
  | commit transaction =>
      match result with
      | .ok () => .committed transaction.size
      | .error _ => .commitFailed

end Plan

end LinkReconciler
