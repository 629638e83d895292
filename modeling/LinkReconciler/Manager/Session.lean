import LinkReconciler.Manager.Pass

/-!
A manager beside the store it works on. Clients change the store between passes;
a pass is made of the three steps `takeChanges`, `plan` and `commit`.
-/

namespace LinkReconciler

structure Session where
  store : Store := {}
  manager : Manager := {}
deriving DecidableEq

inductive ClientAction where
  | putInterface (row : InterfaceRow)
  | reviseInterface (name : String) (change : InterfaceRow → InterfaceRow)
  | deleteInterface (name : String)
  | putPort (row : PortRow)
  | deletePort (name : String)
  | putSubsystem (row : SubsystemRow)
  | setGeneration (generation : Int64)
  | setLock (lock : LockState)
  | refuseNextCommit (message : String)

namespace ClientAction

def apply (store : Store) : ClientAction → Except StoreError Store
  | putInterface row => .ok (store.putInterface row)
  | reviseInterface name change => store.reviseInterface name change
  | deleteInterface name => .ok (store.deleteInterface name)
  | putPort row => .ok (store.putPort row)
  | deletePort name => .ok (store.deletePort name)
  | putSubsystem row => .ok (store.putSubsystem row)
  | setGeneration generation => .ok (store.setGeneration generation)
  | setLock lock => .ok (store.setLock lock)
  | refuseNextCommit message => .ok (store.refuseNextCommit message)

end ClientAction

namespace Session

/-- A failed action leaves the store as it was. -/
def act (session : Session) (action : ClientAction) :
    Except StoreError Unit × Session :=
  match action.apply session.store with
  | .ok store => (.ok (), { session with store })
  | .error error => (.error error, session)

def prepare (session : Session) : Plan × Session :=
  let (batch, store) := session.store.takeChanges
  let (manager, plan) := session.manager.plan batch store.lock
  (plan, ⟨store, manager⟩)

def finish (session : Session) (plan : Plan) : Outcome × Session :=
  match plan.transaction? with
  | some transaction =>
      let (result, store) := session.store.commit transaction
      (plan.outcome result, { session with store })
  | none => (plan.outcome (.ok ()), session)

def pass (session : Session) : Outcome × Session :=
  let (plan, session) := session.prepare
  session.finish plan

end Session

end LinkReconciler
