import LinkReconciler.Error
import LinkReconciler.Table.Batch
import LinkReconciler.Table.Transaction

/-!
The database in memory. Every change a client makes is queued for the
reconciler; what the reconciler commits is not.
-/

namespace LinkReconciler

inductive LockState where
  | held
  | pending
  | contended
deriving DecidableEq, Repr

namespace LockState

def values : List LockState := [held, pending, contended]

def word : LockState → String
  | held => "held"
  | pending => "pending"
  | contended => "contended"

end LockState

structure Store where
  system : SystemRow := {}
  subsystems : Dict SubsystemRow := ∅
  interfaces : Dict InterfaceRow := ∅
  ports : Dict PortRow := ∅
  /-- Changes the reconciler has not taken yet. -/
  pending : Pending := {}
  lock : LockState := .held
  /-- How many transactions were committed. -/
  commits : Nat := 0
  /-- The message with which the next commit is refused, if it is to be. -/
  refusal : Option String := none
deriving DecidableEq

namespace Store

/-! ## Clients -/

def putInterface (store : Store) (row : InterfaceRow) : Store :=
  { store with
    interfaces := store.interfaces.insert row.name row
    pending := store.pending.pushInterface (.ofRow row) }

/-- Changes a stored row in place. It stays under its key even if it is renamed. -/
def reviseInterface (store : Store) (name : String)
    (change : InterfaceRow → InterfaceRow) : Except StoreError Store :=
  match store.interfaces.get? name with
  | some row =>
      .ok { store with
        interfaces := store.interfaces.insert name (change row)
        pending := store.pending.pushInterface (.set name (change row)) }
  | none => .error (.rowNotFound "Interface" name)

def deleteInterface (store : Store) (name : String) : Store :=
  if store.interfaces.contains name then
    { store with
      interfaces := store.interfaces.erase name
      pending := store.pending.pushInterface (.del name) }
  else store

def putPort (store : Store) (row : PortRow) : Store :=
  { store with
    ports := store.ports.insert row.name row
    pending := store.pending.pushPort (.ofRow row) }

def deletePort (store : Store) (name : String) : Store :=
  if store.ports.contains name then
    { store with
      ports := store.ports.erase name
      pending := store.pending.pushPort (.del name) }
  else store

def putSubsystem (store : Store) (row : SubsystemRow) : Store :=
  { store with
    subsystems := store.subsystems.insert row.name row
    pending := store.pending.pushSubsystem (.ofRow row) }

def setGeneration (store : Store) (generation : Int64) : Store :=
  { store with
    system := ⟨generation⟩
    pending := store.pending.setSystem ⟨generation⟩ }

def setLock (store : Store) (lock : LockState) : Store :=
  { store with lock }

def refuseNextCommit (store : Store) (message : String) : Store :=
  { store with refusal := some message }

/-! ## Snapshots -/

def ofSnapshot (snapshot : Snapshot) : Store :=
  -- Of two rows with one name the later one is stored and queued.
  let store := setGeneration {} snapshot.system.generation
  let store := snapshot.subsystems.foldl putSubsystem store
  let store := snapshot.interfaces.foldl putInterface store
  snapshot.ports.foldl putPort store

def snapshot (store : Store) : Snapshot where
  system := store.system
  subsystems := store.subsystems.values
  interfaces := store.interfaces.values
  ports := store.ports.values

/-! ## The reconciler's side -/

def hasPending (store : Store) : Bool :=
  store.pending.hasPending

/-- The changes since the last time they were taken; an empty batch if none. -/
def takeChanges (store : Store) : Batch × Store :=
  (store.pending.batch, { store with pending := {} })

def applyUpdates (interfaces : Dict InterfaceRow) (transaction : Transaction) :
    Dict InterfaceRow :=
  transaction.updates.entries.foldl
    (fun rows entry => rows.modify entry.1 entry.2.apply) interfaces

/-- Commits a transaction as a whole. A refused commit changes nothing, and only
one commit is refused. -/
def commit (store : Store) (transaction : Transaction) :
    Except StoreError Unit × Store :=
  match store.refusal with
  | some message => (.error (.commit message), { store with refusal := none })
  | none =>
      (.ok (), { store with
        interfaces := applyUpdates store.interfaces transaction
        commits := store.commits + 1 })

end Store

end LinkReconciler
