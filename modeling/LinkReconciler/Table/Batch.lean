import LinkReconciler.Table.Change

/-!
Batches of changes across all tables, and the pending changes that fold one
batch after another into the next.
-/

namespace LinkReconciler

structure Batch where
  system : Option SystemRow := none
  subsystems : List (Change SubsystemRow) := []
  interfaces : List (Change InterfaceRow) := []
  ports : List (Change PortRow) := []
deriving DecidableEq

namespace Batch

def isEmpty (batch : Batch) : Bool :=
  batch.system.isNone && batch.subsystems.isEmpty &&
    batch.interfaces.isEmpty && batch.ports.isEmpty

def size (batch : Batch) : Nat :=
  (if batch.system.isSome then 1 else 0) + batch.subsystems.length +
    batch.interfaces.length + batch.ports.length

end Batch

structure Pending where
  system : Option SystemRow := none
  subsystems : ChangeQueue SubsystemRow := ∅
  interfaces : ChangeQueue InterfaceRow := ∅
  ports : ChangeQueue PortRow := ∅
deriving DecidableEq

namespace Pending

def hasPending (pending : Pending) : Bool :=
  pending.system.isSome || pending.subsystems.hasPending ||
    pending.interfaces.hasPending || pending.ports.hasPending

def count (pending : Pending) : Nat :=
  (if pending.system.isSome then 1 else 0) + pending.subsystems.count +
    pending.interfaces.count + pending.ports.count

def setSystem (pending : Pending) (row : SystemRow) : Pending :=
  { pending with system := some row }

def pushSubsystem (pending : Pending) (change : Change SubsystemRow) : Pending :=
  { pending with subsystems := pending.subsystems.push change }

def pushInterface (pending : Pending) (change : Change InterfaceRow) : Pending :=
  { pending with interfaces := pending.interfaces.push change }

def pushPort (pending : Pending) (change : Change PortRow) : Pending :=
  { pending with ports := pending.ports.push change }

/-- Folds a batch in; a System row replaces the one that was waiting. -/
def merge (pending : Pending) (batch : Batch) : Pending where
  system := batch.system.or pending.system
  subsystems := pending.subsystems.pushAll batch.subsystems
  interfaces := pending.interfaces.pushAll batch.interfaces
  ports := pending.ports.pushAll batch.ports

def batch (pending : Pending) : Batch where
  system := pending.system
  subsystems := pending.subsystems.drained
  interfaces := pending.interfaces.drained
  ports := pending.ports.drained

def take (pending : Pending) : Batch × Pending :=
  (pending.batch, {})

end Pending

end LinkReconciler
