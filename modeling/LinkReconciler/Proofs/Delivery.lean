import LinkReconciler.Proofs.SessionTables

/-!
Delivery of changes. A replica that receives the batches taken from a store lags
behind it by the changes still pending, at any time and whatever the clients do to
the rows, renaming included. Commits are not delivered: they write columns that
the replica is not compared in.
-/

namespace LinkReconciler

structure Replica where
  system : SystemRow := {}
  subsystems : Dict SubsystemRow := ∅
  interfaces : Dict InterfaceRow := ∅
  ports : Dict PortRow := ∅

def Replica.receive (replica : Replica) (batch : Batch) : Replica where
  system := batch.system.getD replica.system
  subsystems := Change.applyAll replica.subsystems batch.subsystems
  interfaces := Change.applyAll replica.interfaces batch.interfaces
  ports := Change.applyAll replica.ports batch.ports

structure Feed where
  store : Store := {}
  taken : List Batch := []

namespace Feed

inductive Event where
  | act (action : ClientAction)
  | commit (transaction : Transaction)
  | take

def next (feed : Feed) : Event → Feed
  | .act action =>
      match action.apply feed.store with
      | .ok store => { feed with store }
      | .error _ => feed
  | .commit transaction => { feed with store := (feed.store.commit transaction).2 }
  | .take =>
      let (batch, store) := feed.store.takeChanges
      { store, taken := feed.taken ++ [batch] }

def after (feed : Feed) (events : List Event) : Feed :=
  events.foldl next feed

def replica (feed : Feed) : Replica :=
  feed.taken.foldl Replica.receive {}

end Feed

/-! ## One table -/

/-- Up to a view of the rows, an image lags behind its table by the queued changes. -/
structure Lags {ρ α : Type} (view : ρ → α) (image table : Dict ρ)
    (queue : ChangeQueue ρ) : Prop where
  filed : queue.Filed
  counted : queue.Counted
  reaches : ∀ name, ((Change.applyAll image queue.drained).get? name).map view =
    (table.get? name).map view

namespace Lags

variable {ρ α : Type} {view : ρ → α} {image table : Dict ρ} {queue : ChangeQueue ρ}

theorem refl (table : Dict ρ) : Lags view table table ∅ :=
  ⟨ChangeQueue.empty_filed, rfl, fun _ => rfl⟩

theorem changed (lags : Lags view image table queue) {change : Change ρ}
    (complete : change.Complete) :
    Lags view image (change.apply table) (queue.push change) where
  filed := ChangeQueue.push_filed lags.filed change
  counted := ChangeQueue.push_counted lags.counted change
  reaches name := by
    rw [ChangeQueue.applyAll_drained_push lags.filed complete]
    exact (complete.alike_iff _ table name).mpr (Or.inr (lags.reaches name))

theorem taken (lags : Lags view image table queue) :
    Lags view (Change.applyAll image queue.drained) table ∅ :=
  ⟨ChangeQueue.empty_filed, rfl, lags.reaches⟩

theorem written {image table : Dict InterfaceRow} {queue : ChangeQueue InterfaceRow}
    (lags : Lags InterfaceRow.clients image table queue) (transaction : Transaction) :
    Lags InterfaceRow.clients image (Store.applyUpdates table transaction) queue where
  filed := lags.filed
  counted := lags.counted
  reaches name := by
    rw [Store.get?_applyUpdates, Option.map_map, RowUpdate.clients_apply]
    exact lags.reaches name

theorem of_idle (lags : Lags view image table queue) (idle : queue.hasPending = false)
    (name : String) : (image.get? name).map view = (table.get? name).map view := by
  have reaches := lags.reaches name
  rw [lags.counted.drained_eq_nil idle] at reaches
  exact reaches

theorem keys_of_idle (lags : Lags view image table queue)
    (idle : queue.hasPending = false) : image.keys = table.keys := by
  have same : image.mapValues view = table.mapValues view := by
    ext name : 1
    rw [Dict.get?_mapValues, Dict.get?_mapValues]
    exact lags.of_idle idle name
  rw [← Dict.keys_mapValues image view, same, Dict.keys_mapValues]

theorem eq_of_idle {image table : Dict ρ} (lags : Lags id image table queue)
    (idle : queue.hasPending = false) : image = table := by
  ext name : 1
  simpa using lags.of_idle idle name

end Lags

/-! ## All tables -/

namespace Feed

/-- Receiving the pending changes would bring the replica up to the store. -/
structure Lagging (feed : Feed) : Prop where
  system : feed.store.pending.system.getD feed.replica.system = feed.store.system
  subsystems : Lags id feed.replica.subsystems feed.store.subsystems
    feed.store.pending.subsystems
  interfaces : Lags InterfaceRow.clients feed.replica.interfaces feed.store.interfaces
    feed.store.pending.interfaces
  ports : Lags id feed.replica.ports feed.store.ports feed.store.pending.ports

variable {feed : Feed}

theorem empty_lagging : ({} : Feed).Lagging :=
  ⟨rfl, .refl ∅, .refl ∅, .refl ∅⟩

theorem replica_take (feed : Feed) :
    (feed.next .take).replica = feed.replica.receive feed.store.pending.batch := by
  show (feed.taken ++ [feed.store.pending.batch]).foldl Replica.receive {} = _
  rw [List.foldl_append]
  rfl

theorem Lagging.act (lagging : feed.Lagging) (action : ClientAction) :
    (feed.next (.act action)).Lagging := by
  have ⟨system, subsystems, interfaces, ports⟩ := lagging
  cases action with
  | putInterface row =>
      exact ⟨system, subsystems, interfaces.changed (.put row.name row), ports⟩
  | reviseInterface name change =>
      -- The new row is queued under the key that it is stored under, whatever its name.
      simp only [next, ClientAction.apply, Store.reviseInterface]
      cases feed.store.interfaces.get? name with
      | none => exact lagging
      | some row =>
          exact ⟨system, subsystems, interfaces.changed (.put name (change row)), ports⟩
  | deleteInterface name =>
      simp only [next, ClientAction.apply, Store.deleteInterface]
      split
      · exact ⟨system, subsystems, interfaces.changed (.deleted name), ports⟩
      · exact lagging
  | putPort row =>
      exact ⟨system, subsystems, interfaces, ports.changed (.put row.name row)⟩
  | deletePort name =>
      simp only [next, ClientAction.apply, Store.deletePort]
      split
      · exact ⟨system, subsystems, interfaces, ports.changed (.deleted name)⟩
      · exact lagging
  | putSubsystem row =>
      exact ⟨system, subsystems.changed (.put row.name row), interfaces, ports⟩
  | setGeneration generation => exact ⟨rfl, subsystems, interfaces, ports⟩
  | setLock lock => exact ⟨system, subsystems, interfaces, ports⟩
  | refuseNextCommit message => exact ⟨system, subsystems, interfaces, ports⟩

theorem Lagging.commit (lagging : feed.Lagging) (transaction : Transaction) :
    (feed.next (.commit transaction)).Lagging := by
  have ⟨system, subsystems, interfaces, ports⟩ := lagging
  simp only [next, Store.commit]
  cases feed.store.refusal with
  | some message => exact ⟨system, subsystems, interfaces, ports⟩
  | none => exact ⟨system, subsystems, interfaces.written transaction, ports⟩

theorem Lagging.take (lagging : feed.Lagging) : (feed.next .take).Lagging := by
  constructor <;> rw [replica_take]
  · exact lagging.system
  · exact lagging.subsystems.taken
  · exact lagging.interfaces.taken
  · exact lagging.ports.taken

theorem Lagging.next (lagging : feed.Lagging) (event : Event) :
    (feed.next event).Lagging := by
  cases event with
  | act action => exact lagging.act action
  | commit transaction => exact lagging.commit transaction
  | take => exact lagging.take

theorem Lagging.after (lagging : feed.Lagging) (events : List Event) :
    (feed.after events).Lagging := by
  unfold Feed.after
  induction events generalizing feed with
  | nil => exact lagging
  | cons event rest ih => exact ih (lagging.next event)

/-- Whatever clients do, commits write and whenever changes are taken: with nothing
pending, an empty replica that received the batches in order has the System row, the
ports and the subsystems of the store, and its interfaces but for the columns that
commits write. -/
theorem delivery_lossless (events : List Event)
    (idle : (after {} events).store.hasPending = false) :
    let feed := after {} events
    feed.replica.system = feed.store.system ∧
    feed.replica.subsystems = feed.store.subsystems ∧
    feed.replica.ports = feed.store.ports ∧
    feed.replica.interfaces.keys = feed.store.interfaces.keys ∧
    ∀ name received stored,
      feed.replica.interfaces.get? name = some received →
      feed.store.interfaces.get? name = some stored →
      received.clients = stored.clients := by
  intro feed
  have lagging : feed.Lagging := empty_lagging.after events
  simp only [Store.hasPending, Pending.hasPending, Bool.or_eq_false_iff] at idle
  obtain ⟨⟨⟨noSystem, noSubsystems⟩, noInterfaces⟩, noPorts⟩ := idle
  refine ⟨?_, lagging.subsystems.eq_of_idle noSubsystems,
    lagging.ports.eq_of_idle noPorts, lagging.interfaces.keys_of_idle noInterfaces, ?_⟩
  · have nothing : feed.store.pending.system = none := by simpa using noSystem
    have system := lagging.system
    rw [nothing] at system
    exact system
  · intro name received stored inReplica inStore
    have same := lagging.interfaces.of_idle noInterfaces name
    rw [inReplica, inStore] at same
    exact Option.some.inj same

/-- A row is renamed in place, deleted and put again, with batches taken in between;
commits go through, are refused, and come after the last batch. -/
def renamedRow : List Event :=
  let blocked := Transaction.write ∅ "1" (.error (some "admin_down"))
  [.act (.setGeneration 1), .act (.putSubsystem { name := "base" }),
    .act (.putInterface { name := "1" }), .act (.putPort { name := "p", interfaces := ["1"] }),
    .take, .commit blocked, .act (.deleteInterface "1"), .act (.deleteInterface "1"),
    .act (.putInterface { name := "1", kind := "loopback" }),
    .act (.reviseInterface "1" fun row => { row with name := "2" }), .take,
    .act (.refuseNextCommit "constraint violation"), .commit blocked,
    .act (.deletePort "p"), .act (.putInterface { name := "2" }),
    .act (.reviseInterface "2" fun row => { row with splitParent := some "1" }),
    .act (.setGeneration 2), .take, .commit blocked]

theorem renamedRow_delivered :
    (after {} renamedRow).store.hasPending = false ∧
      (after {} renamedRow).replica.interfaces.keys = ["1", "2"] ∧
      (after {} renamedRow).replica.ports = ∅ := by
  have idle : (after {} renamedRow).store.hasPending = false := by decide +kernel
  have lossless := delivery_lossless renamedRow idle
  have inStore : (after {} renamedRow).store.interfaces.keys = ["1", "2"] := by
    decide +kernel
  have noPorts : (after {} renamedRow).store.ports = ∅ := by decide +kernel
  exact ⟨idle, lossless.2.2.2.1.trans inStore, lossless.2.2.1.trans noPorts⟩

end Feed

end LinkReconciler
