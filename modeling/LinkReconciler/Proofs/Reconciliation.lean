import LinkReconciler.Manager.Pass
import LinkReconciler.Proofs.Arbitration
import LinkReconciler.Proofs.Settlement

/-!
One reconciliation as a whole. A manager tracks images of the Interface and Port
tables; reconciling a well-formed batch makes it track the images that the batch
and the transaction leave.
-/

namespace LinkReconciler

theorem RowUpdate.declared_apply (update : RowUpdate) (limit : UInt32) :
    (fun row => (Interface.ofRow row limit).declared) ∘ update.apply =
      fun row => (Interface.ofRow row limit).declared := rfl

namespace Manager

open Work

/-- The registry says what images of the Interface and Port tables say, and every
interface has the admin state of its port. -/
structure Tracks (manager : Manager) (image : Dict InterfaceRow)
    (ports : Dict PortRow) : Prop where
  records : manager.registry.Records image manager.maxMtu
  keyed : Keyed image
  portsOf : manager.registry.PortsOf ports
  claimed : Claimed manager.registry

theorem ofConfig_tracks (config : Config) : (ofConfig config).Tracks ∅ ∅ where
  records := fun _ => rfl
  keyed := fun _ _ absent => nomatch absent
  portsOf := rfl
  claimed := fun _ _ absent => nomatch absent

theorem Tracks.of_same {manager other : Manager} {image : Dict InterfaceRow}
    {ports : Dict PortRow} (tracks : manager.Tracks image ports)
    (registry : other.registry = manager.registry) (maxMtu : other.maxMtu = manager.maxMtu) :
    other.Tracks image ports where
  records := registry ▸ maxMtu ▸ tracks.records
  keyed := tracks.keyed
  portsOf := registry ▸ tracks.portsOf
  claimed := registry ▸ tracks.claimed

def absorption (manager : Manager) (batch : Batch) : Absorption where
  subsystem := manager.config.system.subsystem
  arbiter := manager.arbiter
  start := { registry := manager.registry, maxMtu := manager.maxMtu }
  batch := batch

theorem reconcile_eq (manager : Manager) {batch : Batch} (wellFormed : batch.WellFormed) :
    let work := (manager.absorption batch).result
    manager.reconcile batch ∅ =
      ({ manager with
        registry := (work.settle manager.arbiter ∅).registry
        maxMtu := work.maxMtu },
        (work.settle manager.arbiter ∅).transaction) := by
  have result := Absorption.absorb_eq_result (manager.absorption batch) wellFormed.interfaces
  unfold reconcile
  rw [show Work.absorb manager.config.system.subsystem manager.arbiter
    { registry := manager.registry, maxMtu := manager.maxMtu } batch =
      (manager.absorption batch).result from result]

theorem config_reconcile (manager : Manager) (batch : Batch) (transaction : Transaction) :
    (manager.reconcile batch transaction).1.config = manager.config := rfl

theorem deferred_reconcile (manager : Manager) (batch : Batch) (transaction : Transaction) :
    (manager.reconcile batch transaction).1.deferred = manager.deferred := rfl

theorem settleDeferred_eq (manager : Manager) :
    manager.settleDeferred =
      (let result := { manager with deferred := {}, systemReady := true }.reconcile
        manager.deferred.batch ∅
      (result.1, if result.2.isEmpty then .idle else .commit result.2)) := rfl

section Reconciled
variable {manager : Manager} {image : Dict InterfaceRow} {ports : Dict PortRow}
  (tracks : manager.Tracks image ports) {batch : Batch} (wellFormed : batch.WellFormed)
include tracks wellFormed

theorem absorption_records :
    (manager.absorption batch).result.registry.Records
        (Change.applyAll image batch.interfaces) (manager.absorption batch).result.maxMtu ∧
      Keyed (Change.applyAll image batch.interfaces) :=
  ⟨Absorption.result_records tracks.records tracks.keyed wellFormed.interfaces,
    applyAll_keyed tracks.keyed wellFormed.interfaces.proper⟩

theorem reconcile_tracks :
    (manager.reconcile batch ∅).1.Tracks
      (Store.applyUpdates (Change.applyAll image batch.interfaces)
        (manager.reconcile batch ∅).2)
      (Change.applyAll ports batch.ports) := by
  obtain ⟨records, keyed⟩ := absorption_records tracks wellFormed
  rw [reconcile_eq manager wellFormed]
  exact
    { records := settle_records records keyed
      keyed := Store.applyUpdates_keyed keyed _
      portsOf := (ports_settle manager.arbiter _).trans
        (Absorption.result_portsOf tracks.records tracks.keyed wellFormed.interfaces
          tracks.claimed tracks.portsOf wellFormed.ports.proper)
      claimed := settle_claimed (Absorption.result_claimed tracks.records tracks.keyed
        wellFormed.interfaces tracks.claimed) }

theorem reconcile_declared? (name : String) :
    (manager.reconcile batch ∅).1.registry.declared? name =
      ((Change.applyAll image batch.interfaces).get? name).map fun row =>
        (Interface.ofRow row (manager.reconcile batch ∅).1.maxMtu).declared := by
  rw [(reconcile_tracks tracks wellFormed).records.declared?_eq, Store.get?_applyUpdates,
    Option.map_map, RowUpdate.declared_apply]

theorem reconcile_put {row : InterfaceRow}
    (member : row ∈ Change.rows batch.interfaces) :
    ∃ after, (manager.reconcile batch ∅).1.registry.interface? row.name = some after ∧
      after.declared =
        (Interface.ofRow row (manager.reconcile batch ∅).1.maxMtu).declared := by
  have put : (Change.applyAll image batch.interfaces).get? row.name = some row :=
    Change.get?_applyAll_of_mem_rows wellFormed.interfaces member image
  have declared := reconcile_declared? tracks wellFormed row.name
  rw [put, Option.map_some] at declared
  exact Option.map_eq_some_iff.mp declared

/-- An interface is current after a batch if it is listed by the parent it names,
provided that the batch set its row or it was current and listed before. -/
theorem reconcile_current {name : String}
    (listed : (manager.reconcile batch ∅).1.registry.Listed name)
    (before : name ∈ (Change.rows batch.interfaces).map (·.name) ∨
      (manager.registry.Current name ∧ manager.registry.Listed name)) :
    (manager.reconcile batch ∅).1.registry.Current name := by
  rw [reconcile_eq manager wellFormed] at listed ⊢
  refine settle_current ?_
  refine Absorption.result_accounted tracks.records tracks.keyed wellFormed.interfaces ?_
    (before.imp_right fun kept => ⟨accounted_of_current kept.1, kept.2⟩)
  -- Settling changes no declaration, so what is listed afterwards was listed before it.
  exact Registry.listed_of_declared? (declared?_settle _ _).symm listed

/-- Every interface comes out of an arbitration that started from the forwarding
column of its row, and the transaction writes how it differs from that row. -/
theorem reconcile_settled {name : String} {after : Interface}
    (found : (manager.reconcile batch ∅).1.registry.interface? name = some after) :
    ∃ row before derived,
      (Change.applyAll image batch.interfaces).get? name = some row ∧
      before.recorded =
        (Interface.ofRow row (manager.reconcile batch ∅).1.maxMtu).recorded ∧
      derived.forwarding = row.forwarding ∧
      after = Settlement.arbitrated manager.arbiter derived ∧
      (manager.reconcile batch ∅).2.under name = .between before after := by
  obtain ⟨records, keyed⟩ := absorption_records tracks wellFormed
  rw [reconcile_eq manager wellFormed] at found ⊢
  rw [interface?_settle] at found
  obtain ⟨before, was, rfl⟩ := Option.map_eq_some_iff.mp found
  obtain ⟨row, present, same⟩ := records.row_of_interface was
  refine ⟨row, before, _, present, same, ?_, rfl, ?_⟩
  · exact (refreshed_frame _ name before).2.trans
      (congrArg (fun part : Interface => part.forwarding) same)
  · rw [under_settle _ _ fun other interface shown =>
      (records.readUnder keyed other interface shown).1, was]

theorem reconcile_unregistered {name : String}
    (absent : (manager.reconcile batch ∅).1.registry.interface? name = none) :
    (manager.reconcile batch ∅).2.under name = {} := by
  obtain ⟨records, keyed⟩ := absorption_records tracks wellFormed
  rw [reconcile_eq manager wellFormed] at absent ⊢
  rw [interface?_settle] at absent
  rw [under_settle _ _ fun other interface shown =>
    (records.readUnder keyed other interface shown).1, Option.map_eq_none_iff.mp absent]

omit tracks in
theorem reconcile_limit {subsystems : Dict SubsystemRow}
    (limit : manager.maxMtu =
      Absorption.limitUnder manager.config.system.subsystem subsystems)
    (puts : ∀ change ∈ batch.subsystems, ∃ row, change = .ofRow row) :
    (manager.reconcile batch ∅).1.maxMtu =
      Absorption.limitUnder manager.config.system.subsystem
        (Change.applyAll subsystems batch.subsystems) := by
  rw [reconcile_eq manager wellFormed]
  exact (Absorption.result_maxMtu wellFormed.interfaces).trans
    (Absorption.followSubsystems_limit manager.config.system.subsystem limit
      batch.subsystems puts)

end Reconciled

end Manager

end LinkReconciler
