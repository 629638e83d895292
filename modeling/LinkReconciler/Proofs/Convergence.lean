import LinkReconciler.Proofs.DerivedState
import LinkReconciler.Proofs.Determination

/-!
Reconciliations that meet. What a reconciliation leaves of a current interface follows
from what its row declares, from the interfaces and ports around it, and from the
forwarding column of its row, up to what an arbitration overwrites anyway. Two
reconciliations that agree on these leave the same registry, whichever way they took.
-/

namespace LinkReconciler

/-! ## The size limit -/

namespace Work

theorem foldl_followSubsystem_ofKey (subsystem : String)
    (changes : List (Change SubsystemRow)) (work : Work) :
    changes.foldl (followSubsystem subsystem) work =
      (Change.ofKey subsystem changes).foldl (followSubsystem subsystem) work := by
  induction changes generalizing work with
  | nil => rfl
  | cons change rest ih =>
      rw [List.foldl_cons, ih, Change.ofKey_cons]
      by_cases own : change.key = subsystem
      · rw [if_pos own, List.foldl_cons]
      · rw [if_neg own]
        unfold followSubsystem
        rw [if_neg own]

theorem followSubsystem_del (subsystem key : String) (work : Work) :
    work.followSubsystem subsystem (.del key) = work := by
  unfold followSubsystem
  split <;> rfl

theorem followSubsystems_maxMtu (subsystem : String) {changes : List (Change SubsystemRow)}
    (wellFormed : Change.WellFormed changes) (work : Work) :
    (changes.foldl (followSubsystem subsystem) work).maxMtu =
      (((Change.applyAll ∅ changes).get? subsystem).map maxMtuOf).getD work.maxMtu := by
  rw [foldl_followSubsystem_ofKey, Change.get?_applyAll]
  have puts (row : SubsystemRow) (named : row.name = subsystem) (before : Work) :
      (before.followSubsystem subsystem (.set subsystem row)).maxMtu = maxMtuOf row := by
    have limited := Absorption.maxMtu_followSubsystem_put subsystem before row
    rw [if_pos named] at limited
    rw [← limited, show Change.ofRow row = .set row.name row from rfl, named]
  have folded := wellFormed subsystem
  generalize Change.ofKey subsystem changes = history at folded
  cases folded with
  | untouched => rfl
  | deleted => exact congrArg Work.maxMtu (followSubsystem_del subsystem subsystem work)
  | put row named => exact puts row named work
  | replaced row named => exact puts row named _

end Work

theorem RowUpdate.between_congr {first second : Interface}
    (same : first.recorded = second.recorded) (after : Interface) :
    between first after = between second after := by
  have view {α : Type} (field : Interface → α) := congrArg field same
  have error : first.error = second.error := view (·.error)
  have hwConfig : first.hwConfig = second.hwConfig := view (·.hwConfig)
  have forwarding : first.forwarding = second.forwarding := view (·.forwarding)
  unfold between
  rw [error, hwConfig, forwarding]

/-! ## Registries in order -/

namespace Registry

/-- Every interface is current and listed by the parent that it names. -/
def InOrder (registry : Registry) : Prop :=
  ∀ name, registry.Current name ∧ registry.Listed name

end Registry

namespace Manager

theorem current_of_linked (config : Config) {batches : List Batch}
    (wellFormed : ∀ batch ∈ batches, batch.WellFormed)
    (linked : ∀ earlier later, batches = earlier ++ later →
      ((ofConfig config).absorbed earlier).registry.Linked) (name : String) :
    ((ofConfig config).absorbed batches).registry.Current name := by
  refine absorbed_current wellFormed (ofConfig_tracks config)
    (fun _ _ absent => nomatch absent) fun earlier later split _ => ?_
  exact (linked earlier later split).listed name

theorem inOrder_of_linked (config : Config) {batches : List Batch}
    (wellFormed : ∀ batch ∈ batches, batch.WellFormed)
    (linked : ∀ earlier later, batches = earlier ++ later →
      ((ofConfig config).absorbed earlier).registry.Linked) :
    ((ofConfig config).absorbed batches).registry.InOrder :=
  fun name => ⟨current_of_linked config wellFormed linked name,
    (linked batches [] (List.append_nil _).symm).listed name⟩

/-! ## What one reconciliation leaves -/

theorem reconcile_fst (manager : Manager) (batch : Batch) (transaction : Transaction) :
    (manager.reconcile batch transaction).1 =
      { manager with
        registry := (manager.reconcile batch transaction).1.registry
        maxMtu := (manager.reconcile batch transaction).1.maxMtu } := rfl

theorem reconcile_congr (manager : Manager) {first second : Batch}
    (subsystems : Change.ofKey manager.config.system.subsystem first.subsystems =
      Change.ofKey manager.config.system.subsystem second.subsystems)
    (interfaces : first.interfaces = second.interfaces) (ports : first.ports = second.ports)
    (transaction : Transaction) :
    manager.reconcile first transaction = manager.reconcile second transaction := by
  have absorbed (work : Work) :
      work.absorb manager.config.system.subsystem manager.arbiter first =
        work.absorb manager.config.system.subsystem manager.arbiter second := by
    unfold Work.absorb
    rw [Work.foldl_followSubsystem_ofKey, subsystems, ← Work.foldl_followSubsystem_ofKey,
      interfaces, ports]
  unfold reconcile
  rw [absorbed]

theorem reconcile_maxMtu (manager : Manager) {batch : Batch} (wellFormed : batch.WellFormed) :
    (manager.reconcile batch ∅).1.maxMtu =
      (((Change.applyAll ∅ batch.subsystems).get?
        manager.config.system.subsystem).map Work.maxMtuOf).getD manager.maxMtu := by
  rw [reconcile_eq manager wellFormed]
  exact (Absorption.result_maxMtu wellFormed.interfaces).trans
    (Work.followSubsystems_maxMtu manager.config.system.subsystem wellFormed.subsystems _)

theorem reconcile_forwarding {manager : Manager} {image : Dict InterfaceRow}
    {ports : Dict PortRow} (tracks : manager.Tracks image ports) {batch : Batch}
    (wellFormed : batch.WellFormed) {name : String} {after : Interface}
    (found : (manager.reconcile batch ∅).1.registry.interface? name = some after) :
    let state := Arbiter.standing manager.config.arbiter.requireHwReady after
    ∃ row, (Change.applyAll image batch.interfaces).get? name = some row ∧
      after.layers = [state] ∧ after.forwarding = Arbiter.stamp state row.forwarding := by
  obtain ⟨row, _, derived, present, _, column, outcome, _⟩ :=
    reconcile_settled tracks wellFormed found
  obtain ⟨layers, forwarding⟩ := Settlement.arbitrated_leaves outcome
  exact ⟨row, present, layers, column ▸ forwarding⟩

theorem stamp_written {manager : Manager} {image : Dict InterfaceRow}
    {ports : Dict PortRow} (tracks : manager.Tracks image ports) {batch : Batch}
    (wellFormed : batch.WellFormed) {name : String} {row written : InterfaceRow}
    (left : (Change.applyAll image batch.interfaces).get? name = some row)
    (stored : (Store.applyUpdates (Change.applyAll image batch.interfaces)
      (manager.reconcile batch ∅).2).get? name = some written) (state : LayerState) :
    Arbiter.stamp state written.forwarding = Arbiter.stamp state row.forwarding := by
  obtain ⟨interface, found, recorded⟩ :=
    (reconcile_tracks tracks wellFormed).records.interface_of_row stored
  obtain ⟨before, present, _, column⟩ := reconcile_forwarding tracks wellFormed found
  have held : written.forwarding = interface.forwarding :=
    (congrArg (fun part : Interface => part.forwarding) recorded).symm
  rw [held, column, Option.some.inj (present.symm.trans left), Arbiter.stamp_stamp]

/-! ## Two reconciliations -/

section Meeting
variable {left right : Manager} {leftImage rightImage : Dict InterfaceRow}
  {leftPorts rightPorts : Dict PortRow}
  (leftTracks : left.Tracks leftImage leftPorts)
  (rightTracks : right.Tracks rightImage rightPorts)
  {first second : Batch} (firstFormed : first.WellFormed) (secondFormed : second.WellFormed)
  (config : right.config = left.config)
  (declared : (right.reconcile second ∅).1.registry.declared? =
    (left.reconcile first ∅).1.registry.declared?)
  (ports : (right.reconcile second ∅).1.registry.ports =
    (left.reconcile first ∅).1.registry.ports)
  (begun : right.registry.InOrder) (ended : (left.reconcile first ∅).1.registry.InOrder)
  (columns : ∀ name leftRow rightRow,
    (Change.applyAll leftImage first.interfaces).get? name = some leftRow →
    (Change.applyAll rightImage second.interfaces).get? name = some rightRow →
    ∀ state, Arbiter.stamp state rightRow.forwarding =
      Arbiter.stamp state leftRow.forwarding)
include leftTracks rightTracks firstFormed secondFormed config declared ports begun ended
  columns

/-- An interface that both register is current in both, so it is the same but for its
layers and its forwarding column, and these follow from it and its row. -/
theorem reconcile_interface_eq {name : String} {one other : Interface}
    (found : (left.reconcile first ∅).1.registry.interface? name = some one)
    (was : (right.reconcile second ∅).1.registry.interface? name = some other) :
    other = one := by
  have current : (right.reconcile second ∅).1.registry.Current name :=
    reconcile_current rightTracks secondFormed
      (Registry.listed_of_declared? declared (ended name).2) (Or.inr (begun name))
  have alike := Registry.interface_eq_of_current declared.symm ports.symm found was
    (ended name).1 current (reconcile_tracks leftTracks firstFormed).claimed
    (reconcile_tracks rightTracks secondFormed).claimed
  obtain ⟨leftRow, leftPresent, leftLayers, leftColumn⟩ :=
    reconcile_forwarding leftTracks firstFormed found
  obtain ⟨rightRow, rightPresent, rightLayers, rightColumn⟩ :=
    reconcile_forwarding rightTracks secondFormed was
  -- The state of the layer does not depend on the layers and columns from before.
  have state (gate : Bool) : Arbiter.standing gate other = Arbiter.standing gate one := by
    rw [alike]
    rfl
  rw [state, config] at rightLayers rightColumn
  have layers : other.layers = one.layers := rightLayers.trans leftLayers.symm
  have column : other.forwarding = one.forwarding := by
    rw [rightColumn, leftColumn]
    exact columns name leftRow rightRow leftPresent rightPresent _
  calc other
      = { one with layers := other.layers, forwarding := other.forwarding } := alike
    _ = one := by rw [layers, column]

/-- Two reconciliations leave the same registry if they leave the same declarations and
ports, one of them in order and the other from a registry in order, and if any state
overwrites the forwarding columns of their rows to the same. -/
theorem reconcile_registry_eq :
    (right.reconcile second ∅).1.registry = (left.reconcile first ∅).1.registry := by
  have interfaces : (right.reconcile second ∅).1.registry.interfaces =
      (left.reconcile first ∅).1.registry.interfaces := by
    ext name : 1
    show (right.reconcile second ∅).1.registry.interface? name =
      (left.reconcile first ∅).1.registry.interface? name
    cases found : (left.reconcile first ∅).1.registry.interface? name with
    | none =>
        have absent := congrFun declared name
        unfold Registry.declared? at absent
        rw [found] at absent
        exact Option.map_eq_none_iff.mp absent
    | some one =>
        obtain ⟨other, was⟩ : ∃ other,
            (right.reconcile second ∅).1.registry.interface? name = some other := by
          rw [← Registry.hasInterface_iff, Registry.hasInterface_congr declared,
            Registry.hasInterface_iff]
          exact ⟨one, found⟩
        rw [was, reconcile_interface_eq leftTracks rightTracks firstFormed secondFormed config
          declared ports begun ended columns found was]
  calc (right.reconcile second ∅).1.registry
      = ⟨(right.reconcile second ∅).1.registry.interfaces,
          (right.reconcile second ∅).1.registry.ports⟩ := rfl
    _ = (left.reconcile first ∅).1.registry := by rw [interfaces, ports]

end Meeting

end Manager

end LinkReconciler
