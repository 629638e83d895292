import LinkReconciler.Proofs.Determination
import LinkReconciler.Proofs.SettledRun
import LinkReconciler.Proofs.SnapshotLoad
import LinkReconciler.Proofs.StoreMirror
import LinkReconciler.Proofs.WrittenColumns

/-!
A restart changes nothing. What a long run without refusals left in the registry is
what a new manager makes of the stored rows at once, so the new manager has nothing
to write.
-/

namespace LinkReconciler

namespace Session

/-! ## The restarted session -/

theorem restarted_settled (config : Config) (snapshot : Snapshot) :
    (restarted config snapshot).Settled ∧ ∃ image ports subsystems,
      (restarted config snapshot).Consistent (fun _ => False) image ports subsystems := by
  have acts : ∀ step ∈ loading snapshot, step.LetsCommit ∧ step ≠ .pass := by
    intro step member
    simp only [loading, List.mem_cons, List.mem_append, List.mem_map] at member
    rcases member with rfl | (⟨row, _, rfl⟩ | ⟨row, _, rfl⟩) | ⟨row, _, rfl⟩ <;>
      exact ⟨trivial, fun same => by cases same⟩
  rw [← after_loading]
  apply (start_settled config).after (start_consistent config) (loading_keeps snapshot)
  · exact fun step member => (acts step member).1
  · intro earlier later split
    have passes : Step.pass ∈ loading snapshot := by
      rw [split]
      exact List.mem_append_right _ List.mem_cons_self
    exact absurd rfl (acts .pass passes).2

theorem Reconciled.declares {session : Session} (passed : session.Reconciled)
    (name : String) (limit : UInt32) :
    (session.pass.2.store.interfaces.get? name).map
        (fun row => (Interface.ofRow row limit).declared) =
      (session.store.interfaces.get? name).map
        fun row => (Interface.ofRow row limit).declared := by
  rw [passed.interfaces]
  split
  · rfl
  · rw [Store.get?_applyUpdates, Option.map_map, RowUpdate.declared_apply]

/-- An interface whose row carries the columns of an arbitrated one, and which differs
from that one in its layers and forwarding column at most, comes out of a pass as
that one, and nothing is written to its row. -/
theorem Consistent.settles_alike {session : Session} {image : Dict InterfaceRow}
    {ports : Dict PortRow} {subsystems : Dict SubsystemRow}
    (consistent : session.Consistent (fun _ => False) image ports subsystems)
    (passed : session.Reconciled) {name : String} {row : InterfaceRow}
    (stored : session.store.interfaces.get? name = some row)
    {first second : Interface}
    (found : session.pass.2.manager.registry.interface? name = some second)
    (alike : second = { first with
      layers := second.layers, forwarding := second.forwarding })
    (error : row.error = first.error) (hwConfig : row.hwConfig = first.hwConfig)
    (forwarding : row.forwarding = first.forwarding)
    (arbitrated : Settlement.arbitrated session.manager.arbiter first = first) :
    second = first ∧ (session.reconciliation.2.under name).isEmpty = true := by
  rw [passed.manager] at found
  obtain ⟨delivered, before, derived, present, recorded, column, outcome, written⟩ :=
    Manager.reconcile_settled consistent.readied_tracks consistent.outstanding_wellFormed found
  have same : delivered = row := by
    have reaches := consistent.interfaces.exact name (Or.inr id)
    exact Option.some.inj (present.symm.trans (reaches.trans stored))
  subst same
  -- The layers the new manager restored are forgotten, and the column it starts from is
  -- the one that the old manager had written.
  have kept : second = first := by
    rw [outcome] at alike
    calc second
        = Settlement.arbitrated session.manager.arbiter derived := outcome
      _ = Settlement.arbitrated session.manager.arbiter first :=
          Settlement.arbitrated_eq_of_alike alike (column.trans forwarding)
      _ = first := arbitrated
  have view {α : Type} (field : Interface → α) := congrArg field recorded
  refine ⟨kept, ?_⟩
  rw [show session.reconciliation.2.under name = .between before second from written, kept,
    RowUpdate.between_isEmpty_iff]
  exact ⟨error.symm.trans (view (·.error)).symm,
    hwConfig.symm.trans (view (·.hwConfig)).symm,
    forwarding.symm.trans (view (·.forwarding)).symm⟩

section Restarted
variable {session : Session} {image : Dict InterfaceRow} {ports : Dict PortRow}
  {subsystems : Dict SubsystemRow}
  (consistent : session.Consistent (fun _ => False) image ports subsystems)
  (deferred : session.manager.deferred = {}) (pending : session.store.pending = {})
  (configured : 0 < session.store.system.generation)
include consistent deferred pending configured

theorem restarted_pass_declared? :
    let fresh := (restarted session.manager.config session.store.snapshot).pass.2
    fresh.manager.maxMtu = session.manager.maxMtu ∧
      fresh.manager.registry.ports = session.manager.registry.ports ∧
      fresh.manager.registry.declared? = session.manager.registry.declared? := by
  obtain ⟨settled, _, _, _, begins⟩ :=
    restarted_settled session.manager.config session.store.snapshot
  have passed : (restarted session.manager.config session.store.snapshot).Reconciled :=
    restarted_reconciled _ configured
  have reaches := settled.consistent_reconciled begins passed
  obtain ⟨_, sameSubsystems, samePorts⟩ := passed.others
  obtain ⟨_, loadedSubsystems, loadedInterfaces, loadedPorts⟩ :=
    Store.ofSnapshot_snapshot consistent.subsystemsKeyed consistent.interfacesKeyed
      consistent.portsKeyed
  have maxMtu : (restarted session.manager.config session.store.snapshot).pass.2.manager.maxMtu =
      session.manager.maxMtu := by
    rw [reaches.maxMtu_eq passed.deferred passed.pending,
      consistent.maxMtu_eq deferred pending, sameSubsystems, passed.config]
    exact congrArg (fun table : Dict SubsystemRow => ((table.get?
      session.manager.config.system.subsystem).map Work.maxMtuOf).getD 0) loadedSubsystems
  refine ⟨maxMtu, ?_, ?_⟩
  · rw [reaches.ports_eq passed.deferred passed.pending,
      consistent.ports_eq deferred pending, samePorts]
    exact congrArg (fun table : Dict PortRow => table.mapValues Port.ofRow) loadedPorts
  · funext name
    rw [reaches.declared? passed.deferred passed.pending, passed.declares, maxMtu,
      consistent.declared? deferred pending]
    exact congrArg (fun table : Dict InterfaceRow => (table.get? name).map fun row =>
      (Interface.ofRow row session.manager.maxMtu).declared) loadedInterfaces

theorem restarted_pass_interface? (settled : session.Settled) (name : String) :
    let fresh := restarted session.manager.config session.store.snapshot
    fresh.pass.2.manager.registry.interface? name =
        session.manager.registry.interface? name ∧
      (fresh.reconciliation.2.under name).isEmpty = true := by
  intro fresh
  obtain ⟨begun, _, _, _, begins⟩ :=
    restarted_settled session.manager.config session.store.snapshot
  have passed : fresh.Reconciled := restarted_reconciled _ configured
  have reaches := begun.consistent_reconciled begins passed
  obtain ⟨_, ports, declared⟩ := restarted_pass_declared? consistent deferred pending configured
  -- Listing goes by declarations, and those are the same on both sides.
  have listed (other : String) : fresh.pass.2.manager.registry.Listed other :=
    Registry.listed_of_declared? declared (settled.listed other)
  have rested := begun.reconciled begins passed listed
  cases found : fresh.pass.2.manager.registry.interface? name with
  | none =>
      have absent := congrFun declared name
      unfold Registry.declared? at absent
      rw [show (restarted session.manager.config
        session.store.snapshot).pass.2.manager.registry.interface? name = none from found] at absent
      rw [passed.manager] at found
      have nothing := Manager.reconcile_unregistered begins.readied_tracks
        begins.outstanding_wellFormed found
      exact ⟨(Option.map_eq_none_iff.mp absent.symm).symm, congrArg RowUpdate.isEmpty nothing⟩
  | some second =>
      obtain ⟨first, was⟩ : ∃ first, session.manager.registry.interface? name = some first := by
        rw [← Registry.hasInterface_iff, ← Registry.hasInterface_congr declared,
          Registry.hasInterface_iff]
        exact ⟨second, found⟩
      have shape := Registry.interface_eq_of_current declared.symm ports.symm was found
        (settled.current name) (rested.current name) consistent.tracks.claimed
        reaches.tracks.claimed
      obtain ⟨stored, present, error, hwConfig, forwarding⟩ :=
        consistent.carriesColumns deferred pending id was
      have loaded := (Store.ofSnapshot_snapshot consistent.subsystemsKeyed
        consistent.interfacesKeyed consistent.portsKeyed).2.2.1
      obtain ⟨same, unwritten⟩ := begins.settles_alike passed (loaded ▸ present) found shape
        error hwConfig forwarding (settled.arbitrated name first was)
      exact ⟨same ▸ was.symm, unwritten⟩

end Restarted

/-- After a run without refusals, in which every pass that reconciled left each
interface listed by the parent it names, and which ended in such a pass with the
system configured, a new manager on the stored rows writes nothing and ends up with
the same limit and the same registry. -/
theorem restart_changes_nothing (config : Config) (steps : List Step)
    (keeps : ∀ step ∈ steps, step.KeepsNames)
    (commits : ∀ step ∈ steps, step.LetsCommit)
    (linked : ∀ earlier later, steps ++ [.pass] = earlier ++ .pass :: later →
      ((start config).after earlier).pass.1.reconciled = true →
      ((start config).after earlier).pass.2.manager.registry.Linked)
    (reconciles : ((start config).after steps).pass.1.reconciled = true)
    (configured : 0 < ((start config).after steps).pass.2.store.system.generation) :
    let settled := ((start config).after steps).pass.2
    let fresh := restarted config settled.store.snapshot
    fresh.pass.1 = .idle ∧
      fresh.pass.2.store = { fresh.store with pending := {} } ∧
      fresh.pass.2.manager.maxMtu = settled.manager.maxMtu ∧
      fresh.pass.2.manager.registry = settled.manager.registry := by
  intro settled fresh
  have passed := (reconciled_iff _).mp reconciles
  have runs : (start config).after (steps ++ [.pass]) = settled := after_append _ _ _
  have allKeep : ∀ step ∈ steps ++ [.pass], step.KeepsNames := by
    rw [List.forall_mem_append, List.forall_mem_singleton]
    exact ⟨keeps, trivial⟩
  have allCommit : ∀ step ∈ steps ++ [.pass], step.LetsCommit := by
    rw [List.forall_mem_append, List.forall_mem_singleton]
    exact ⟨commits, trivial⟩
  obtain ⟨stays, image, ports, subsystems, consistent⟩ :=
    (start_settled config).after (start_consistent config) allKeep allCommit linked
  rw [runs] at stays consistent
  have sameConfig : settled.manager.config = config :=
    runs ▸ config_after (start config) (steps ++ [.pass])
  have same : restarted settled.manager.config settled.store.snapshot = fresh := by
    rw [sameConfig]
  obtain ⟨maxMtu, samePorts, _⟩ := restarted_pass_declared? consistent passed.deferred
    passed.pending configured
  have each := restarted_pass_interface? consistent passed.deferred passed.pending
    configured stays
  rw [same] at maxMtu samePorts
  simp only [same] at each
  have reconciled : fresh.Reconciled := restarted_reconciled config configured
  have idle : fresh.pass.1 = .idle :=
    reconciled.idle.mpr ((Transaction.isEmpty_iff _).mpr fun name => (each name).2)
  refine ⟨idle, reconciled.untouched idle, maxMtu, ?_⟩
  have interfaces : fresh.pass.2.manager.registry.interfaces =
      settled.manager.registry.interfaces := Dict.ext_get? fun name => (each name).1
  calc fresh.pass.2.manager.registry
      = ⟨fresh.pass.2.manager.registry.interfaces, fresh.pass.2.manager.registry.ports⟩ := rfl
    _ = settled.manager.registry := by rw [interfaces, samePorts]

/-- A port is split and configured between two passes. -/
def splitPort : List Step :=
  [.act (.setGeneration 1),
    .act (.putInterface { name := "1-1", splitParent := some "1" }),
    .pass,
    .act (.putInterface { name := "1", splitChildren := ["1-1"] }),
    .act (.putPort { name := "1-1", admin := some "up" })]

theorem restart_splitPort :
    let settled := ((start {}).after splitPort).pass.2
    let fresh := restarted {} settled.store.snapshot
    fresh.pass.1 = .idle ∧
      fresh.pass.2.manager.registry = settled.manager.registry ∧
      settled.manager.registry.ports.keys = ["1-1"] ∧
      settled.manager.registry.interfaces.keys = ["1", "1-1"] ∧
      (settled.manager.registry.interface? "1").map (·.oper.reason) = some .adminDown ∧
      (settled.manager.registry.interface? "1-1").map (·.oper.reason) = some .lanesNotSplit ∧
      (settled.store.interfaces.get? "1-1").map (·.error) = some (some "lanes_not_split") := by
  have kept : ∀ step ∈ splitPort, step.KeepsNames ∧ step.LetsCommit := by
    simp [splitPort, Step.KeepsNames, Step.LetsCommit]
  have linked : ∀ earlier later, splitPort ++ [.pass] = earlier ++ .pass :: later →
      ((start {}).after earlier).pass.1.reconciled = true →
      ((start {}).after earlier).pass.2.manager.registry.Linked := by
    intro earlier later split _
    -- Only two of the six steps are passes.
    rcases earlier with _ | ⟨_, _ | ⟨_, _ | ⟨_, _ | ⟨_, _ | ⟨_, _ | ⟨_, rest⟩⟩⟩⟩⟩⟩ <;>
      simp only [splitPort, List.cons_append, List.nil_append, List.cons.injEq, reduceCtorEq,
        false_and, and_false, true_and, List.nil_eq, List.append_eq_nil_iff] at split
    · obtain ⟨rfl, rfl, _⟩ := split
      decide +kernel
    · obtain ⟨rfl, rfl, rfl, rfl, rfl, _⟩ := split
      decide +kernel
  have unchanged := restart_changes_nothing {} splitPort
    (fun step member => (kept step member).1) (fun step member => (kept step member).2)
    linked (by decide +kernel) (by decide +kernel)
  exact ⟨unchanged.1, unchanged.2.2.2, by decide +kernel, by decide +kernel,
    by decide +kernel, by decide +kernel, by decide +kernel⟩

end Session

end LinkReconciler
