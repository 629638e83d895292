import LinkReconciler.Proofs.Rounds

/-!
The registry mirrors the store. Whatever was set aside, taken late or refused on
the way, right after a pass that reconciled every row is registered and nothing
else is, as its clients' columns say.
-/

namespace LinkReconciler

namespace Session

variable {session : Session} {spoiled : String → Prop} {image : Dict InterfaceRow}
  {ports : Dict PortRow} {subsystems : Dict SubsystemRow}

/-- With nothing on its way the registry says what the clients' columns say. -/
theorem Consistent.declared?
    (consistent : session.Consistent spoiled image ports subsystems)
    (deferred : session.manager.deferred = {}) (pending : session.store.pending = {})
    (name : String) :
    session.manager.registry.declared? name =
      (session.store.interfaces.get? name).map fun row =>
        (Interface.ofRow row session.manager.maxMtu).declared := by
  have clients := consistent.interfaces.clients name
  rw [deferred, pending] at clients
  have same : (image.get? name).map InterfaceRow.clients =
      (session.store.interfaces.get? name).map InterfaceRow.clients := clients
  have declares : (fun row => (Interface.ofRow row session.manager.maxMtu).declared) =
      (fun row => (Interface.ofRow row session.manager.maxMtu).declared) ∘
        InterfaceRow.clients := rfl
  -- A declaration reads the clients' columns only, and on those image and table agree.
  rw [consistent.tracks.records.declared?_eq, declares, ← Option.map_map, same,
    Option.map_map]

theorem Consistent.ports_eq
    (consistent : session.Consistent spoiled image ports subsystems)
    (deferred : session.manager.deferred = {}) (pending : session.store.pending = {}) :
    session.manager.registry.ports = session.store.ports.mapValues Port.ofRow := by
  have reaches := consistent.ports.reaches
  rw [deferred, pending] at reaches
  have same : ports = session.store.ports := reaches
  rw [← same]
  exact consistent.tracks.portsOf

theorem Consistent.maxMtu_eq
    (consistent : session.Consistent spoiled image ports subsystems)
    (deferred : session.manager.deferred = {}) (pending : session.store.pending = {}) :
    session.manager.maxMtu = ((session.store.subsystems.get?
      session.manager.config.system.subsystem).map Work.maxMtuOf).getD 0 := by
  have reaches := consistent.subsystems.reaches
  rw [deferred, pending] at reaches
  have same : subsystems = session.store.subsystems := reaches
  rw [← same]
  exact consistent.limit

/-- After any run from an empty store, a pass that reconciled leaves registered
exactly the names that have a row, each interface as the clients' columns of its
row say, exactly the ports that have a row, and the limit of the configured
subsystem. -/
theorem registry_mirrors_store (config : Config) (steps : List Step)
    (keeps : ∀ step ∈ steps, step.KeepsNames)
    (reconciles : ((start config).after steps).pass.1.reconciled = true) :
    let settled := ((start config).after steps).pass.2
    (∀ name, settled.manager.registry.hasInterface name =
      settled.store.interfaces.contains name) ∧
    (∀ name interface row,
      settled.manager.registry.interface? name = some interface →
      settled.store.interfaces.get? name = some row →
      interface.declared = (Interface.ofRow row settled.manager.maxMtu).declared) ∧
    settled.manager.registry.ports = settled.store.ports.mapValues Port.ofRow ∧
    settled.manager.maxMtu =
      ((settled.store.subsystems.get? config.system.subsystem).map Work.maxMtuOf).getD 0 := by
  intro settled
  have passed := (reconciled_iff _).mp reconciles
  obtain ⟨image, ports, subsystems, before⟩ := consistent_of_run config keeps
  have consistent := before.reconciled passed
  have mirrors := consistent.declared? passed.deferred passed.pending
  refine ⟨?_, ?_, consistent.ports_eq passed.deferred passed.pending, ?_⟩
  · intro name
    rw [Registry.hasInterface_eq_declared?, mirrors]
    unfold Dict.contains
    exact Option.isSome_map
  · intro name interface row found present
    have here := mirrors name
    unfold Registry.declared? at here
    rw [show ((start config).after steps).pass.2.manager.registry.interface? name =
        some interface from found,
      show ((start config).after steps).pass.2.store.interfaces.get? name =
        some row from present] at here
    exact Option.some.inj here
  · have limit := consistent.maxMtu_eq passed.deferred passed.pending
    have kept := config_after (start config) (steps ++ [.pass])
    rw [after_append] at kept
    rw [show ((start config).after steps).pass.2.manager.config = config from kept] at limit
    exact limit

/-- One interface goes and another comes while the lock is lost. -/
def takenLate : List Step :=
  [.act (.setGeneration 1), .act (.putInterface { name := "1" }), .pass,
    .act (.setLock .contended), .act (.deleteInterface "1"), .pass,
    .act (.putInterface { name := "2" }), .act (.setLock .held)]

theorem mirrors_takenLate :
    let settled := ((start {}).after takenLate).pass.2
    settled.manager.registry.hasInterface "1" = false ∧
      settled.manager.registry.hasInterface "2" = true := by
  have mirrors := registry_mirrors_store {} takenLate
    (by simp [takenLate, Step.KeepsNames]) (by decide +kernel)
  constructor
  · exact (mirrors.1 "1").trans (by decide +kernel)
  · exact (mirrors.1 "2").trans (by decide +kernel)

end Session

end LinkReconciler
