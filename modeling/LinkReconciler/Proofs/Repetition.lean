import LinkReconciler.Proofs.Convergence

/-!
A batch that comes again. Once a batch is reconciled, its rows are stored with the columns
that the registry holds. Delivered again like that, the batch has nothing more to do: it
writes nothing, and it leaves the limit, the ports and the interfaces as they are, although
rows that were new are known now and what was deleted first is deleted and set up again.
-/

namespace LinkReconciler

/-! ## Editing the rows of changes -/

namespace Change

variable {ρ : Type}

def mapRow (edit : ρ → ρ) (change : Change ρ) : Change ρ :=
  { change with row := change.row.map edit }

theorem ofKey_mapRow (edit : ρ → ρ) (key : String) (changes : List (Change ρ)) :
    ofKey key (changes.map (mapRow edit)) = (ofKey key changes).map (mapRow edit) :=
  List.filter_map

theorem touches_mapRow (edit : ρ → ρ) (key : String) (changes : List (Change ρ)) :
    Touches (changes.map (mapRow edit)) key ↔ Touches changes key := by
  rw [touches_iff_ofKey, touches_iff_ofKey, ofKey_mapRow, Ne, List.map_eq_nil_iff]

variable [Named ρ]

theorem WellFormed.mapRow {edit : ρ → ρ} (named : ∀ row, Named.name (edit row) = Named.name row)
    {changes : List (Change ρ)} (wellFormed : WellFormed changes) :
    WellFormed (changes.map (mapRow edit)) := by
  intro key
  rw [ofKey_mapRow]
  have folded := wellFormed key
  generalize ofKey key changes = history at folded
  cases folded with
  | untouched => exact .untouched
  | deleted => exact .deleted
  | put row own => exact .put (edit row) ((named row).trans own)
  | replaced row own => exact .replaced (edit row) ((named row).trans own)

theorem get?_applyAll_mapRow (edit : ρ → ρ) {changes : List (Change ρ)}
    (wellFormed : WellFormed changes) {key : String} (touched : Touches changes key)
    (image other : Dict ρ) :
    (applyAll image (changes.map (mapRow edit))).get? key =
      ((applyAll other changes).get? key).map edit := by
  rw [get?_applyAll, get?_applyAll, ofKey_mapRow]
  rw [touches_iff_ofKey] at touched
  have folded := wellFormed key
  generalize ofKey key changes = history at touched folded
  cases folded with
  | untouched => exact absurd rfl touched
  | deleted => rfl
  | put row own => rfl
  | replaced row own => rfl

theorem applyAll_applyAll {changes : List (Change ρ)} (wellFormed : WellFormed changes)
    (image : Dict ρ) : applyAll (applyAll image changes) changes = applyAll image changes := by
  ext key : 1
  by_cases touched : Touches changes key
  · exact get?_applyAll_of_touched wellFormed touched _ _
  · exact get?_applyAll_of_untouched touched _

end Change

/-! ## Delivering a batch again -/

/-- The row with the written columns that a registry holds for its interface. -/
def InterfaceRow.asHeld (registry : Registry) (row : InterfaceRow) : InterfaceRow :=
  match registry.interface? row.name with
  | some interface =>
      { row with
        error := interface.error
        hwConfig := interface.hwConfig
        forwarding := interface.forwarding }
  | none => row

def Batch.redelivered (batch : Batch) (registry : Registry) : Batch :=
  { batch with
    interfaces := batch.interfaces.map (Change.mapRow (InterfaceRow.asHeld registry)) }

theorem InterfaceRow.name_asHeld (registry : Registry) (row : InterfaceRow) :
    (row.asHeld registry).name = row.name := by
  unfold asHeld
  split <;> rfl

theorem Batch.WellFormed.redelivered {batch : Batch} (wellFormed : batch.WellFormed)
    (registry : Registry) : (batch.redelivered registry).WellFormed where
  subsystems := wellFormed.subsystems
  interfaces := wellFormed.interfaces.mapRow (InterfaceRow.name_asHeld registry)
  ports := wellFormed.ports

theorem Registry.Records.asHeld_eq {registry : Registry} {image : Dict InterfaceRow}
    {limit : UInt32} (records : registry.Records image limit) (keyed : Keyed image)
    {row : InterfaceRow} {update : RowUpdate} {name : String}
    (present : image.get? name = some (update.apply row)) :
    row.asHeld registry = update.apply row := by
  have named : row.name = name := keyed name (update.apply row) present
  subst named
  obtain ⟨interface, found, recorded⟩ := records.interface_of_row present
  have view {α : Type} (field : Interface → α) := congrArg field recorded
  have error : interface.error = (update.apply row).error := view (·.error)
  have hwConfig : interface.hwConfig = (update.apply row).hwConfig := view (·.hwConfig)
  have forwarding : interface.forwarding = (update.apply row).forwarding := view (·.forwarding)
  unfold InterfaceRow.asHeld
  rw [found]
  simp only [error, hwConfig, forwarding]
  rfl

namespace Manager

theorem redelivered_maxMtu (manager : Manager) {batch : Batch}
    (wellFormed : batch.WellFormed) :
    let after := (manager.reconcile batch ∅).1
    (after.reconcile (batch.redelivered after.registry) ∅).1.maxMtu = after.maxMtu := by
  intro after
  let set? := ((Change.applyAll ∅ batch.subsystems).get?
    manager.config.system.subsystem).map Work.maxMtuOf
  have first : after.maxMtu = set?.getD manager.maxMtu := reconcile_maxMtu manager wellFormed
  have second : (after.reconcile (batch.redelivered after.registry) ∅).1.maxMtu =
      set?.getD after.maxMtu := reconcile_maxMtu after (wellFormed.redelivered after.registry)
  rw [second, first]
  cases set? <;> rfl

section Repeated
variable {manager : Manager} {image : Dict InterfaceRow} {ports : Dict PortRow}
  (tracks : manager.Tracks image ports) {batch : Batch} (wellFormed : batch.WellFormed)
include tracks wellFormed

theorem applyAll_redelivered :
    let outcome := manager.reconcile batch ∅
    let stored := Store.applyUpdates (Change.applyAll image batch.interfaces) outcome.2
    Change.applyAll stored (batch.redelivered outcome.1.registry).interfaces = stored := by
  intro outcome stored
  have settled := reconcile_tracks tracks wellFormed
  ext name : 1
  by_cases touched : Change.Touches batch.interfaces name
  · have brought := Change.get?_applyAll_mapRow (InterfaceRow.asHeld outcome.1.registry)
      wellFormed.interfaces touched stored image
    have written : stored.get? name =
        ((Change.applyAll image batch.interfaces).get? name).map (outcome.2.under name).apply :=
      Store.get?_applyUpdates _ _ name
    rw [show (Change.applyAll stored (batch.redelivered outcome.1.registry).interfaces).get?
      name = _ from brought]
    cases put : (Change.applyAll image batch.interfaces).get? name with
    | none => rw [written, put]; rfl
    | some row =>
        rw [put] at written
        rw [written]
        exact congrArg some (settled.records.asHeld_eq settled.keyed written)
  · exact Change.get?_applyAll_of_untouched
      (fun again => touched ((Change.touches_mapRow _ name _).mp again)) stored

section Ended
variable (ended : (manager.reconcile batch ∅).1.registry.InOrder)
include ended

theorem redelivered_registry :
    let after := (manager.reconcile batch ∅).1
    (after.reconcile (batch.redelivered after.registry) ∅).1.registry = after.registry := by
  intro after
  have settled := reconcile_tracks tracks wellFormed
  have again := wellFormed.redelivered after.registry
  have stored := applyAll_redelivered tracks wellFormed
  have declared : (after.reconcile (batch.redelivered after.registry) ∅).1.registry.declared? =
      after.registry.declared? := by
    funext name
    rw [reconcile_declared? settled again, stored, settled.records.declared?_eq,
      redelivered_maxMtu manager wellFormed]
  have samePorts : (after.reconcile (batch.redelivered after.registry) ∅).1.registry.ports =
      after.registry.ports := by
    have twice := (reconcile_tracks settled again).portsOf
    rw [show (batch.redelivered after.registry).ports = batch.ports from rfl,
      Change.applyAll_applyAll wellFormed.ports] at twice
    exact twice.trans settled.portsOf.symm
  refine reconcile_registry_eq tracks settled wellFormed again rfl declared samePorts ended
    ended fun name row held left kept state => ?_
  rw [stored] at kept
  exact stamp_written tracks wellFormed left kept state

/-- A column comes again as it is held, so there is nothing to write to it. -/
theorem under_redelivered (name : String) :
    let after := (manager.reconcile batch ∅).1
    (after.reconcile (batch.redelivered after.registry) ∅).2.under name = {} := by
  intro after
  have settled := reconcile_tracks tracks wellFormed
  have again := wellFormed.redelivered after.registry
  cases found : (after.reconcile (batch.redelivered after.registry) ∅).1.registry.interface?
      name with
  | none => exact reconcile_unregistered settled again found
  | some interface =>
      obtain ⟨row, before, _, present, recorded, _, _, written⟩ :=
        reconcile_settled settled again found
      rw [redelivered_registry tracks wellFormed ended] at found
      obtain ⟨held, stored, records⟩ := settled.records.row_of_interface found
      rw [applyAll_redelivered tracks wellFormed, stored] at present
      rw [redelivered_maxMtu manager wellFormed, ← Option.some.inj present, ← records]
        at recorded
      rw [written, RowUpdate.between_congr recorded, RowUpdate.between_self]

end Ended

/-- A batch that left the registry in order changes nothing when it comes again, and
nothing is written. -/
theorem reconcile_redelivered (ended : (manager.reconcile batch ∅).1.registry.InOrder) :
    let after := (manager.reconcile batch ∅).1
    after.reconcile (batch.redelivered after.registry) ∅ = (after, ∅) := by
  intro after
  have registry := redelivered_registry tracks wellFormed ended
  have maxMtu := redelivered_maxMtu manager wellFormed
  have same : (after.reconcile (batch.redelivered after.registry) ∅).1 = after := by
    rw [reconcile_fst after, registry, maxMtu]
  exact Prod.ext same ((Work.settle_terse _ _).ext Transaction.empty_terse
    fun name => under_redelivered tracks wellFormed ended name)

end Repeated

/-- After any batches each of which left a new manager linked, the last of them does
nothing if it comes again with the columns that are held: nothing is written, and the
limit, the ports and the interfaces stay exactly as they are. -/
theorem reconcile_again (config : Config) (batches : List Batch) (batch : Batch)
    (wellFormed : ∀ each ∈ batches ++ [batch], each.WellFormed)
    (linked : ∀ earlier later, batches ++ [batch] = earlier ++ later →
      ((ofConfig config).absorbed earlier).registry.Linked) :
    let settled := (ofConfig config).absorbed (batches ++ [batch])
    settled.reconcile (batch.redelivered settled.registry) ∅ = (settled, ∅) := by
  obtain ⟨formedBefore, formedLast⟩ := List.forall_mem_append.mp wellFormed
  have lastFormed := formedLast batch (List.mem_singleton_self batch)
  obtain ⟨image, ports, tracks⟩ := absorbed_tracks formedBefore (ofConfig_tracks config)
  have ended := inOrder_of_linked config wellFormed linked
  rw [absorbed_append] at ended ⊢
  exact reconcile_redelivered tracks lastFormed ended

def sharedLanes : Batch where
  interfaces := [.ofRow { name := "49", splitChildren := ["49-1"] },
    .ofRow { name := "49-1", splitParent := some "49" }]
  ports := [.ofRow { name := "p", interfaces := ["49", "49-1"] }]

/-- The parent is replaced while its child is registered, the port goes, an interface is
new, and the size limit moves. -/
def replacedLanes : Batch where
  subsystems := [.ofRow
    { name := "base", otherInfo := .ofList [("max_transmission_unit", "9216")] }]
  interfaces := [.del "49",
    .ofRow
      { name := "49"
        userConfig := .ofList [("admin", "up"), ("lane_split", "split")]
        moduleInfo := .ofList [("connector", "QSFP28_SR4"), ("connector_status", "supported")]
        splitChildren := ["49-1"] },
    .ofRow
      { name := "49-1"
        userConfig := .ofList [("admin", "up")]
        bondStatus := .ofList [("state", "down")]
        splitParent := some "49" },
    .ofRow { name := "lo", kind := "loopback" }]
  ports := [.del "p", .ofRow { name := "lo", interfaces := ["lo"] }]

theorem replacedLanes_again :
    let batches := [sharedLanes, replacedLanes]
    let settled := (ofConfig {}).absorbed batches
    (∀ batch ∈ batches, batch.WellFormed) ∧
      (((ofConfig {}).absorbed [sharedLanes]).reconcile replacedLanes ∅).2.size = 3 ∧
      settled.reconcile (replacedLanes.redelivered settled.registry) ∅ = (settled, ∅) := by
  have wellFormed : ∀ batch ∈ [sharedLanes] ++ [replacedLanes], batch.WellFormed := by
    decide +kernel
  exact ⟨wellFormed, by decide +kernel, reconcile_again {} [sharedLanes] replacedLanes
    wellFormed (forall_earlier_of_take (by decide +kernel))⟩

end Manager

end LinkReconciler
