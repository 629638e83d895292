import LinkReconciler.Proofs.Convergence

/-!
The order of the changes in a batch. As long as a key's deletion stays before its new row,
the changes of a batch may come in any order: a child before or after its parent, a port
before or after the one that loses its members. The same registry comes out, and the same
columns are written.
-/

namespace LinkReconciler

section Reordered
variable {ρ : Type} [Named ρ]

theorem Folded.eq_of_perm {key : String} {changes other : List (Change ρ)}
    (folded : Folded key changes) (otherFolded : Folded key other)
    (perm : changes.Perm other) : changes = other := by
  have sameLength := perm.length_eq
  cases folded with
  | untouched => exact perm.nil_eq
  | deleted => exact (List.perm_singleton.mp perm.symm).symm
  | put row named => exact (List.perm_singleton.mp perm.symm).symm
  | replaced row named =>
      cases otherFolded with
      | untouched => cases sameLength
      | deleted => cases sameLength
      | put _ _ => cases sameLength
      | replaced row' named' =>
          have rows := List.perm_singleton.mp ((List.perm_cons _).mp perm)
          rw [rows]

namespace Change

theorem ofKey_eq_of_perm {changes other : List (Change ρ)} (wellFormed : WellFormed changes)
    (otherFormed : WellFormed other) (perm : changes.Perm other) (key : String) :
    ofKey key changes = ofKey key other :=
  (wellFormed key).eq_of_perm (otherFormed key) (perm.filter _)

theorem applyAll_eq_of_perm {changes other : List (Change ρ)} (wellFormed : WellFormed changes)
    (otherFormed : WellFormed other) (perm : changes.Perm other) (image : Dict ρ) :
    applyAll image changes = applyAll image other := by
  ext key : 1
  rw [get?_applyAll, get?_applyAll, ofKey_eq_of_perm wellFormed otherFormed perm]

end Change

end Reordered

/-- A batch with the same changes of every table in another order, where each key's
deletion still comes before its new row. -/
structure Batch.Reorders (other batch : Batch) : Prop where
  system : other.system = batch.system
  subsystems : other.subsystems.Perm batch.subsystems
  interfaces : other.interfaces.Perm batch.interfaces
  ports : other.ports.Perm batch.ports
  wellFormed : other.WellFormed

namespace Manager

section Reordered
variable {manager : Manager} {image : Dict InterfaceRow} {ports : Dict PortRow}
  (tracks : manager.Tracks image ports) {batch other : Batch}
  (wellFormed : batch.WellFormed) (reorders : other.Reorders batch)
include wellFormed reorders

theorem reordered_maxMtu :
    (manager.reconcile other ∅).1.maxMtu = (manager.reconcile batch ∅).1.maxMtu := by
  rw [reconcile_maxMtu manager reorders.wellFormed, reconcile_maxMtu manager wellFormed,
    Change.applyAll_eq_of_perm reorders.wellFormed.subsystems wellFormed.subsystems
      reorders.subsystems]

theorem reordered_interfaces (image : Dict InterfaceRow) :
    Change.applyAll image other.interfaces = Change.applyAll image batch.interfaces :=
  Change.applyAll_eq_of_perm reorders.wellFormed.interfaces wellFormed.interfaces
    reorders.interfaces image

include tracks
variable (begun : manager.registry.InOrder)
  (ended : (manager.reconcile batch ∅).1.registry.InOrder)
include begun ended

theorem reordered_registry :
    (manager.reconcile other ∅).1.registry = (manager.reconcile batch ∅).1.registry := by
  have rows := reordered_interfaces wellFormed reorders image
  have declared : (manager.reconcile other ∅).1.registry.declared? =
      (manager.reconcile batch ∅).1.registry.declared? := by
    funext name
    rw [reconcile_declared? tracks reorders.wellFormed, reconcile_declared? tracks wellFormed,
      rows, reordered_maxMtu wellFormed reorders]
  have samePorts : (manager.reconcile other ∅).1.registry.ports =
      (manager.reconcile batch ∅).1.registry.ports := by
    have reordered := (reconcile_tracks tracks reorders.wellFormed).portsOf
    rw [Change.applyAll_eq_of_perm reorders.wellFormed.ports wellFormed.ports reorders.ports]
      at reordered
    exact reordered.trans (reconcile_tracks tracks wellFormed).portsOf.symm
  refine reconcile_registry_eq tracks tracks wellFormed reorders.wellFormed rfl declared
    samePorts begun ended fun name row reordered left right state => ?_
  rw [rows, left] at right
  rw [Option.some.inj right]

theorem reordered_under (name : String) :
    (manager.reconcile other ∅).2.under name = (manager.reconcile batch ∅).2.under name := by
  have registry := reordered_registry tracks wellFormed reorders begun ended
  cases found : (manager.reconcile batch ∅).1.registry.interface? name with
  | none =>
      rw [reconcile_unregistered tracks wellFormed found,
        reconcile_unregistered tracks reorders.wellFormed (registry ▸ found)]
  | some interface =>
      obtain ⟨row, before, _, present, recorded, _, _, written⟩ :=
        reconcile_settled tracks wellFormed found
      obtain ⟨row', before', _, present', recorded', _, _, written'⟩ :=
        reconcile_settled tracks reorders.wellFormed (registry ▸ found)
      -- Both start from the columns of the same row and end with the same interface.
      rw [reordered_interfaces wellFormed reorders, present] at present'
      rw [← Option.some.inj present', reordered_maxMtu wellFormed reorders, ← recorded]
        at recorded'
      rw [written, written', RowUpdate.between_congr recorded']

theorem reconcile_reordered : manager.reconcile other ∅ = manager.reconcile batch ∅ := by
  have registry := reordered_registry tracks wellFormed reorders begun ended
  have maxMtu : (manager.reconcile other ∅).1.maxMtu = (manager.reconcile batch ∅).1.maxMtu :=
    reordered_maxMtu wellFormed reorders
  have same : (manager.reconcile other ∅).1 = (manager.reconcile batch ∅).1 := by
    rw [reconcile_fst manager other, registry, maxMtu, ← reconcile_fst manager batch]
  exact Prod.ext same ((Work.settle_terse _ _).ext (Work.settle_terse _ _)
    (reordered_under tracks wellFormed reorders begun ended))

end Reordered

/-- After batches each of which left a new manager linked, as the next one does too, the
changes of that batch may come in any order that keeps each key's deletion before its new
row: the same manager and the same transaction come out. -/
theorem order_in_batch_immaterial (config : Config) (batches : List Batch)
    (batch other : Batch) (wellFormed : ∀ each ∈ batches ++ [batch], each.WellFormed)
    (linked : ∀ earlier later, batches ++ [batch] = earlier ++ later →
      ((ofConfig config).absorbed earlier).registry.Linked)
    (reorders : other.Reorders batch) :
    let before := (ofConfig config).absorbed batches
    before.reconcile other ∅ = before.reconcile batch ∅ := by
  obtain ⟨formedBefore, formedLast⟩ := List.forall_mem_append.mp wellFormed
  have lastFormed := formedLast batch (List.mem_singleton_self batch)
  obtain ⟨image, ports, tracks⟩ := absorbed_tracks formedBefore (ofConfig_tracks config)
  have begun := inOrder_of_linked config formedBefore fun earlier later split =>
    linked earlier (later ++ [batch]) (by rw [split, List.append_assoc])
  have ended := inOrder_of_linked config wellFormed linked
  rw [absorbed_append] at ended
  exact reconcile_reordered tracks lastFormed reorders begun ended

def oneLane : Batch where
  interfaces := [.ofRow { name := "49", splitChildren := ["49-2"] },
    .ofRow { name := "49-2", splitParent := some "49" }]
  ports := [.ofRow { name := "q", interfaces := ["49"] }]

/-- The parent is replaced by one with two children, of which one is new and one changes,
while a port gives up its member and another takes up the new child. -/
def twoLanes : Batch where
  interfaces := [.del "49",
    .ofRow
      { name := "49"
        userConfig := .ofList [("admin", "up"), ("lane_split", "split")]
        moduleInfo := .ofList [("connector", "QSFP28_SR4"), ("connector_status", "supported")]
        splitChildren := ["49-1", "49-2"] },
    .ofRow { name := "49-1", splitParent := some "49" },
    .ofRow
      { name := "49-2"
        userConfig := .ofList [("admin", "up")]
        splitParent := some "49" }]
  ports := [.ofRow { name := "p", interfaces := ["49-1"] }, .del "q", .ofRow { name := "q" }]

theorem twoLanes_reordered :
    let childrenFirst : Batch :=
      { interfaces := twoLanes.interfaces.rotateLeft 2
        ports := twoLanes.ports.rotateLeft 1 }
    let before := (ofConfig {}).absorbed [oneLane]
    (∀ batch ∈ [oneLane, twoLanes], batch.WellFormed) ∧ childrenFirst.Reorders twoLanes ∧
      (before.reconcile twoLanes ∅).2.size = 3 ∧
      before.reconcile childrenFirst ∅ = before.reconcile twoLanes ∅ := by
  intro childrenFirst before
  have wellFormed : ∀ batch ∈ [oneLane] ++ [twoLanes], batch.WellFormed := by
    decide +kernel
  have reorders : childrenFirst.Reorders twoLanes :=
    ⟨rfl, .nil, by decide +kernel, by decide +kernel, by decide +kernel⟩
  exact ⟨wellFormed, reorders, by decide +kernel,
    order_in_batch_immaterial {} [oneLane] twoLanes childrenFirst wellFormed
      (forall_earlier_of_take (by decide +kernel)) reorders⟩

end Manager

end LinkReconciler
