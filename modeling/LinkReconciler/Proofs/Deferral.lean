import LinkReconciler.Proofs.Convergence
import LinkReconciler.Proofs.QueueFold

/-!
Setting changes aside. Two batches that are set aside and taken as one leave what
they leave one after the other: the same ports, the same limit and the same
interfaces. The one thing that the fold forgets is a size limit that the first batch
sets and whose row the second deletes; a deletion alone would have kept that limit.
-/

namespace LinkReconciler

def Batch.followedBy (first second : Batch) : Batch :=
  ((({} : Pending).merge first).merge second).take.1

/-- The first batch sets the row of a subsystem, and the second deletes it for good. -/
def Batch.DropsLimit (subsystem : String) (first second : Batch) : Prop :=
  subsystem ∈ (Change.rows first.subsystems).map (·.name) ∧
    subsystem ∈ Change.deletedNames second.subsystems ∧
    subsystem ∉ (Change.rows second.subsystems).map (·.name)

instance (subsystem : String) (first second : Batch) :
    Decidable (first.DropsLimit subsystem second) :=
  inferInstanceAs (Decidable (_ ∧ _))

def Batch.withoutSubsystem (batch : Batch) (subsystem : String) : Batch :=
  { batch with
    subsystems := batch.subsystems.filter fun change => change.key ≠ subsystem }

/-! ## What the fold leaves of the tables -/

theorem ChangeQueue.applyAll_folded {ρ : Type} [Named ρ] {first second : List (Change ρ)}
    (firstFormed : Change.WellFormed first) (secondFormed : Change.WellFormed second)
    (image : Dict ρ) :
    Change.applyAll image
        (((∅ : ChangeQueue ρ).pushAll first).pushAll second).drained =
      Change.applyAll (Change.applyAll image first) second := by
  rw [applyAll_drained_pushAll (pushAll_sound empty_sound firstFormed.proper)
    secondFormed.proper, applyAll_drained_pushAll empty_sound firstFormed.proper]
  rfl

theorem Change.ofKey_others {ρ : Type} (key dropped : String) (changes : List (Change ρ)) :
    ofKey key (changes.filter fun change => change.key ≠ dropped) =
      if key = dropped then [] else ofKey key changes := by
  rw [ofKey, List.filter_filter]
  by_cases same : key = dropped
  · rw [if_pos same, List.filter_eq_nil_iff]
    intro change _
    simp [same]
  · rw [if_neg same]
    refine List.filter_congr fun change _ => ?_
    by_cases own : change.key = key <;> simp [own, same]

theorem Change.ofKey_of_deleted {ρ : Type} [Named ρ] {changes : List (Change ρ)}
    (wellFormed : WellFormed changes) {key : String} (deleted : key ∈ deletedNames changes)
    (unset : key ∉ (rows changes).map Named.name) : ofKey key changes = [.del key] := by
  rcases (folded_iff key _).mp (wellFormed key) with untouched | gone | ⟨row, member, named, _⟩
  · obtain ⟨change, deletion, same⟩ := List.mem_map.mp deleted
    have touched : change ∈ ofKey key changes :=
      (mem_ofKey_iff key changes change).mpr ⟨(List.mem_filter.mp deletion).1, same⟩
    exact absurd (untouched ▸ touched) List.not_mem_nil
  · exact gone
  · obtain ⟨change, present, sets, carries⟩ := (mem_rows_iff _ row).mp member
    refine absurd (List.mem_map.mpr ⟨row, (mem_rows_iff changes row).mpr ⟨change, ?_, sets,
      carries⟩, named⟩) unset
    exact ((mem_ofKey_iff key changes change).mp present).1

theorem Batch.withoutSubsystem_wellFormed {batch : Batch} (wellFormed : batch.WellFormed)
    (subsystem : String) : (batch.withoutSubsystem subsystem).WellFormed := by
  refine ⟨fun key => ?_, wellFormed.interfaces, wellFormed.ports⟩
  unfold withoutSubsystem
  rw [Change.ofKey_others]
  split
  · exact .untouched
  · exact wellFormed.subsystems key

section Followed
variable {first second : Batch} (firstFormed : first.WellFormed)
  (secondFormed : second.WellFormed)
include firstFormed secondFormed

theorem Batch.followedBy_wellFormed : (first.followedBy second).WellFormed :=
  ((Pending.empty_sound.merge firstFormed).merge secondFormed).batch_wellFormed

theorem Batch.applyAll_followedBy_interfaces (image : Dict InterfaceRow) :
    Change.applyAll image (first.followedBy second).interfaces =
      Change.applyAll (Change.applyAll image first.interfaces) second.interfaces :=
  ChangeQueue.applyAll_folded firstFormed.interfaces secondFormed.interfaces image

theorem Batch.applyAll_followedBy_ports (image : Dict PortRow) :
    Change.applyAll image (first.followedBy second).ports =
      Change.applyAll (Change.applyAll image first.ports) second.ports :=
  ChangeQueue.applyAll_folded firstFormed.ports secondFormed.ports image

theorem Batch.applyAll_followedBy_subsystems (image : Dict SubsystemRow) :
    Change.applyAll image (first.followedBy second).subsystems =
      Change.applyAll (Change.applyAll image first.subsystems) second.subsystems :=
  ChangeQueue.applyAll_folded firstFormed.subsystems secondFormed.subsystems image

end Followed

/-- Where the fold drops the limit, it forgets every change of that row before the deletion. -/
theorem Batch.ofKey_followedBy_of_drops {first second : Batch} {subsystem : String}
    (secondFormed : second.WellFormed) (drops : first.DropsLimit subsystem second)
    (before : Batch) :
    Change.ofKey subsystem (before.followedBy second).subsystems = [.del subsystem] := by
  have folds := (Pending.merge_gathers (Pending.merge_gathers Pending.empty_gathers before)
    second).foldOf.subsystems subsystem
  have deletion : Change.ofKey subsystem second.subsystems = [.del subsystem] :=
    Change.ofKey_of_deleted secondFormed.subsystems drops.2.1 drops.2.2
  simp only [List.nil_append, List.cons_append, List.flatMap_cons, List.flatMap_nil,
    List.append_nil, Change.ofKey_append, deletion] at folds
  exact folds.trans (Change.folded_concat_del _ rfl)

/-! ## The size limit -/

namespace Manager

theorem absorbed_followedBy_maxMtu (manager : Manager) {first second : Batch}
    (firstFormed : first.WellFormed) (secondFormed : second.WellFormed) :
    (manager.absorbed [first.followedBy second]).maxMtu =
      if first.DropsLimit manager.config.system.subsystem second then manager.maxMtu
      else (manager.absorbed [first, second]).maxMtu := by
  show (manager.reconcile (first.followedBy second) ∅).1.maxMtu =
    if first.DropsLimit manager.config.system.subsystem second then manager.maxMtu
    else ((manager.reconcile first ∅).1.reconcile second ∅).1.maxMtu
  generalize named : manager.config.system.subsystem = subsystem
  have after (changes : List (Change SubsystemRow)) (wellFormed : Change.WellFormed changes)
      (absent : subsystem ∉ (Change.rows changes).map (·.name)) (image : Dict SubsystemRow) :
      (Change.applyAll image changes).get? subsystem =
        if subsystem ∈ Change.deletedNames changes then none else image.get? subsystem :=
    (Change.get?_applyAll image changes subsystem).trans
      (Change.outcome_of_not_mem_rows wellFormed subsystem absent _)
  rw [reconcile_maxMtu manager (Batch.followedBy_wellFormed firstFormed secondFormed),
    reconcile_maxMtu _ secondFormed, reconcile_maxMtu manager firstFormed,
    config_reconcile, Batch.applyAll_followedBy_subsystems firstFormed secondFormed, named]
  by_cases setLast : subsystem ∈ (Change.rows second.subsystems).map (·.name)
  · obtain ⟨row, member, rfl⟩ := List.mem_map.mp setLast
    have put (image : Dict SubsystemRow) :
        (Change.applyAll image second.subsystems).get? row.name = some row :=
      Change.get?_applyAll_of_mem_rows secondFormed.subsystems member image
    rw [if_neg fun drops => drops.2.2 setLast, put, put]
    rfl
  · rw [after second.subsystems secondFormed.subsystems setLast,
      after second.subsystems secondFormed.subsystems setLast]
    by_cases deleted : subsystem ∈ Change.deletedNames second.subsystems
    · rw [if_pos deleted, if_pos deleted]
      by_cases setFirst : subsystem ∈ (Change.rows first.subsystems).map (·.name)
      · rw [if_pos ⟨setFirst, deleted, setLast⟩]
        rfl
      · rw [if_neg fun drops => setFirst drops.1,
          after first.subsystems firstFormed.subsystems setFirst, Dict.get?_empty, ite_self]
        rfl
    · rw [if_neg deleted, if_neg deleted, if_neg fun drops => deleted drops.2.1]
      rfl

section Followed
variable {manager : Manager} {image : Dict InterfaceRow} {ports : Dict PortRow}
  (tracks : manager.Tracks image ports) {first second : Batch}
  (firstFormed : first.WellFormed) (secondFormed : second.WellFormed)
include tracks firstFormed secondFormed

/-! ## Ports and declarations -/

theorem absorbed_followedBy_ports :
    (manager.absorbed [first.followedBy second]).registry.ports =
      (manager.absorbed [first, second]).registry.ports := by
  have stepwise := (reconcile_tracks (reconcile_tracks tracks firstFormed) secondFormed).portsOf
  have folded := (reconcile_tracks tracks
    (Batch.followedBy_wellFormed firstFormed secondFormed)).portsOf
  rw [Batch.applyAll_followedBy_ports firstFormed secondFormed] at folded
  exact folded.trans stepwise.symm

theorem absorbed_pair_declared? (name : String) :
    (manager.absorbed [first, second]).registry.declared? name =
      ((Change.applyAll image (first.followedBy second).interfaces).get? name).map
        fun row => (Interface.ofRow row (manager.absorbed [first, second]).maxMtu).declared := by
  refine (reconcile_declared? (reconcile_tracks tracks firstFormed) secondFormed name).trans ?_
  rw [Batch.applyAll_followedBy_interfaces firstFormed secondFormed]
  -- The writes of the first reconciliation do not show in what a row declares.
  refine map_get?_applyAll_congr secondFormed.interfaces ?_
  rw [Store.get?_applyUpdates, Option.map_map, RowUpdate.declared_apply]

theorem absorbed_followedBy_declared? (name : String) :
    (manager.absorbed [first.followedBy second]).registry.declared? name =
      ((manager.absorbed [first, second]).registry.declared? name).map
        (Work.reread (manager.absorbed [first.followedBy second]).maxMtu) := by
  rw [absorbed_pair_declared? tracks firstFormed secondFormed, Option.map_map]
  exact reconcile_declared? tracks (Batch.followedBy_wellFormed firstFormed secondFormed) name

theorem absorbed_followedBy_links? (name : String) :
    (manager.absorbed [first.followedBy second]).registry.links? name =
      (manager.absorbed [first, second]).registry.links? name := by
  rw [Registry.links?_eq, Registry.links?_eq,
    absorbed_followedBy_declared? tracks firstFormed secondFormed, Option.map_map]
  rfl

end Followed

theorem absorbed_links? {manager : Manager} {image : Dict InterfaceRow}
    {ports : Dict PortRow} (tracks : manager.Tracks image ports) {batch : Batch}
    (wellFormed : batch.WellFormed) (name : String) :
    (manager.absorbed [batch]).registry.links? name =
      ((Change.applyAll image batch.interfaces).get? name).map
        fun row => (row.splitParent, row.splitChildren) := by
  rw [Registry.links?_eq]
  have declared : (manager.absorbed [batch]).registry.declared? name = _ :=
    reconcile_declared? tracks wellFormed name
  rw [declared, Option.map_map]
  rfl

/-! ## Interfaces -/

section Followed
variable {manager : Manager} {image : Dict InterfaceRow} {ports : Dict PortRow}
  (tracks : manager.Tracks image ports) {first second : Batch}
  (firstFormed : first.WellFormed) (secondFormed : second.WellFormed)
include tracks firstFormed secondFormed

theorem stamp_followedBy {name : String} {stepRow foldRow : InterfaceRow}
    (stepwise : (Change.applyAll (Store.applyUpdates
      (Change.applyAll image first.interfaces) (manager.reconcile first ∅).2)
        second.interfaces).get? name = some stepRow)
    (folded : (Change.applyAll image (first.followedBy second).interfaces).get? name =
      some foldRow) (state : LayerState) :
    Arbiter.stamp state stepRow.forwarding = Arbiter.stamp state foldRow.forwarding := by
  rw [Batch.applyAll_followedBy_interfaces firstFormed secondFormed] at folded
  by_cases touched : Change.Touches second.interfaces name
  · rw [get?_applyAll_of_touched secondFormed.interfaces touched _
      (Change.applyAll image first.interfaces), folded] at stepwise
    rw [Option.some.inj stepwise]
  · rw [Change.get?_applyAll_of_untouched touched] at stepwise folded
    exact stamp_written tracks firstFormed folded stepwise state

theorem absorbed_followedBy_eq (before : manager.registry.InOrder)
    (after : (manager.absorbed [first, second]).registry.InOrder)
    (limit : (manager.absorbed [first.followedBy second]).maxMtu =
      (manager.absorbed [first, second]).maxMtu) :
    manager.absorbed [first.followedBy second] = manager.absorbed [first, second] := by
  have foldFormed := Batch.followedBy_wellFormed firstFormed secondFormed
  have declared : (manager.absorbed [first.followedBy second]).registry.declared? =
      (manager.absorbed [first, second]).registry.declared? := by
    funext name
    rw [absorbed_pair_declared? tracks firstFormed secondFormed, ← limit]
    exact reconcile_declared? tracks foldFormed name
  have registry : (manager.absorbed [first.followedBy second]).registry =
      (manager.absorbed [first, second]).registry :=
    reconcile_registry_eq (reconcile_tracks tracks firstFormed) tracks secondFormed foldFormed
      rfl declared (absorbed_followedBy_ports tracks firstFormed secondFormed) before after
      fun name stepRow foldRow stepwise folded state =>
        (stamp_followedBy tracks firstFormed secondFormed stepwise folded state).symm
  calc manager.absorbed [first.followedBy second]
      = { manager with
          registry := (manager.absorbed [first.followedBy second]).registry
          maxMtu := (manager.absorbed [first.followedBy second]).maxMtu } :=
        reconcile_fst manager (first.followedBy second) ∅
    _ = { manager with
          registry := (manager.absorbed [first, second]).registry
          maxMtu := (manager.absorbed [first, second]).maxMtu } := by
        rw [registry, limit]
    _ = manager.absorbed [first, second] :=
        (reconcile_fst (manager.reconcile first ∅).1 second ∅).symm

/-- Links do not depend on the limit, so a path that takes in the same interfaces is in
order where the other one is. -/
theorem absorbed_pair_inOrder {others : Batch} (othersFormed : others.WellFormed)
    (same : others.interfaces = first.interfaces) (before : manager.registry.InOrder)
    (between : ∀ name, (manager.absorbed [first]).registry.Listed name)
    (after : ∀ name, (manager.absorbed [first, second]).registry.Listed name) :
    (manager.absorbed [others, second]).registry.InOrder := by
  have linksBetween : (manager.absorbed [others]).registry.links? =
      (manager.absorbed [first]).registry.links? := by
    funext name
    rw [absorbed_links? tracks othersFormed, absorbed_links? tracks firstFormed, same]
  have linksAfter : (manager.absorbed [others, second]).registry.links? =
      (manager.absorbed [first, second]).registry.links? := by
    funext name
    rw [← absorbed_followedBy_links? tracks othersFormed secondFormed,
      ← absorbed_followedBy_links? tracks firstFormed secondFormed,
      absorbed_links? tracks (Batch.followedBy_wellFormed othersFormed secondFormed),
      absorbed_links? tracks (Batch.followedBy_wellFormed firstFormed secondFormed),
      Batch.applyAll_followedBy_interfaces othersFormed secondFormed,
      Batch.applyAll_followedBy_interfaces firstFormed secondFormed, same]
  intro name
  have listedBetween := Registry.listed_of_links? linksBetween (between name)
  have listedAfter := Registry.listed_of_links? linksAfter (after name)
  have current : (manager.absorbed [others]).registry.Current name :=
    reconcile_current tracks othersFormed listedBetween (Or.inr (before name))
  exact ⟨reconcile_current (reconcile_tracks tracks othersFormed) secondFormed listedAfter
    (Or.inr ⟨current, listedBetween⟩), listedAfter⟩

/-- A fold that drops the limit leaves what the batches leave one after the other if the
first one never touched the row of the configured subsystem. -/
theorem absorbed_followedBy_dropped
    (drops : first.DropsLimit manager.config.system.subsystem second)
    (before : manager.registry.InOrder)
    (between : ∀ name, (manager.absorbed [first]).registry.Listed name)
    (after : ∀ name, (manager.absorbed [first, second]).registry.Listed name) :
    manager.absorbed [first.followedBy second] =
      manager.absorbed [first.withoutSubsystem manager.config.system.subsystem, second] := by
  have othersFormed :=
    Batch.withoutSubsystem_wellFormed firstFormed manager.config.system.subsystem
  have folded : manager.reconcile (first.followedBy second) ∅ = manager.reconcile
      ((first.withoutSubsystem manager.config.system.subsystem).followedBy second) ∅ := by
    refine reconcile_congr manager ?_ ?_ ?_ ∅
    · rw [Batch.ofKey_followedBy_of_drops secondFormed drops,
        Batch.ofKey_followedBy_of_drops secondFormed drops]
    · rfl
    · rfl
  have keeps : ¬ (first.withoutSubsystem manager.config.system.subsystem).DropsLimit
      manager.config.system.subsystem second := by
    rintro ⟨sets, _, _⟩
    obtain ⟨row, member, named⟩ := List.mem_map.mp sets
    have change := Change.ofRow_mem_of_mem_rows othersFormed.subsystems member
    exact of_decide_eq_true (List.mem_filter.mp change).2 named
  have limit := manager.absorbed_followedBy_maxMtu othersFormed secondFormed
  rw [if_neg keeps] at limit
  have ended := absorbed_pair_inOrder tracks firstFormed secondFormed othersFormed rfl before
    between after
  calc manager.absorbed [first.followedBy second]
      = manager.absorbed
          [(first.withoutSubsystem manager.config.system.subsystem).followedBy second] :=
        congrArg Prod.fst folded
    _ = manager.absorbed [first.withoutSubsystem manager.config.system.subsystem, second] :=
        absorbed_followedBy_eq tracks othersFormed secondFormed before ended limit

end Followed

/-! ## The law -/

/-- Over batches on a new manager each of which leaves it linked, the last two may as
well be set aside and reconciled as one, unless they drop the limit of the configured
subsystem. If they do, everything is as if the first had never touched the row of that
subsystem: the limit from before both comes out. Still the ports and the registered rows
are the same, and so is everything if the limits happen to agree. -/
theorem deferral_transparent (config : Config) (batches : List Batch) (first second : Batch)
    (wellFormed : ∀ batch ∈ batches ++ [first, second], batch.WellFormed)
    (linked : ∀ earlier later, batches ++ [first, second] = earlier ++ later →
      ((ofConfig config).absorbed earlier).registry.Linked) :
    let before := (ofConfig config).absorbed batches
    let stepwise := before.absorbed [first, second]
    let folded := before.absorbed [first.followedBy second]
    let drops := first.DropsLimit config.system.subsystem second
    (¬ drops → folded = stepwise) ∧
      (drops →
        folded = before.absorbed [first.withoutSubsystem config.system.subsystem, second] ∧
        folded.maxMtu = before.maxMtu ∧
        (folded.maxMtu = stepwise.maxMtu → folded = stepwise)) ∧
      folded.registry.ports = stepwise.registry.ports ∧
      ∀ name, folded.registry.declared? name =
        (stepwise.registry.declared? name).map (Work.reread folded.maxMtu) := by
  intro before stepwise folded drops
  obtain ⟨formedBefore, formedLast⟩ := List.forall_mem_append.mp wellFormed
  have firstFormed := formedLast first List.mem_cons_self
  have secondFormed := formedLast second (List.mem_cons_of_mem _ (List.mem_singleton_self _))
  have foldFormed := Batch.followedBy_wellFormed firstFormed secondFormed
  obtain ⟨image, portRows, tracks⟩ : ∃ image portRows, before.Tracks image portRows :=
    absorbed_tracks formedBefore (ofConfig_tracks config)
  have ports : folded.registry.ports = stepwise.registry.ports :=
    absorbed_followedBy_ports tracks firstFormed secondFormed
  have declared (name : String) : folded.registry.declared? name =
      (stepwise.registry.declared? name).map (Work.reread folded.maxMtu) :=
    absorbed_followedBy_declared? tracks firstFormed secondFormed name
  have limit : folded.maxMtu = if drops then before.maxMtu else stepwise.maxMtu := by
    have here := before.absorbed_followedBy_maxMtu firstFormed secondFormed
    rwa [show before.config = config from config_absorbed _ batches] at here
  have settledBefore (name : String) :
      before.registry.Current name ∧ before.registry.Listed name := by
    refine ⟨current_of_linked config formedBefore (fun earlier later split => ?_) name,
      (linked batches [first, second] rfl).listed name⟩
    exact linked earlier (later ++ [first, second]) (by rw [split, List.append_assoc])
  have settledAfter (name : String) :
      stepwise.registry.Current name ∧ stepwise.registry.Listed name := by
    have current := current_of_linked config wellFormed linked name
    have listed := (linked (batches ++ [first, second]) [] (List.append_nil _).symm).listed name
    rw [absorbed_append] at current listed
    exact ⟨current, listed⟩
  have same := absorbed_followedBy_eq tracks firstFormed secondFormed settledBefore settledAfter
  have listedBetween (name : String) : (before.absorbed [first]).registry.Listed name := by
    have listed := (linked (batches ++ [first]) [second]
      (List.append_assoc batches [first] [second]).symm).listed name
    rwa [absorbed_append] at listed
  refine ⟨fun keeps => same ?_, fun dropped => ⟨?_, ?_, same⟩, ports, declared⟩
  · exact limit.trans (if_neg keeps)
  · have dropping := absorbed_followedBy_dropped tracks firstFormed secondFormed
    rw [show before.config = config from config_absorbed _ batches] at dropping
    exact dropping dropped settledBefore listedBetween fun name => (settledAfter name).2
  · exact limit.trans (if_pos dropped)

def widerParent : InterfaceRow where
  name := "49"
  splitChildren := ["49-1", "49-2"]

/-- A child is taken up by a port and loses its parent, which comes back another. -/
def replacedParent : Batch × Batch :=
  ({ interfaces := [.ofRow { name := "49-1", splitParent := some "49" }]
     ports := [.ofRow { name := "p", interfaces := ["49-1"] }] },
    { interfaces := [.del "49", .ofRow widerParent]
      ports := [.del "p"]
      subsystems := [.ofRow { name := "base" }] })

theorem replacedParent_deferred :
    let before := (ofConfig {}).absorbed
      [{ interfaces := [.ofRow { name := "49", splitChildren := ["49-1"] }] }]
    before.absorbed [replacedParent.1.followedBy replacedParent.2] =
      before.absorbed [replacedParent.1, replacedParent.2] := by
  have transparent := deferral_transparent {}
    [{ interfaces := [.ofRow { name := "49", splitChildren := ["49-1"] }] }]
    replacedParent.1 replacedParent.2 (by
      intro batch member
      simp only [List.cons_append, List.nil_append, List.mem_cons, List.not_mem_nil,
        or_false] at member
      rcases member with rfl | rfl | rfl
      · exact ⟨.nil, .put _, .nil⟩
      · exact ⟨.nil, .put _, .put _⟩
      · exact ⟨.put _, .replaced widerParent, .deleted "p"⟩)
    (forall_earlier_of_take (by decide +kernel))
  exact transparent.1 (by decide +kernel)

/-- The first batch sets a limit and the second deletes its row: as one batch they
leave the limit as it was, which an interface shows. -/
theorem dropped_limit_differs :
    let known : Batch :=
      { interfaces := [.ofRow { name := "1", userConfig := .ofList [("mtu", "9000")] }] }
    let first : Batch := { subsystems := [.ofRow
      { name := "base", otherInfo := .ofList [("max_transmission_unit", "9216")] }] }
    let second : Batch := { subsystems := [.del "base"] }
    let stepwise := (ofConfig {}).absorbed [known, first, second]
    let folded := (ofConfig {}).absorbed [known, first.followedBy second]
    (∀ batch ∈ [known, first, second], batch.WellFormed) ∧
      (∀ earlier later, [known, first, second] = earlier ++ later →
        ((ofConfig {}).absorbed earlier).registry.Linked) ∧
      stepwise.maxMtu = 9216 ∧ folded.maxMtu = 0 ∧
      (stepwise.registry.interface? "1").map (·.user.mtu) = some (.value 9000) ∧
      (folded.registry.interface? "1").map (·.user.mtu) = some .invalid := by
  intro known first second stepwise folded
  refine ⟨?_, forall_earlier_of_take (by decide +kernel), by decide +kernel,
    by decide +kernel, by decide +kernel, by decide +kernel⟩
  intro batch member
  simp only [List.mem_cons, List.not_mem_nil, or_false] at member
  rcases member with rfl | rfl | rfl
  · exact ⟨.nil, .put _, .nil⟩
  · exact ⟨.put _, .nil, .nil⟩
  · exact ⟨.deleted "base", .nil, .nil⟩

end Manager

end LinkReconciler
