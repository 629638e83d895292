import LinkReconciler.Proofs.Reconciliation

/-!
Derived state over whole runs of reconciliations. An interface stays current as
long as the parent that it names lists it, and needs that: a parent that does not
list it can be changed past it.
-/

namespace LinkReconciler

def Batch.Sets (batch : Batch) (name : String) : Prop :=
  name ∈ (Change.rows batch.interfaces).map (·.name)

namespace Manager

theorem forall_earlier_of_take {batches : List Batch} {holds : List Batch → Prop}
    (taken : ∀ count ≤ batches.length, holds (batches.take count)) :
    ∀ earlier later, batches = earlier ++ later → holds earlier := by
  rintro earlier later rfl
  have here := taken earlier.length (by simp)
  rwa [List.take_left] at here

def absorbed (manager : Manager) (batches : List Batch) : Manager :=
  batches.foldl (fun manager batch => (manager.reconcile batch ∅).1) manager

theorem absorbed_append (manager : Manager) (batches more : List Batch) :
    manager.absorbed (batches ++ more) = (manager.absorbed batches).absorbed more :=
  List.foldl_append

theorem config_absorbed (manager : Manager) (batches : List Batch) :
    (manager.absorbed batches).config = manager.config := by
  induction batches generalizing manager with
  | nil => rfl
  | cons batch rest ih => exact (ih _).trans (config_reconcile manager batch ∅)

theorem absorbed_tracks {manager : Manager} {batches : List Batch}
    (wellFormed : ∀ batch ∈ batches, batch.WellFormed)
    {image : Dict InterfaceRow} {ports : Dict PortRow}
    (tracks : manager.Tracks image ports) :
    ∃ image ports, (manager.absorbed batches).Tracks image ports := by
  induction batches generalizing manager image ports with
  | nil => exact ⟨image, ports, tracks⟩
  | cons batch rest ih =>
      obtain ⟨head, tail⟩ := List.forall_mem_cons.mp wellFormed
      exact ih tail (reconcile_tracks tracks head)

/-- The induction over the batches carries currency from the batch that last set
the row; until then nothing is asked of the interface. -/
theorem absorbed_current {manager : Manager} {batches : List Batch}
    (wellFormed : ∀ batch ∈ batches, batch.WellFormed)
    {image : Dict InterfaceRow} {ports : Dict PortRow}
    (tracks : manager.Tracks image ports) {name : String}
    (start : (∀ batch ∈ batches, ¬ batch.Sets name) → manager.registry.Current name)
    (listed : ∀ earlier later, batches = earlier ++ later →
      (∀ batch ∈ later, ¬ batch.Sets name) →
      (manager.absorbed earlier).registry.Listed name) :
    (manager.absorbed batches).registry.Current name := by
  induction batches generalizing manager image ports with
  | nil => exact start fun _ absent => (List.not_mem_nil absent).elim
  | cons batch rest ih =>
      obtain ⟨head, tail⟩ := List.forall_mem_cons.mp wellFormed
      apply ih tail (reconcile_tracks tracks head)
      · intro unset
        apply reconcile_current tracks head (listed [batch] rest rfl unset)
        by_cases sets : batch.Sets name
        · exact Or.inl sets
        · have never : ∀ later ∈ batch :: rest, ¬ later.Sets name := by
            intro later member
            rcases List.mem_cons.mp member with same | tail
            · exact same ▸ sets
            · exact unset later tail
          exact Or.inr ⟨start never, listed [] (batch :: rest) rfl never⟩
      · intro earlier later split unset
        apply listed (batch :: earlier) later _ unset
        rw [split, List.cons_append]

/-! ## A parent that does not list its child -/

/-- A row that gives an interface another module and keeps its links. -/
def refitted (name : String) (interface : Interface) (moduleInfo : ColumnMap) :
    InterfaceRow where
  name := name
  moduleInfo := moduleInfo
  splitParent := interface.splitParent
  splitChildren := interface.splitChildren

theorem exists_moduleInfo (transceiver : Transceiver) :
    ∃ moduleInfo, transceiver ≠ .ofLane (.ofColumn moduleInfo) := by
  let absent : ColumnMap := .ofList [("connector", "absent")]
  by_cases same : transceiver = .ofLane (.ofColumn ∅)
  · refine ⟨absent, fun again => ?_⟩
    have equal := same.symm.trans again
    revert equal
    decide +kernel
  · exact ⟨∅, same⟩

theorem result_put_known {manager : Manager} (row : InterfaceRow)
    (registered : manager.registry.hasInterface row.name = true) :
    (manager.absorption { interfaces := [.ofRow row] }).result =
      (manager.absorption { interfaces := [.ofRow row] }).start.revise row := by
  have known : (manager.absorption { interfaces := [.ofRow row] }).known = [row] :=
    List.filter_eq_self.mpr fun other member => by
      rw [List.mem_singleton.mp member]
      exact registered
  have fresh : (manager.absorption { interfaces := [.ofRow row] }).fresh = [] :=
    List.filter_eq_nil_iff.mpr fun other member => by
      rw [List.mem_singleton.mp member]
      have kept : (manager.absorption
          { interfaces := [.ofRow row] }).reduced.registry.hasInterface row.name = true :=
        registered
      simp [kept]
  unfold Absorption.result Absorption.linked Absorption.ported Absorption.enrolled
  rw [known, fresh]
  rfl

theorem unlisted_goes_stale {manager : Manager} {image : Dict InterfaceRow}
    {ports : Dict PortRow} (tracks : manager.Tracks image ports) {name : String}
    (unlisted : ¬ manager.registry.Listed name) :
    ∃ batch : Batch, batch.WellFormed ∧ ¬ batch.Sets name ∧
      (manager.reconcile batch ∅).1.registry.isStale name = true := by
  obtain ⟨parent, points, registered, differs, absent⟩ : ∃ parent,
      manager.registry.pointsTo parent name = true ∧
        manager.registry.hasInterface parent = true ∧ parent ≠ name ∧
        name ∉ manager.registry.childrenOf parent := by
    simpa [Registry.Listed] using unlisted
  obtain ⟨interface, found, named⟩ := Registry.exists_of_pointsTo points
  obtain ⟨above, present⟩ := (Registry.hasInterface_iff _ _).mp registered
  rw [Registry.childrenOf_of_found present] at absent
  obtain ⟨moduleInfo, another⟩ := exists_moduleInfo interface.transceiver
  let row := refitted parent above moduleInfo
  let batch : Batch := { interfaces := [.ofRow row] }
  have wellFormed : batch.WellFormed := ⟨.nil, .put row, .nil⟩
  have untouched := Work.interface?_revise_unlisted (manager.absorption batch).start row
    (Ne.symm differs) absent
  rw [← result_put_known row registered] at untouched
  refine ⟨batch, wellFormed, ?_, ?_⟩
  · intro sets
    exact differs (List.mem_singleton.mp sets).symm
  · let settled := Work.settled manager.arbiter (manager.absorption batch).result name
    have after : (manager.reconcile batch ∅).1.registry.interface? name =
        some (settled interface) := by
      rw [reconcile_eq manager wellFormed, Work.interface?_settle, untouched]
      exact congrArg (Option.map settled) found
    have set : row ∈ Change.rows batch.interfaces := List.mem_singleton_self row
    obtain ⟨upper, found, put⟩ := reconcile_put tracks wellFormed set
    have shown : (manager.reconcile batch ∅).1.registry.interface? parent = some upper :=
      found
    have recorded : upper.report = .ofColumn moduleInfo :=
      congrArg (fun part : Interface => part.report) put
    obtain ⟨declared, transceiver, _⟩ :=
      Work.settled_frame manager.arbiter (manager.absorption batch).result name interface
    have parentKept : (settled interface).splitParent = some parent :=
      (Interface.splitParent_of_declared declared).trans named
    unfold Registry.isStale
    rw [after]
    refine decide_eq_true fun fits => another ?_
    rw [← transceiver, ← recorded]
    refine fits.trans ?_
    unfold Registry.transceiverDue Registry.parent?
    rw [parentKept, Option.bind_some, shown]

/-! ## The law -/

/-- Over batches on a new manager an interface is current as long as, since the
batch that last set its row, the parent that it names has listed it; once the
parent does not list it, some next batch leaves the interface stale. -/
theorem current_while_listed (config : Config) (batches : List Batch)
    (wellFormed : ∀ batch ∈ batches, batch.WellFormed) (name : String) :
    ((∀ earlier later, batches = earlier ++ later →
        (∀ batch ∈ later, ¬ batch.Sets name) →
        ((ofConfig config).absorbed earlier).registry.Listed name) →
      ((ofConfig config).absorbed batches).registry.Current name) ∧
    (¬ ((ofConfig config).absorbed batches).registry.Listed name →
      ∃ batch : Batch, batch.WellFormed ∧ ¬ batch.Sets name ∧
        ((ofConfig config).absorbed (batches ++ [batch])).registry.isStale name = true) := by
  constructor
  · intro listed
    apply absorbed_current wellFormed (ofConfig_tracks config) _ listed
    intro _ interface absent
    cases absent
  · intro unlisted
    obtain ⟨image, ports, tracks⟩ := absorbed_tracks wellFormed (ofConfig_tracks config)
    obtain ⟨batch, admitted, unset, stale⟩ := unlisted_goes_stale tracks unlisted
    refine ⟨batch, admitted, unset, ?_⟩
    unfold absorbed at stale ⊢
    rw [List.foldl_append]
    exact stale

def listedChildFirst : List Batch :=
  [{ interfaces := [.ofRow { name := "49-1", splitParent := some "49" }] },
    { interfaces := [.ofRow { name := "49", splitChildren := ["49-1"] }] }]

theorem listedChildFirst_current :
    (∀ batch ∈ listedChildFirst, batch.WellFormed) ∧
      ((ofConfig {}).absorbed listedChildFirst).registry.Current "49-1" := by
  have wellFormed : ∀ batch ∈ listedChildFirst, batch.WellFormed := by
    intro batch member
    simp only [listedChildFirst, List.mem_cons, List.not_mem_nil, or_false] at member
    rcases member with rfl | rfl
    · exact ⟨.nil, .put _, .nil⟩
    · exact ⟨.nil, .put _, .nil⟩
  refine ⟨wellFormed, (current_while_listed {} listedChildFirst wellFormed "49-1").1 ?_⟩
  intro earlier later split unset
  rcases earlier with _ | ⟨first, _ | ⟨second, _ | ⟨third, rest⟩⟩⟩
  · cases split
    exact absurd (List.mem_singleton_self _) (unset _ List.mem_cons_self)
  · cases split
    decide +kernel
  · cases split
    decide +kernel
  · cases split

/-- A child that arrives before its parent, where the parent does not list it, is
neither renewed nor derived anew. -/
theorem unlisted_child_first_stale :
    let child : InterfaceRow := { name := "49-1", splitParent := some "49" }
    let parent : InterfaceRow := { name := "49" }
    let batches : List Batch :=
      [{ interfaces := [.ofRow child] }, { interfaces := [.ofRow parent] }]
    let registry := ((ofConfig {}).absorbed batches).registry
    (∀ batch ∈ batches, batch.WellFormed) ∧
      (registry.interface? "49-1").map (·.transceiver) ≠
        registry.dueTransceiver? "49-1" ∧
      (registry.interface? "49-1").map (·.oper) ≠
        (registry.interface? "49-1").map (·.derive (registry.laneSplitAbove? "49-1")) := by
  intro child parent batches registry
  refine ⟨?_, by decide +kernel, by decide +kernel⟩
  intro batch member
  simp only [batches, List.mem_cons, List.not_mem_nil, or_false] at member
  rcases member with rfl | rfl
  · exact ⟨.nil, .put child, .nil⟩
  · exact ⟨.nil, .put parent, .nil⟩

end Manager

end LinkReconciler
