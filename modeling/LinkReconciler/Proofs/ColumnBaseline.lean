import LinkReconciler.Proofs.BatchInvariant

/-!
The columns that settling starts from. While a batch is absorbed, the columns that the
reconciler writes back change only by the rows that the batch sets: a name holds what
its last row said, or else what was registered before.
-/

namespace LinkReconciler

structure WrittenColumns where
  error : Option String
  hwConfig : ColumnMap
  forwarding : ColumnMap

def InterfaceRow.columns (row : InterfaceRow) : WrittenColumns :=
  ⟨row.error, row.hwConfig, row.forwarding⟩

def Interface.columns (interface : Interface) : WrittenColumns :=
  ⟨interface.error, interface.hwConfig, interface.forwarding⟩

def overlay (columns : String → Option WrittenColumns) (row : InterfaceRow) :
    String → Option WrittenColumns :=
  fun name => if row.name = name then some row.columns else columns name

theorem overlayAll_overlay (rows : List InterfaceRow) {row : InterfaceRow}
    (others : ∀ other ∈ rows, other.name ≠ row.name)
    (columns : String → Option WrittenColumns) :
    rows.foldl overlay (overlay columns row) = overlay (rows.foldl overlay columns) row := by
  induction rows generalizing columns with
  | nil => rfl
  | cons other rest ih =>
      obtain ⟨differs, others⟩ := List.forall_mem_cons.mp others
      have swap : overlay (overlay columns row) other = overlay (overlay columns other) row := by
        funext name
        unfold overlay
        by_cases own : other.name = name
        · simp [own, own ▸ Ne.symm differs]
        · simp [own]
      rw [List.foldl_cons, swap, ih others, List.foldl_cons]

theorem overlayAll_of_erased (rows : List InterfaceRow)
    {erased columns : String → Option WrittenColumns} {name : String}
    (less : erased name = none ∨ erased name = columns name) :
    rows.foldl overlay erased name = none ∨
      rows.foldl overlay erased name = rows.foldl overlay columns name := by
  induction rows generalizing erased columns with
  | nil => exact less
  | cons row rest ih =>
      refine ih ?_
      unfold overlay
      by_cases own : row.name = name
      · simp [own]
      · simpa [own] using less

namespace Registry

def columns? (registry : Registry) (name : String) : Option WrittenColumns :=
  (registry.interface? name).map Interface.columns

theorem columns?_of_recorded? {left right : Registry} {name : String}
    (same : left.recorded? name = right.recorded? name) :
    left.columns? name = right.columns? name := by
  have shown (registry : Registry) :
      registry.columns? name = (registry.recorded? name).map Interface.columns := by
    unfold columns? recorded?
    rw [Option.map_map]
    rfl
  rw [shown, shown, same]

theorem hasInterface_eq_columns? (registry : Registry) (name : String) :
    registry.hasInterface name = (registry.columns? name).isSome := by
  simp [hasInterface, Dict.contains, columns?, interface?]

end Registry

namespace Work

/-! ## Step by step -/

theorem columns?_followSubsystem (work : Work) (subsystem : String)
    (change : Change SubsystemRow) :
    (work.followSubsystem subsystem change).registry.columns? = work.registry.columns? := by
  rcases followSubsystem_cases work subsystem change with same | ⟨limit, same⟩
  · rw [same]
  · funext name
    rw [same]
    unfold Registry.columns?
    rw [interface?_limitMtu, Option.map_map]
    rfl

theorem columns?_forget (work : Work) (gone name : String) :
    (work.forget gone).registry.columns? name = none ∨
      (work.forget gone).registry.columns? name = work.registry.columns? name := by
  have left := recorded?_forget work gone name
  by_cases own : gone = name
  · refine Or.inl ?_
    rw [if_pos own] at left
    simpa [Registry.columns?, Registry.recorded?] using left
  · rw [if_neg own] at left
    exact Or.inr (Registry.columns?_of_recorded? left)

theorem columns?_enroll (arbiter : Arbiter) {work : Work} {row : InterfaceRow}
    (absent : work.registry.hasInterface row.name = false) :
    (work.enroll arbiter row).registry.columns? = overlay work.registry.columns? row := by
  funext name
  unfold Registry.columns? overlay
  rw [interface?_enroll arbiter absent]
  split <;> rfl

theorem columns?_revise {work : Work} {row : InterfaceRow}
    (known : work.registry.hasInterface row.name = true) :
    (work.revise row).registry.columns? = overlay work.registry.columns? row := by
  obtain ⟨before, found⟩ := (Registry.hasInterface_iff _ _).mp known
  obtain ⟨renewed, marked, revised⟩ := revise_revised found
  funext name
  rw [Registry.columns?_of_recorded? (congrFun revised.touched.recorded? name)]
  unfold Registry.columns? overlay
  by_cases own : row.name = name
  · subst own
    rw [if_pos rfl, interface?_overwritten_self found]
    rfl
  · rw [if_neg own, interface?_overwritten_ne work before (Ne.symm own)]

/-! ## The rows of a batch -/

/-- What has been taken in so far, with the rows that still wait to be followed. -/
structure Awaiting (arrivals : Arrivals) (columns : String → Option WrittenColumns) :
    Prop where
  known : ∀ row ∈ arrivals.modified,
    arrivals.work.registry.hasInterface row.name = true
  columns : arrivals.modified.foldl overlay arrivals.work.registry.columns? = columns

theorem receive_awaiting (arbiter : Arbiter) {arrivals : Arrivals}
    {columns : String → Option WrittenColumns} (awaiting : Awaiting arrivals columns)
    {change : Change InterfaceRow} {row : InterfaceRow} (carried : change.row = some row) :
    Awaiting (arrivals.receive arbiter change) (overlay columns row) := by
  unfold Arrivals.receive
  rw [carried]
  by_cases registered : arrivals.work.registry.hasInterface row.name = true
  · simp only [registered, if_true]
    constructor
    · intro other member
      rcases List.mem_append.mp member with earlier | own
      · exact awaiting.known other earlier
      · exact List.mem_singleton.mp own ▸ registered
    · rw [List.foldl_append, awaiting.columns]
      rfl
  · have absent : arrivals.work.registry.hasInterface row.name = false := by
      simpa using registered
    simp only [absent, Bool.false_eq_true, if_false]
    -- A row that waits belongs to another interface, since that one is registered.
    have others : ∀ other ∈ arrivals.modified, other.name ≠ row.name := by
      intro other member same
      exact registered (same ▸ awaiting.known other member)
    constructor
    · intro other member
      rw [Absorption.hasInterface_enroll_ne absent (Ne.symm (others other member))]
      exact awaiting.known other member
    · rw [columns?_enroll arbiter absent, overlayAll_overlay _ others, awaiting.columns]

theorem receiveAll_awaiting (arbiter : Arbiter) (changes : List (Change InterfaceRow))
    {arrivals : Arrivals} {columns : String → Option WrittenColumns}
    (awaiting : Awaiting arrivals columns) :
    Awaiting ((changes.filter fun change => !change.isDel).foldl
        (Arrivals.receive arbiter) arrivals)
      ((Change.rows changes).foldl overlay columns) := by
  induction changes generalizing arrivals columns with
  | nil => exact awaiting
  | cons change rest ih =>
      unfold Change.rows at ih ⊢
      by_cases deletes : change.isDel = true
      · simpa [deletes] using ih awaiting
      · cases carried : change.row with
        | none =>
            have idle : arrivals.receive arbiter change = arrivals := by
              simp [Arrivals.receive, carried]
            simpa [deletes, carried, idle] using ih awaiting
        | some row =>
            simpa [deletes, carried] using ih (receive_awaiting arbiter awaiting carried)

theorem columns?_reviseAll (rows : List InterfaceRow) {work : Work}
    (known : ∀ row ∈ rows, work.registry.hasInterface row.name = true) :
    (rows.foldl revise work).registry.columns? = rows.foldl overlay work.registry.columns? := by
  induction rows generalizing work with
  | nil => rfl
  | cons row rest ih =>
      obtain ⟨own, others⟩ := List.forall_mem_cons.mp known
      rw [List.foldl_cons, List.foldl_cons, ih, columns?_revise own]
      intro other member
      rw [Absorption.hasInterface_revise]
      exact others other member

theorem columns?_followPorts (work : Work) (changes : List (Change PortRow)) :
    (work.followPorts changes).registry.columns? = work.registry.columns? :=
  funext fun name => Registry.columns?_of_recorded?
    (congrFun (followPorts_recorded? work changes) name)

theorem columns?_linkAll (work : Work) (names : List String) :
    (names.foldl linkInserted work).registry.columns? = work.registry.columns? :=
  funext fun name => Registry.columns?_of_recorded?
    (congrFun (linkAll_touched work names).recorded? name)

/-- An interface that is registered after a batch has the columns of the last row that
the batch sets under its name, or else those that it had. -/
theorem columns?_absorb (work : Work) (subsystem : String) (arbiter : Arbiter)
    (batch : Batch) (name : String) :
    (work.absorb subsystem arbiter batch).registry.columns? name = none ∨
      (work.absorb subsystem arbiter batch).registry.columns? name =
        (Change.rows batch.interfaces).foldl overlay work.registry.columns? name := by
  let limited := batch.subsystems.foldl (followSubsystem subsystem) work
  let reduced := ((batch.interfaces.filter Change.isDel).map (·.key)).foldl forget limited
  let arrivals := (batch.interfaces.filter fun change => !change.isDel).foldl
    (Arrivals.receive arbiter) { work := reduced }
  let linked := arrivals.inserted.foldl linkInserted (arrivals.work.followPorts batch.ports)
  have limits : limited.registry.columns? = work.registry.columns? :=
    List.foldlRecOn (motive := fun after => after.registry.columns? = work.registry.columns?)
      batch.subsystems (followSubsystem subsystem) rfl
      fun after same change _ => (columns?_followSubsystem after subsystem change).trans same
  have forgets : reduced.registry.columns? name = none ∨
      reduced.registry.columns? name = work.registry.columns? name := by
    refine List.foldlRecOn (motive := fun after => after.registry.columns? name = none ∨
      after.registry.columns? name = work.registry.columns? name)
      _ forget (Or.inr (congrFun limits name)) fun after less gone _ => ?_
    rcases columns?_forget after gone name with absent | same
    · exact Or.inl absent
    · rwa [same]
  have awaiting : Awaiting arrivals
      ((Change.rows batch.interfaces).foldl overlay reduced.registry.columns?) :=
    receiveAll_awaiting arbiter batch.interfaces ⟨nofun, rfl⟩
  have links : linked.registry.columns? = arrivals.work.registry.columns? :=
    (columns?_linkAll _ _).trans (columns?_followPorts _ _)
  have known : ∀ row ∈ arrivals.modified, linked.registry.hasInterface row.name = true := by
    intro row member
    rw [Registry.hasInterface_eq_columns?, links, ← Registry.hasInterface_eq_columns?]
    exact awaiting.known row member
  have revised : (work.absorb subsystem arbiter batch).registry.columns? =
      (Change.rows batch.interfaces).foldl overlay reduced.registry.columns? := by
    rw [← awaiting.columns, ← links]
    exact columns?_reviseAll arrivals.modified known
  rw [revised]
  exact overlayAll_of_erased _ forgets

end Work

namespace Manager

/-- The columns that a batch leaves to a name before it is settled: those of the last
row that it sets under that name, or else those registered before. -/
def baseline (manager : Manager) (batch : Batch) (name : String) : Option WrittenColumns :=
  (Change.rows batch.interfaces).foldl overlay manager.registry.columns? name

theorem baseline_of_absorbed {manager : Manager} {batch : Batch} {name : String}
    {previous : Interface}
    (found : (manager.absorb batch).registry.interface? name = some previous) :
    manager.baseline batch name = some previous.columns := by
  have shown : (manager.absorb batch).registry.columns? name = some previous.columns := by
    unfold Registry.columns?
    rw [found, Option.map_some]
  rcases Work.columns?_absorb { registry := manager.registry, maxMtu := manager.maxMtu }
    manager.config.system.subsystem manager.arbiter batch name with absent | same
  · exact absurd (shown.symm.trans absent) nofun
  · exact same.symm.trans shown

end Manager

end LinkReconciler
