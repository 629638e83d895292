import LinkReconciler.Proofs.DerivedState
import LinkReconciler.Proofs.SplitPair

/-!
No two interfaces drive the same lanes. A splittable interface that hands its lanes
to its children is out of service, and so is a child whose parent keeps them. Both
sides of a pair are derived from the same lane split, whatever the links were before.
-/

namespace LinkReconciler

namespace Interface

/-! ## Who has the lanes -/

theorem enabled_derive (interface : Interface) (parentSplit : Option LaneSplit) :
    (interface.derive parentSplit).enabled = true ↔
      interface.disableReason parentSplit interface.linkState = .ok := by
  have idle : interface.linkState.enabled = false := by
    unfold linkState
    split
    · rfl
    · dsimp only
      split <;> rfl
  unfold derive
  dsimp only
  split
  next ok => simp [ok]
  next out => simp [out, idle]

theorem physicalReason_of_handed_over {interface : Interface}
    (children : interface.isSplitParent = true)
    (split : interface.user.laneSplit = .split) (parentSplit : Option LaneSplit)
    (link : OperState) :
    interface.physicalReason parentSplit link = .lanesSplit := by
  simp [physicalReason, children, split]

theorem physicalReason_of_withheld (interface : Interface) (link : OperState) :
    interface.physicalReason (some .noSplit) link = .lanesSplit ∨
      interface.physicalReason (some .noSplit) link = .lanesNotSplit := by
  unfold physicalReason
  split
  · exact Or.inl rfl
  · exact Or.inr (if_pos rfl)

theorem disableReason_of_system {interface : Interface} (system : interface.kind = .system)
    (parentSplit : Option LaneSplit) (link : OperState) :
    interface.disableReason parentSplit link =
      interface.physicalReason parentSplit link := by
  simp [disableReason, system, InterfaceKind.isLogical]

/-- A parent and a child under the parent's lane split are not both in service,
whatever split the parent itself is under. -/
theorem derive_excludes {upper lower : Interface} (systemParent : upper.kind = .system)
    (systemChild : lower.kind = .system) (children : upper.isSplitParent = true)
    (above : Option LaneSplit) :
    ¬ ((upper.derive above).enabled = true ∧
      (lower.derive (some upper.user.laneSplit)).enabled = true) := by
  rintro ⟨upperServes, lowerServes⟩
  rw [enabled_derive, disableReason_of_system systemParent] at upperServes
  rw [enabled_derive, disableReason_of_system systemChild] at lowerServes
  cases chosen : upper.user.laneSplit with
  | split =>
      rw [physicalReason_of_handed_over children chosen] at upperServes
      cases upperServes
  | noSplit =>
      rw [chosen] at lowerServes
      rcases lower.physicalReason_of_withheld lower.linkState with withheld | withheld <;>
        · rw [withheld] at lowerServes
          cases lowerServes

theorem hwColumns_enable (interface : Interface) :
    interface.hwColumns.get? "enable" = some (flagText interface.oper.enabled) := by
  unfold hwColumns Dict.ofList
  rw [List.foldl_cons, Dict.get?_foldl_insert_of_not_mem, Dict.get?_insert_self]
  split
  · simp only [linkColumns]
    split <;> (try split) <;> split <;> simp
  · simp

theorem enabled_of_hwConfig {interface : Interface} {parentSplit : Option LaneSplit}
    (derived : interface.Derived parentSplit)
    (on : interface.hwConfig.get? "enable" = some "true") :
    interface.oper.enabled = true := by
  rw [derived.2.1, hwColumns_enable, Option.some.injEq] at on
  cases enabled : interface.oper.enabled with
  | true => rfl
  | false =>
      rw [enabled] at on
      exact absurd on (by decide)

end Interface

/-- Every interface is derived under some lane split, and every child of a pair is
current. -/
structure Registry.LanesKept (registry : Registry) : Prop where
  derived : ∀ name interface, registry.interface? name = some interface →
    ∃ parentSplit, interface.Derived parentSplit
  current : ∀ parent child, registry.Paired parent child → registry.Current child

namespace Registry.LanesKept

variable {registry : Registry} (kept : registry.LanesKept) {parent child : String}
  (paired : registry.Paired parent child) {upper lower : Interface}
  (parentFound : registry.interface? parent = some upper)
  (childFound : registry.interface? child = some lower)
include kept paired parentFound childFound

theorem child_sees :
    lower.transceiver = .ofLane upper.report ∧
      lower.Derived (some upper.user.laneSplit) := by
  obtain ⟨due, derived⟩ := kept.current parent child paired lower childFound
  have named := (pointsTo_iff childFound parent).mp paired.points
  have above : registry.parent? lower = some upper := by
    unfold parent?
    rw [named]
    exact parentFound
  unfold transceiverDue at due
  unfold laneSplitAbove? at derived
  rw [above] at due
  rw [childFound, Option.bind_some, above] at derived
  exact ⟨due, derived⟩

theorem not_both_enabled (systemParent : upper.kind = .system)
    (systemChild : lower.kind = .system) :
    ¬ (upper.oper.enabled = true ∧ lower.oper.enabled = true) := by
  obtain ⟨above, upperDerived⟩ := kept.derived parent upper parentFound
  obtain ⟨_, lowerDerived⟩ := kept.child_sees paired parentFound childFound
  have children : upper.isSplitParent = true := by
    have lists := paired.lists
    rw [childrenOf_of_found parentFound] at lists
    simpa [Interface.isSplitParent] using List.ne_nil_of_mem lists
  rw [upperDerived.1, lowerDerived.1]
  exact Interface.derive_excludes systemParent systemChild children above

theorem not_both_driven (systemParent : upper.kind = .system)
    (systemChild : lower.kind = .system) :
    ¬ (upper.hwConfig.get? "enable" = some "true" ∧
      lower.hwConfig.get? "enable" = some "true") := by
  rintro ⟨upperOn, lowerOn⟩
  obtain ⟨above, upperDerived⟩ := kept.derived parent upper parentFound
  obtain ⟨_, lowerDerived⟩ := kept.child_sees paired parentFound childFound
  exact kept.not_both_enabled paired parentFound childFound systemParent systemChild
    ⟨Interface.enabled_of_hwConfig upperDerived upperOn,
      Interface.enabled_of_hwConfig lowerDerived lowerOn⟩

end Registry.LanesKept

namespace Work

theorem guarded_of_lanesKept {work : Work} (kept : work.registry.LanesKept) :
    work.Guarded [] where
  retained name _ interface found := Or.inr (kept.derived name interface found)
  paired parent child paired _ _ := accounted_of_current (kept.current parent child paired)

theorem settle_lanesKept {arbiter : Arbiter} {work : Work} (guarded : work.Guarded []) :
    (work.settle arbiter ∅).registry.LanesKept := by
  constructor
  · intro name interface found
    rw [interface?_settle] at found
    obtain ⟨previous, was, rfl⟩ := Option.map_eq_some_iff.mp found
    unfold settled refreshed
    by_cases marked : work.dirty.contains name = true
    · rw [if_pos marked]
      exact ⟨work.registry.laneSplitAbove? name, rfl, rfl, rfl⟩
    · rw [if_neg marked]
      obtain ⟨parentSplit, oper, hwConfig, error⟩ :=
        (guarded.retained name List.not_mem_nil previous was).resolve_left marked
      exact ⟨parentSplit, oper, hwConfig, error⟩
  · intro parent child paired
    have before := paired.congr (declared?_settle arbiter work)
    exact settle_current (guarded.paired parent child before List.not_mem_nil List.not_mem_nil)

end Work

namespace Manager

/-! ## Over whole runs -/

theorem reconcile_lanesKept {manager : Manager} {image : Dict InterfaceRow}
    {ports : Dict PortRow} (tracks : manager.Tracks image ports) {batch : Batch}
    (wellFormed : batch.WellFormed) (kept : manager.registry.LanesKept) :
    (manager.reconcile batch ∅).1.registry.LanesKept := by
  rw [reconcile_eq manager wellFormed]
  exact Work.settle_lanesKept (Absorption.result_guarded tracks.records tracks.keyed
    wellFormed.interfaces (Work.guarded_of_lanesKept kept))

theorem ofConfig_lanesKept (config : Config) : (ofConfig config).registry.LanesKept where
  derived _ _ absent := nomatch absent
  current _ _ _ _ absent := nomatch absent

theorem absorbed_lanesKept {manager : Manager} {batches : List Batch}
    (wellFormed : ∀ batch ∈ batches, batch.WellFormed)
    {image : Dict InterfaceRow} {ports : Dict PortRow}
    (tracks : manager.Tracks image ports) (kept : manager.registry.LanesKept) :
    (manager.absorbed batches).registry.LanesKept := by
  induction batches generalizing manager image ports with
  | nil => exact kept
  | cons batch rest ih =>
      obtain ⟨head, tail⟩ := List.forall_mem_cons.mp wellFormed
      exact ih tail (reconcile_tracks tracks head) (reconcile_lanesKept tracks head kept)

/-- Over batches on a new manager a physical parent and a physical child that are
linked both ways are never both in service, neither in the operational state nor in
the hardware configuration, and the child sees the parent's module. -/
theorem lanes_driven_once (config : Config) (batches : List Batch)
    (wellFormed : ∀ batch ∈ batches, batch.WellFormed) {parent child : String}
    (differs : parent ≠ child) {upper lower : Interface}
    (parentFound : ((ofConfig config).absorbed batches).registry.interface? parent =
      some upper)
    (childFound : ((ofConfig config).absorbed batches).registry.interface? child =
      some lower)
    (systemParent : upper.kind = .system) (systemChild : lower.kind = .system)
    (names : lower.splitParent = some parent) (lists : child ∈ upper.splitChildren) :
    ¬ (upper.oper.enabled = true ∧ lower.oper.enabled = true) ∧
      ¬ (upper.hwConfig.get? "enable" = some "true" ∧
        lower.hwConfig.get? "enable" = some "true") ∧
      lower.transceiver = .ofLane upper.report := by
  have kept := absorbed_lanesKept wellFormed (ofConfig_tracks config)
    (ofConfig_lanesKept config)
  have paired : ((ofConfig config).absorbed batches).registry.Paired parent child := by
    refine ⟨differs, (Registry.pointsTo_iff childFound parent).mpr names, ?_⟩
    rw [Registry.childrenOf_of_found parentFound]
    exact lists
  exact ⟨kept.not_both_enabled paired parentFound childFound systemParent systemChild,
    kept.not_both_driven paired parentFound childFound systemParent systemChild,
    (kept.child_sees paired parentFound childFound).1⟩

def splittable (laneSplit : String) : InterfaceRow where
  name := "49"
  hwInfo := .ofList [("pluggable", "true"), ("connector", "QSFP28"), ("speeds", "100000"),
    ("max_speed", "100000"), ("split_4", "true")]
  moduleInfo := .ofList [("connector", "QSFP28_SR4"), ("connector_status", "supported")]
  userConfig := .ofList [("admin", "up"), ("lane_split", laneSplit)]
  splitChildren := ["49-1"]

def lane : InterfaceRow where
  name := "49-1"
  hwInfo := .ofList [("pluggable", "true"), ("connector", "QSFP28"), ("speeds", "25000"),
    ("max_speed", "25000")]
  userConfig := .ofList [("admin", "up")]
  splitParent := some "49"

def lanePort : PortRow where
  name := "p"
  admin := some "up"
  interfaces := ["49", "49-1"]

/-- The lanes are handed over while the child is missing. -/
def handover : List Batch :=
  [{ interfaces := [.ofRow (splittable "no-split")], ports := [.ofRow lanePort] },
    { interfaces := [.ofRow (splittable "split")] },
    { interfaces := [.ofRow lane] }]

theorem handover_driven_once :
    let registry := ((ofConfig {}).absorbed handover).registry
    (∀ batch ∈ handover, batch.WellFormed) ∧
      ∃ upper lower, registry.interface? "49" = some upper ∧
        registry.interface? "49-1" = some lower ∧
        upper.oper.enabled = false ∧ lower.oper.enabled = true ∧
        ¬ (upper.hwConfig.get? "enable" = some "true" ∧
          lower.hwConfig.get? "enable" = some "true") ∧
        lower.transceiver = .ofLane upper.report := by
  intro registry
  have wellFormed : ∀ batch ∈ handover, batch.WellFormed := by
    intro batch member
    simp only [handover, List.mem_cons, List.not_mem_nil, or_false] at member
    rcases member with rfl | rfl | rfl
    · exact ⟨.nil, .put _, .put _⟩
    · exact ⟨.nil, .put _, .nil⟩
    · exact ⟨.nil, .put _, .nil⟩
  obtain ⟨upper, parentFound⟩ : ∃ upper, registry.interface? "49" = some upper :=
    Option.isSome_iff_exists.mp (by decide +kernel)
  obtain ⟨lower, childFound⟩ : ∃ lower, registry.interface? "49-1" = some lower :=
    Option.isSome_iff_exists.mp (by decide +kernel)
  have shows {α : Type} (field : Interface → α) (name : String) (interface : Interface)
      (found : registry.interface? name = some interface) :
      some (field interface) = (registry.interface? name).map field := by
    rw [found]
    rfl
  have upperShows {α : Type} (field : Interface → α) := shows field "49" upper parentFound
  have lowerShows {α : Type} (field : Interface → α) := shows field "49-1" lower childFound
  obtain ⟨alone, driven, seen⟩ := lanes_driven_once {} handover wellFormed (by decide)
    parentFound childFound
    (Option.some.inj ((upperShows (·.kind)).trans (by decide +kernel)))
    (Option.some.inj ((lowerShows (·.kind)).trans (by decide +kernel)))
    (Option.some.inj ((lowerShows (·.splitParent)).trans (by decide +kernel)))
    (by
      have lists := (upperShows (·.splitChildren)).trans
        (show _ = some ["49-1"] by decide +kernel)
      exact Option.some.inj lists ▸ List.mem_singleton_self _)
  have serves : lower.oper.enabled = true :=
    Option.some.inj ((lowerShows (·.oper.enabled)).trans (by decide +kernel))
  refine ⟨wellFormed, upper, lower, parentFound, childFound, ?_, serves, driven, seen⟩
  exact Bool.eq_false_iff.mpr fun upperServes => alone ⟨upperServes, serves⟩

end Manager

end LinkReconciler
