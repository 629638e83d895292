import LinkReconciler.Proofs.Absorption

/-!
How the work keeps account of an interface: its transceiver is the one it should
use, and it is marked unless its operational state and columns are derived from
what is registered. A step keeps the account of an interface unless it changes
what the interface sees of its parent; then it has to reach the interface, which
it does along the children that the parent lists.
-/

namespace LinkReconciler

namespace Interface

/-- The operational state and the columns follow from the interface itself and the
lane split above it. -/
def Derived (interface : Interface) (parentSplit : Option LaneSplit) : Prop :=
  interface.oper = interface.derive parentSplit ∧
    interface.hwConfig = interface.hwColumns ∧
    interface.error = interface.errorColumn

instance (interface : Interface) (parentSplit : Option LaneSplit) :
    Decidable (interface.Derived parentSplit) :=
  inferInstanceAs (Decidable (_ ∧ _ ∧ _))

end Interface

namespace Registry

def lanes? (registry : Registry) (name : String) : Option (ModuleReport × LaneSplit) :=
  (registry.interface? name).map fun interface =>
    (interface.report, interface.user.laneSplit)

/-- If an interface names another that is registered, that one lists it; nothing is
asked of an interface that names itself. -/
def Listed (registry : Registry) (name : String) : Prop :=
  ∀ parent, registry.pointsTo parent name = true →
    registry.hasInterface parent = true →
    parent = name ∨ name ∈ registry.childrenOf parent

def Fitted (registry : Registry) (name : String) : Prop :=
  ∀ interface, registry.interface? name = some interface →
    interface.transceiver = registry.transceiverDue interface

/-- The interface of that name, if there is one, has the transceiver it should use
and is derived from what is registered. -/
def Current (registry : Registry) (name : String) : Prop :=
  ∀ interface, registry.interface? name = some interface →
    interface.transceiver = registry.transceiverDue interface ∧
      interface.Derived (registry.laneSplitAbove? name)

theorem transceiverDue_of_lanes (registry : Registry) (interface : Interface) :
    registry.transceiverDue interface =
      match interface.splitParent.bind registry.lanes? with
      | some seen => .ofLane seen.1
      | none => .ofCage interface.cage interface.report := by
  unfold transceiverDue parent? lanes?
  cases interface.splitParent with
  | none => rfl
  | some parent =>
      simp only [Option.bind_some]
      cases registry.interface? parent <;> rfl

theorem laneSplitAbove?_of_found {registry : Registry} {name : String}
    {interface : Interface} (found : registry.interface? name = some interface) :
    registry.laneSplitAbove? name =
      (interface.splitParent.bind registry.lanes?).map (·.2) := by
  unfold laneSplitAbove? parent? lanes?
  rw [found, Option.bind_some]
  cases interface.splitParent with
  | none => rfl
  | some parent =>
      simp only [Option.bind_some]
      cases registry.interface? parent <;> rfl

theorem pointsTo_iff {registry : Registry} {name : String} {interface : Interface}
    (found : registry.interface? name = some interface) (parent : String) :
    registry.pointsTo parent name = true ↔ interface.splitParent = some parent := by
  simp [pointsTo, found]

theorem pointsTo_of_recorded? {left right : Registry} {name : String}
    (same : left.recorded? name = right.recorded? name) (parent : String) :
    left.pointsTo parent name = right.pointsTo parent name := by
  rw [pointsTo_eq, pointsTo_eq, declared?_of_recorded? same]

theorem childrenOf_of_recorded? {left right : Registry} {name : String}
    (same : left.recorded? name = right.recorded? name) :
    left.childrenOf name = right.childrenOf name := by
  rw [childrenOf_eq, childrenOf_eq, declared?_of_recorded? same]

theorem exists_of_pointsTo {registry : Registry} {parent name : String}
    (points : registry.pointsTo parent name = true) :
    ∃ interface, registry.interface? name = some interface ∧
      interface.splitParent = some parent := by
  unfold pointsTo at points
  cases found : registry.interface? name with
  | none => simp [found] at points
  | some interface => exact ⟨interface, rfl, by simpa [found] using points⟩

theorem childrenOf_of_found {registry : Registry} {name : String}
    {interface : Interface} (found : registry.interface? name = some interface) :
    registry.childrenOf name = interface.splitChildren := by
  simp [childrenOf, found]

instance (registry : Registry) (name : String) : Decidable (registry.Listed name) :=
  decidable_of_iff
    (∀ parent ∈ ((registry.interface? name).bind (·.splitParent)).toList,
      registry.hasInterface parent = true →
      parent = name ∨ name ∈ registry.childrenOf parent) (by
    have points (parent : String) :
        parent ∈ ((registry.interface? name).bind (·.splitParent)).toList ↔
          registry.pointsTo parent name = true := by
      unfold pointsTo
      cases registry.interface? name <;> simp
    unfold Listed
    simp only [points])

instance (registry : Registry) (name : String) : Decidable (registry.Current name) :=
  decidable_of_iff
    (∀ interface ∈ (registry.interface? name).toList,
      interface.transceiver = registry.transceiverDue interface ∧
        interface.Derived (registry.laneSplitAbove? name)) (by
    unfold Current
    simp only [Option.mem_toList])

def links? (registry : Registry) (name : String) : Option (Option String × List String) :=
  (registry.interface? name).map fun interface =>
    (interface.splitParent, interface.splitChildren)

theorem links?_eq (registry : Registry) (name : String) :
    registry.links? name = (registry.declared? name).map fun interface =>
      (interface.splitParent, interface.splitChildren) := by
  unfold links? declared?
  rw [Option.map_map]
  rfl

theorem links?_of_declared? {left right : Registry} {name : String}
    (same : left.declared? name = right.declared? name) :
    left.links? name = right.links? name := by
  rw [links?_eq, links?_eq, same]

theorem listed_iff_links? (registry : Registry) (name : String) :
    registry.Listed name ↔
      ∀ parent parents children above, registry.links? name = some (some parent, children) →
        registry.links? parent = some (parents, above) → parent = name ∨ name ∈ above := by
  unfold links?
  constructor
  · intro listed parent parents children above own linked
    obtain ⟨interface, found, links⟩ := Option.map_eq_some_iff.mp own
    obtain ⟨upper, present, upperLinks⟩ := Option.map_eq_some_iff.mp linked
    cases upperLinks
    have lists := listed parent
      ((pointsTo_iff found parent).mpr (congrArg (·.1) links))
      ((hasInterface_iff registry parent).mpr ⟨upper, present⟩)
    rwa [childrenOf_of_found present] at lists
  · intro listed parent points registered
    obtain ⟨interface, found, names⟩ := exists_of_pointsTo points
    obtain ⟨upper, present⟩ := (hasInterface_iff registry parent).mp registered
    rw [childrenOf_of_found present]
    refine listed parent upper.splitParent interface.splitChildren _ ?_ ?_
    · rw [found, ← names]
      rfl
    · rw [present]
      rfl

theorem Listed.transfer {before after : Registry} {name : String}
    (listed : before.Listed name) (own : after.links? name = before.links? name)
    (others : ∀ parent links, after.links? parent = some links →
      before.links? parent = some links) : after.Listed name := by
  rw [listed_iff_links?] at listed ⊢
  intro parent parents children above named linked
  exact listed parent parents children above (own ▸ named) (others parent _ linked)

def Linked (registry : Registry) : Prop :=
  ∀ name parent, registry.pointsTo parent name = true →
    registry.hasInterface parent = true → name ∈ registry.childrenOf parent

theorem Linked.listed {registry : Registry} (linked : registry.Linked)
    (name : String) : registry.Listed name :=
  fun parent points registered => Or.inr (linked name parent points registered)

theorem listed_of_links? {left right : Registry} (links : right.links? = left.links?)
    {name : String} (listed : left.Listed name) : right.Listed name :=
  listed.transfer (congrFun links name)
    fun parent _ found => (congrFun links parent).symm.trans found

theorem listed_of_declared? {left right : Registry}
    (declared : right.declared? = left.declared?) {name : String}
    (listed : left.Listed name) : right.Listed name :=
  listed_of_links? (funext fun other => links?_of_declared? (congrFun declared other)) listed

instance (registry : Registry) : Decidable registry.Linked :=
  decidable_of_iff
    (∀ name ∈ registry.interfaces.keys,
      ∀ parent ∈ ((registry.interface? name).bind (·.splitParent)).toList,
        registry.hasInterface parent = true → name ∈ registry.childrenOf parent) (by
    constructor
    · intro linked name parent points
      obtain ⟨interface, found, named⟩ := exists_of_pointsTo points
      apply linked name
      · rw [Dict.mem_keys_iff, Dict.contains_iff]
        exact ⟨interface, found⟩
      · rw [found]
        exact Option.mem_toList.mpr named
    · intro linked name _ parent member
      apply linked name parent
      obtain ⟨interface, found, named⟩ := Option.bind_eq_some_iff.mp (Option.mem_toList.mp member)
      exact (pointsTo_iff found parent).mpr named)

end Registry

namespace Work

/-- The work answers for an interface: its transceiver is the one it should use,
and it is marked or derived. -/
def Accounted (work : Work) (name : String) : Prop :=
  ∀ interface, work.registry.interface? name = some interface →
    interface.transceiver = work.registry.transceiverDue interface ∧
      (work.dirty.contains name = true ∨
        interface.Derived (work.registry.laneSplitAbove? name))

theorem accounted_of_current {work : Work} {name : String}
    (current : work.registry.Current name) : work.Accounted name :=
  fun interface found => (current interface found).imp_right Or.inr

theorem accounted_of_absent {work : Work} {name : String}
    (absent : work.registry.interface? name = none) : work.Accounted name := by
  intro interface found
  rw [absent] at found
  cases found

/-- A step that leaves alone what an interface is and what it sees of its parent
keeps its account, if it marks the interface whenever it changes it. -/
theorem Accounted.transfer {before after : Work} {name : String}
    (accounted : before.Accounted name)
    (step : ∀ interface, after.registry.interface? name = some interface →
      ∃ previous, before.registry.interface? name = some previous ∧
        interface.transceiver = previous.transceiver ∧
        interface.cage = previous.cage ∧ interface.report = previous.report ∧
        interface.splitParent = previous.splitParent ∧
        (interface = previous ∨ after.dirty.contains name = true) ∧
        ∀ parent, previous.splitParent = some parent →
          after.registry.lanes? parent = before.registry.lanes? parent)
    (kept : before.dirty.contains name = true → after.dirty.contains name = true) :
    after.Accounted name := by
  intro interface found
  obtain ⟨previous, was, transceiver, cage, report, splitParent, derived, sees⟩ :=
    step interface found
  obtain ⟨due, state⟩ := accounted previous was
  -- Both the transceiver due and the lane split above are read through this view.
  have view : interface.splitParent.bind after.registry.lanes? =
      previous.splitParent.bind before.registry.lanes? := by
    rw [splitParent]
    cases named : previous.splitParent with
    | none => rfl
    | some parent => exact sees parent named
  constructor
  · rw [transceiver, due, Registry.transceiverDue_of_lanes,
      Registry.transceiverDue_of_lanes, view, cage, report]
  · rcases derived with same | marked
    · subst same
      rcases state with marked | derived
      · exact Or.inl (kept marked)
      · right
        rw [Registry.laneSplitAbove?_of_found found, view,
          ← Registry.laneSplitAbove?_of_found was]
        exact derived
    · exact Or.inl marked

theorem Touched.fitted {before after : Work} {renewed marked : List String}
    (touched : Touched before after renewed marked) {name : String}
    (reached : name ∈ renewed ∨ before.registry.Fitted name) :
    after.registry.Fitted name := by
  intro interface found
  rw [Registry.transceiverDue_congr touched.declared?]
  rw [touched.interface?] at found
  by_cases isRenewed : name ∈ renewed
  · rw [if_pos isRenewed] at found
    obtain ⟨previous, _, rfl⟩ := Option.map_eq_some_iff.mp found
    rfl
  · rw [if_neg isRenewed] at found
    exact (reached.resolve_left isRenewed) interface found

theorem Touched.accounted {before after : Work} {renewed marked : List String}
    (touched : Touched before after renewed marked) {name : String}
    (reached : (name ∈ marked ∧ (name ∈ renewed ∨ before.registry.Fitted name)) ∨
      before.Accounted name) : after.Accounted name := by
  rcases reached with ⟨isMarked, fits⟩ | accounted
  · intro interface found
    exact ⟨touched.fitted fits interface found,
      Or.inl ((touched.dirty name).mpr (Or.inl isMarked))⟩
  · have fitted : before.registry.Fitted name :=
      fun interface found => (accounted interface found).1
    -- Renewing an interface that is fitted changes nothing.
    have unchanged : after.registry.interface? name = before.registry.interface? name := by
      rw [touched.interface?]
      split
      · cases was : before.registry.interface? name with
        | none => rfl
        | some previous =>
            unfold Registry.renewed
            rw [Option.map_some, ← fitted previous was]
      · rfl
    intro interface found
    refine ⟨touched.fitted (Or.inr fitted) interface found, ?_⟩
    rw [Registry.laneSplitAbove?_congr touched.declared?]
    exact (accounted interface (unchanged ▸ found)).2.imp_left
      fun isMarked => (touched.dirty name).mpr (Or.inr isMarked)

/-! ## The size limit -/

theorem laneSplit_reread {registry : Registry} {maxMtu : UInt32}
    (read : registry.ReadUnder maxMtu) {name : String} {interface : Interface}
    (found : registry.interface? name = some interface) (limit : UInt32) :
    (reread limit interface).user.laneSplit = interface.user.laneSplit := by
  rw [(read name interface found).2]
  rfl

theorem links?_followSubsystem {work : Work}
    (read : work.registry.ReadUnder work.maxMtu) (subsystem : String)
    (change : Change SubsystemRow) (name : String) :
    (work.followSubsystem subsystem change).registry.links? name =
      work.registry.links? name := by
  unfold Registry.links?
  rw [(followSubsystem_rereads read subsystem change).interface?, Option.map_map]
  rfl

theorem followSubsystem_accounted {work : Work}
    (read : work.registry.ReadUnder work.maxMtu) (subsystem : String)
    (change : Change SubsystemRow) {name : String} (accounted : work.Accounted name) :
    (work.followSubsystem subsystem change).Accounted name := by
  have rereads := followSubsystem_rereads read subsystem change
  refine accounted.transfer (fun interface found => ?_) (rereads.kept name)
  rw [rereads.interface?] at found
  obtain ⟨previous, was, rfl⟩ := Option.map_eq_some_iff.mp found
  refine ⟨previous, was, rfl, rfl, rfl, rfl, ?_, fun parent _ => ?_⟩
  · by_cases same :
        (reread (work.followSubsystem subsystem change).maxMtu previous).user = previous.user
    · left
      unfold reread at same ⊢
      rw [show userUnder _ previous = previous.user from same]
    · exact Or.inr (rereads.marks name previous was same)
  -- A child sees a module and a lane split, and neither depends on the limit.
  · unfold Registry.lanes?
    rw [rereads.interface?]
    cases seen : work.registry.interface? parent with
    | none => rfl
    | some above =>
        rw [Option.map_some, Option.map_some, Option.map_some,
          laneSplit_reread read seen]
        rfl

/-! ## Deletions -/

theorem links?_forget (work : Work) (gone name : String) :
    (work.forget gone).registry.links? name =
      if gone = name then none else work.registry.links? name := by
  by_cases hit : gone = name
  · have absent := recorded?_forget work gone name
    rw [if_pos hit] at absent ⊢
    unfold Registry.links?
    rw [Option.map_eq_none_iff.mp absent]
    rfl
  · have kept := recorded?_forget work gone name
    rw [if_neg hit] at kept ⊢
    exact Registry.links?_of_declared? (Registry.declared?_of_recorded? kept)

theorem forget_listed {work : Work} {name : String} (listed : work.registry.Listed name)
    (gone : String) : (work.forget gone).registry.Listed name := by
  by_cases hit : gone = name
  · rw [Registry.listed_iff_links?]
    intro parent parents children above own
    rw [links?_forget, if_pos hit] at own
    cases own
  · refine listed.transfer ?_ ?_
    · rw [links?_forget, if_neg hit]
    · intro parent links linked
      rw [links?_forget] at linked
      split at linked
      · cases linked
      · exact linked

theorem forget_accounted {work : Work} {name : String} (accounted : work.Accounted name)
    (listed : work.registry.Listed name) (gone : String) :
    (work.forget gone).Accounted name := by
  cases found : work.registry.interface? gone with
  | none => rwa [forget_unknown found]
  | some above =>
      have touched := forget_touched found
      by_cases hit : gone = name
      · refine accounted_of_absent ?_
        have absent := recorded?_forget work gone name
        rw [if_pos hit] at absent
        exact Option.map_eq_none_iff.mp absent
      have kept : (work.without gone).registry.interface? name =
          work.registry.interface? name := by
        unfold without
        rw [Registry.interface?_removeInterface, if_neg hit]
      refine touched.accounted ?_
      -- The children of the forgotten interface are orphans, which are renewed and marked;
      -- the others see nothing of it.
      by_cases points : work.registry.pointsTo gone name = true
      · left
        have lists := listed gone points ((Registry.hasInterface_iff _ _).mpr ⟨above, found⟩)
        rw [Registry.childrenOf_of_found found] at lists
        obtain ⟨interface, present, _⟩ := Registry.exists_of_pointsTo points
        have orphan : name ∈ above.splitChildren.filter
            (work.registry.removeInterface gone).hasInterface := by
          refine List.mem_filter.mpr ⟨lists.resolve_left hit, ?_⟩
          exact (Registry.hasInterface_iff _ _).mpr ⟨interface, kept.trans present⟩
        exact ⟨orphan, Or.inl orphan⟩
      · right
        refine accounted.transfer (fun interface present => ?_) ?_
        · rw [kept] at present
          refine ⟨interface, present, rfl, rfl, rfl, rfl, Or.inl rfl, fun parent named => ?_⟩
          have other : gone ≠ parent := by
            rintro rfl
            exact points ((Registry.pointsTo_iff present gone).mpr named)
          unfold Registry.lanes? without
          rw [Registry.interface?_removeInterface, if_neg other]
        · intro marked
          unfold without
          rw [NameSet.contains_erase, marked]
          simp [hit]

theorem forgetAll_accounted {work : Work} {name : String}
    (accounted : work.Accounted name) (listed : work.registry.Listed name)
    (names : List String) : (names.foldl forget work).Accounted name := by
  induction names generalizing work with
  | nil => exact accounted
  | cons gone rest ih =>
      exact ih (forget_accounted accounted listed gone) (forget_listed listed gone)

/-! ## Changed rows -/

theorem revise_own_accounted {work : Work} {row : InterfaceRow}
    (registered : work.registry.hasInterface row.name = true) :
    (work.revise row).Accounted row.name := by
  obtain ⟨before, found⟩ := (Registry.hasInterface_iff _ _).mp registered
  obtain ⟨renewed, marked, revised⟩ := revise_revised found
  exact revised.touched.accounted
    (Or.inl ⟨revised.marks row.name revised.own, Or.inl revised.own⟩)

theorem revise_other_accounted {work : Work} {row : InterfaceRow} {name : String}
    (accounted : work.Accounted name) (differs : name ≠ row.name)
    (lists : work.registry.pointsTo row.name name = true → name ∈ row.splitChildren) :
    (work.revise row).Accounted name := by
  cases found : work.registry.interface? row.name with
  | none => rwa [revise_unknown found]
  | some before =>
      obtain ⟨renewed, marked, revised⟩ := revise_revised found
      have kept := interface?_overwritten_ne work before differs
      have replaced := interface?_overwritten_self found
      refine revised.touched.accounted ?_
      -- Either the interface sees the change and is reached, or there is nothing to see:
      -- it names another parent, or this one kept its module and lane split.
      by_cases seen : work.registry.pointsTo row.name name = true ∧
          rewires before (before.update row work.maxMtu) = true
      · left
        obtain ⟨points, rewired⟩ := seen
        obtain ⟨interface, present, _⟩ := Registry.exists_of_pointsTo points
        have reached : name ∈ renewed := by
          refine revised.reaches rewired name ?_
          rw [Registry.knownChildren_of_found replaced]
          refine List.mem_filter.mpr ⟨lists points, ?_⟩
          exact (Registry.hasInterface_iff _ _).mpr ⟨interface, kept.trans present⟩
        exact ⟨revised.marks name reached, Or.inl reached⟩
      · right
        refine accounted.transfer (fun interface present => ?_) id
        rw [kept] at present
        refine ⟨interface, present, rfl, rfl, rfl, rfl, Or.inl rfl, fun parent named => ?_⟩
        unfold Registry.lanes?
        by_cases own : parent = row.name
        · subst own
          have points := (Registry.pointsTo_iff present row.name).mpr named
          have same : before.report = (before.update row work.maxMtu).report ∧
              before.user.laneSplit = (before.update row work.maxMtu).user.laneSplit := by
            simpa [rewires, points] using seen
          rw [replaced, found, Option.map_some, Option.map_some, ← same.1, ← same.2]
        · rw [interface?_overwritten_ne work before own]

/-- After all revisions an interface is accounted for if it was revised itself or
accounted for before, and the revised parents that it names at the end list it. -/
theorem reviseAll_accounted {revised : List InterfaceRow} {work : Work} {name : String}
    (registered : ∀ row ∈ revised, work.registry.hasInterface row.name = true)
    (lists : ∀ row ∈ revised,
      (revised.foldl revise work).registry.pointsTo row.name name = true →
      row.name = name ∨ name ∈ row.splitChildren)
    (start : name ∈ revised.map (·.name) ∨ work.Accounted name) :
    (revised.foldl revise work).Accounted name := by
  induction revised generalizing work with
  | nil => exact start.resolve_left List.not_mem_nil
  | cons row rest ih =>
      have later (other : InterfaceRow) (member : other ∈ rest) :
          (work.revise row).registry.hasInterface other.name = true := by
        rw [Absorption.hasInterface_revise]
        exact registered other (List.mem_cons_of_mem _ member)
      refine ih later (fun other member => lists other (List.mem_cons_of_mem _ member)) ?_
      -- A later revision of the interface settles its account whatever it was before.
      by_cases again : name ∈ rest.map (·.name)
      · exact Or.inl again
      right
      by_cases own : name = row.name
      · subst own
        exact revise_own_accounted (registered row List.mem_cons_self)
      · have accounted := start.resolve_left
          (fun member => (List.mem_cons.mp member).elim own again)
        refine revise_other_accounted accounted own fun points => ?_
        have unrevised : name ∉ (row :: rest).map (·.name) :=
          fun member => (List.mem_cons.mp member).elim own again
        have unchanged := Registry.pointsTo_of_recorded?
          (recorded?_reviseAll_ne (row :: rest) work unrevised) row.name
        exact (lists row List.mem_cons_self (unchanged.trans points)).resolve_left
          (Ne.symm own)

/-! ## Ports -/

theorem Inherited.accounted {before after : Work} {concerned : List String}
    (inherited : Inherited before after concerned) {name : String}
    (accounted : before.Accounted name) : after.Accounted name := by
  refine accounted.transfer (fun interface found => ?_)
    fun marked => (inherited.dirty name).mpr (Or.inr marked)
  have sees (parent : String) :
      after.registry.lanes? parent = before.registry.lanes? parent := by
    unfold Registry.lanes?
    rw [inherited.interface?]
    split
    · rw [Option.map_map]
      rfl
    · rfl
  rw [inherited.interface?] at found
  by_cases isConcerned : name ∈ concerned
  · rw [if_pos isConcerned] at found
    obtain ⟨previous, was, rfl⟩ := Option.map_eq_some_iff.mp found
    have marked := (inherited.dirty name).mpr
      (Or.inl ⟨isConcerned, (Registry.hasInterface_iff _ _).mpr ⟨previous, was⟩⟩)
    exact ⟨previous, was, rfl, rfl, rfl, rfl, Or.inr marked, fun parent _ => sees parent⟩
  · rw [if_neg isConcerned] at found
    exact ⟨interface, found, rfl, rfl, rfl, rfl, Or.inl rfl, fun parent _ => sees parent⟩

end Work

end LinkReconciler
