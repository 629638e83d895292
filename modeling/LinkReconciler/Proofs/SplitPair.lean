import LinkReconciler.Proofs.AbsorbedLinks

/-!
Pairs of a parent and a child that are linked both ways. Nothing is assumed of the
links of other interfaces, nor of how these two came to be linked: every step that
completes a pair, or changes what the child sees across it, reaches the child.
While new interfaces wait for their links, pairs that include one of them are left
out.
-/

namespace LinkReconciler

namespace Registry

structure Paired (registry : Registry) (parent child : String) : Prop where
  differs : parent ≠ child
  points : registry.pointsTo parent child = true
  lists : child ∈ registry.childrenOf parent

theorem paired_iff_links? (registry : Registry) (parent child : String) :
    registry.Paired parent child ↔ parent ≠ child ∧
      (∃ children, registry.links? child = some (some parent, children)) ∧
      ∃ above children, registry.links? parent = some (above, children) ∧
        child ∈ children := by
  unfold links?
  constructor
  · rintro ⟨differs, points, lists⟩
    obtain ⟨lower, found, named⟩ := exists_of_pointsTo points
    refine ⟨differs, ⟨lower.splitChildren, by rw [found, ← named]; rfl⟩, ?_⟩
    cases present : registry.interface? parent with
    | none => simp [childrenOf, present] at lists
    | some upper =>
        rw [childrenOf_of_found present] at lists
        exact ⟨upper.splitParent, upper.splitChildren, rfl, lists⟩
  · rintro ⟨differs, ⟨children, own⟩, above, listed, upperLinks, member⟩
    obtain ⟨lower, found, links⟩ := Option.map_eq_some_iff.mp own
    obtain ⟨upper, present, same⟩ := Option.map_eq_some_iff.mp upperLinks
    cases same
    refine ⟨differs, (pointsTo_iff found parent).mpr (congrArg (·.1) links), ?_⟩
    rw [childrenOf_of_found present]
    exact member

namespace Paired

variable {registry before after : Registry} {parent child : String}

theorem listed (paired : registry.Paired parent child) : registry.Listed child := by
  intro other points _
  obtain ⟨lower, found, named⟩ := exists_of_pointsTo paired.points
  have same : some parent = some other :=
    named.symm.trans ((pointsTo_iff found other).mp points)
  exact Or.inr (Option.some.inj same ▸ paired.lists)

theorem linked (paired : registry.Paired parent child) :
    child ∈ registry.linkedChildren parent :=
  List.mem_filter.mpr ⟨paired.lists, paired.points⟩

theorem transfer (paired : after.Paired parent child)
    (upper : after.links? parent = before.links? parent)
    (lower : after.links? child = before.links? child) : before.Paired parent child := by
  rw [paired_iff_links?] at paired ⊢
  rwa [upper, lower] at paired

theorem congr (same : after.declared? = before.declared?)
    (paired : after.Paired parent child) : before.Paired parent child :=
  paired.transfer (links?_of_declared? (congrFun same parent))
    (links?_of_declared? (congrFun same child))

end Paired

end Registry

namespace Work

/-- The interface of that name, if there is one, is marked or derived under some
lane split, whichever that was. -/
def Retained (work : Work) (name : String) : Prop :=
  ∀ interface, work.registry.interface? name = some interface →
    work.dirty.contains name = true ∨ ∃ parentSplit, interface.Derived parentSplit

/-- The work answers for the lanes: every interface is retained, and the child of
every pair is accounted for. Names that still wait for their links are left out. -/
structure Guarded (work : Work) (awaiting : List String) : Prop where
  retained : ∀ name, name ∉ awaiting → work.Retained name
  paired : ∀ parent child, work.registry.Paired parent child →
    parent ∉ awaiting → child ∉ awaiting → work.Accounted child

theorem retained_of_marked {work : Work} {name : String}
    (marked : work.dirty.contains name = true) : work.Retained name :=
  fun _ _ => Or.inl marked

theorem Retained.transfer {before after : Work} {name : String}
    (retained : before.Retained name)
    (step : ∀ interface, after.registry.interface? name = some interface →
      before.registry.interface? name = some interface ∨
        after.dirty.contains name = true)
    (kept : before.dirty.contains name = true → after.dirty.contains name = true) :
    after.Retained name := by
  intro interface found
  rcases step interface found with was | marked
  · exact (retained interface was).imp_left kept
  · exact Or.inl marked

theorem Touched.retained {before after : Work} {renewed marked : List String}
    (touched : Touched before after renewed marked)
    (marks : ∀ name ∈ renewed, name ∈ marked) {name : String}
    (retained : before.Retained name) : after.Retained name := by
  refine retained.transfer (fun interface found => ?_)
    fun isMarked => (touched.dirty name).mpr (Or.inr isMarked)
  by_cases isRenewed : name ∈ renewed
  · exact Or.inr ((touched.dirty name).mpr (Or.inl (marks name isRenewed)))
  · rw [touched.interface?, if_neg isRenewed] at found
    exact Or.inl found

/-! ## The size limit and the deletions -/

theorem followSubsystem_retained {work : Work} {name : String}
    (read : work.registry.ReadUnder work.maxMtu) (retained : work.Retained name)
    (subsystem : String) (change : Change SubsystemRow) :
    (work.followSubsystem subsystem change).Retained name := by
  have rereads := followSubsystem_rereads read subsystem change
  refine retained.transfer (fun interface found => ?_) (rereads.kept name)
  rw [rereads.interface?] at found
  obtain ⟨previous, was, rfl⟩ := Option.map_eq_some_iff.mp found
  by_cases same :
      (reread (work.followSubsystem subsystem change).maxMtu previous).user = previous.user
  · left
    unfold reread at same ⊢
    rw [was, show userUnder _ previous = previous.user from same]
  · exact Or.inr (rereads.marks name previous was same)

theorem forget_retained {work : Work} {name : String} (retained : work.Retained name)
    (gone : String) : (work.forget gone).Retained name := by
  cases found : work.registry.interface? gone with
  | none => rwa [forget_unknown found]
  | some above =>
      refine (forget_touched found).retained (fun _ orphan => orphan) ?_
      intro interface present
      unfold without at present ⊢
      rw [Registry.interface?_removeInterface] at present
      split at present
      · cases present
      next differs =>
        refine (retained interface present).imp_left fun marked => ?_
        rw [NameSet.contains_erase, marked]
        simp [differs]

theorem followSubsystem_guarded {work : Work} {awaiting : List String}
    (read : work.registry.ReadUnder work.maxMtu) (guarded : work.Guarded awaiting)
    (subsystem : String) (change : Change SubsystemRow) :
    (work.followSubsystem subsystem change).Guarded awaiting := by
  have links := links?_followSubsystem read subsystem change
  constructor
  · intro name notAwaiting
    exact followSubsystem_retained read (guarded.retained name notAwaiting) subsystem change
  · intro parent child paired upperKnown lowerKnown
    exact followSubsystem_accounted read subsystem change
      (guarded.paired parent child (paired.transfer (links parent) (links child))
        upperKnown lowerKnown)

theorem forget_guarded {work : Work} {awaiting : List String}
    (guarded : work.Guarded awaiting) (gone : String) :
    (work.forget gone).Guarded awaiting := by
  constructor
  · intro name notAwaiting
    exact forget_retained (guarded.retained name notAwaiting) gone
  · intro parent child paired upperKnown lowerKnown
    have present := (Registry.paired_iff_links? _ parent child).mp paired
    simp only [links?_forget] at present
    obtain ⟨_, ⟨_, lower⟩, _, _, upper, _⟩ := present
    have kept (name : String) (links : Option String × List String)
        (shown : (if gone = name then none else work.registry.links? name) = some links) :
        (work.forget gone).registry.links? name = work.registry.links? name := by
      rw [links?_forget]
      split at shown
      · cases shown
      next differs => rw [if_neg differs]
    have before := paired.transfer (kept parent _ upper) (kept child _ lower)
    exact forget_accounted (guarded.paired parent child before upperKnown lowerKnown)
      before.listed gone

theorem forgetAll_guarded {work : Work} {awaiting : List String}
    (guarded : work.Guarded awaiting) (names : List String) :
    (names.foldl forget work).Guarded awaiting := by
  induction names generalizing work with
  | nil => exact guarded
  | cons gone rest ih => exact ih (forget_guarded guarded gone)

/-! ## Ports and changed rows -/

theorem Inherited.retained {before after : Work} {concerned : List String}
    (inherited : Inherited before after concerned) {name : String}
    (retained : before.Retained name) : after.Retained name := by
  refine retained.transfer (fun interface found => ?_)
    fun marked => (inherited.dirty name).mpr (Or.inr marked)
  rw [inherited.interface?] at found
  by_cases isConcerned : name ∈ concerned
  · rw [if_pos isConcerned] at found
    obtain ⟨previous, was, _⟩ := Option.map_eq_some_iff.mp found
    exact Or.inr ((inherited.dirty name).mpr (Or.inl ⟨isConcerned,
      (Registry.hasInterface_iff _ _).mpr ⟨previous, was⟩⟩))
  · rw [if_neg isConcerned] at found
    exact Or.inl found

theorem Inherited.guarded {before after : Work} {concerned awaiting : List String}
    (inherited : Inherited before after concerned)
    (recorded : after.registry.recorded? = before.registry.recorded?)
    (guarded : before.Guarded awaiting) : after.Guarded awaiting := by
  constructor
  · intro name notAwaiting
    exact inherited.retained (guarded.retained name notAwaiting)
  · intro parent child paired upperKnown lowerKnown
    have before := paired.congr (Registry.declared?_eq_of_recorded? recorded)
    exact inherited.accounted (guarded.paired parent child before upperKnown lowerKnown)

theorem links?_overwritten_ne (work : Work) (before : Interface) {row : InterfaceRow}
    {name : String} (differs : name ≠ row.name) :
    (work.overwritten before row).registry.links? name = work.registry.links? name := by
  unfold Registry.links?
  rw [interface?_overwritten_ne work before differs]

theorem pointsTo_overwritten_ne (work : Work) (before : Interface) {row : InterfaceRow}
    {name : String} (differs : name ≠ row.name) (parent : String) :
    (work.overwritten before row).registry.pointsTo parent name =
      work.registry.pointsTo parent name := by
  unfold Registry.pointsTo
  rw [interface?_overwritten_ne work before differs]

theorem revise_retained {work : Work} {name : String} (retained : work.Retained name)
    (row : InterfaceRow) : (work.revise row).Retained name := by
  cases found : work.registry.interface? row.name with
  | none => rwa [revise_unknown found]
  | some before =>
      obtain ⟨renewed, marked, revised⟩ := revise_revised found
      by_cases own : name = row.name
      · subst own
        exact retained_of_marked ((revised.touched.dirty row.name).mpr
          (Or.inl (revised.marks row.name revised.own)))
      · refine revised.touched.retained revised.marks ?_
        refine retained.transfer (fun interface present => ?_) id
        rw [interface?_overwritten_ne work before own] at present
        exact Or.inl present

/-- A revised parent reaches the children that it is paired with afterwards: they are
linked again if its list changed, and otherwise were paired with it before. -/
theorem revise_paired_accounted {work : Work} {row : InterfaceRow} {before : Interface}
    (found : work.registry.interface? row.name = some before) {child : String}
    (paired : (work.overwritten before row).registry.Paired row.name child)
    (accounted : work.registry.Paired row.name child → work.Accounted child) :
    (work.revise row).Accounted child := by
  have own : child ≠ row.name := Ne.symm paired.differs
  have lists := paired.lists
  rw [Registry.childrenOf_of_found (interface?_overwritten_self found)] at lists
  by_cases sameList : before.splitChildren = row.splitChildren
  · refine revise_other_accounted (accounted ⟨paired.differs, ?_, ?_⟩) own fun _ => lists
    · rw [← pointsTo_overwritten_ne work before own]
      exact paired.points
    · rw [Registry.childrenOf_of_found found, sameList]
      exact lists
  · obtain ⟨renewed, marked, revised⟩ := revise_revised found
    have reached := revised.relinks sameList child paired.linked
    exact revised.touched.accounted (Or.inl ⟨revised.marks child reached, Or.inl reached⟩)

theorem revise_guarded {work : Work} (guarded : work.Guarded []) (row : InterfaceRow) :
    (work.revise row).Guarded [] := by
  refine ⟨fun name known => revise_retained (guarded.retained name known) row, ?_⟩
  intro parent child paired upperKnown lowerKnown
  cases found : work.registry.interface? row.name with
  | none =>
      rw [revise_unknown found] at paired ⊢
      exact guarded.paired parent child paired upperKnown lowerKnown
  | some before =>
      obtain ⟨renewed, marked, revised⟩ := revise_revised found
      have overwritten := paired.congr revised.touched.declared?
      have accounted (was : work.registry.Paired parent child) : work.Accounted child :=
        guarded.paired parent child was upperKnown lowerKnown
      by_cases own : child = row.name
      · subst own
        exact revise_own_accounted ((Registry.hasInterface_iff _ _).mpr ⟨before, found⟩)
      by_cases above : parent = row.name
      · subst above
        exact revise_paired_accounted found overwritten accounted
      -- Neither side is revised, so the pair is an old one and its parent is not the row's.
      · have was := overwritten.transfer (links?_overwritten_ne work before above)
          (links?_overwritten_ne work before own)
        refine revise_other_accounted (accounted was) own fun points => ?_
        obtain ⟨lower, present, named⟩ := Registry.exists_of_pointsTo points
        have same := named.symm.trans ((Registry.pointsTo_iff present parent).mp was.points)
        exact absurd (Option.some.inj same).symm above

theorem reviseAll_guarded {work : Work} (guarded : work.Guarded [])
    (revised : List InterfaceRow) : (revised.foldl revise work).Guarded [] := by
  induction revised generalizing work with
  | nil => exact guarded
  | cons row rest ih => exact ih (revise_guarded guarded row)

end Work

namespace Absorption

open Work

variable {absorption : Absorption} {image : Dict InterfaceRow}
  (records : absorption.start.registry.Records image absorption.start.maxMtu)
  (keyed : Keyed image)
  (wellFormed : Change.WellFormed absorption.batch.interfaces)

/-! ## The stages -/

include records keyed in
theorem limited_guarded (guarded : absorption.start.Guarded []) :
    absorption.limited.Guarded [] :=
  limited_induction records keyed (motive := fun work => work.Guarded []) guarded
    fun _ change read holds =>
      followSubsystem_guarded read holds absorption.subsystem change

include wellFormed

theorem enrolled_guarded (guarded : absorption.reduced.Guarded []) :
    absorption.enrolled.Guarded (absorption.fresh.map (·.name)) := by
  have enrolling := enrolled_enrolled wellFormed
  constructor
  · intro name notFresh
    refine (guarded.retained name List.not_mem_nil).transfer (fun interface found => ?_)
      fun marked => enrolling.dirty ▸ marked
    exact Or.inl ((enrolling.others name notFresh).symm.trans found)
  · intro parent child paired oldParent oldChild
    have links (name : String) (old : name ∉ absorption.fresh.map (·.name)) :
        absorption.enrolled.registry.links? name =
          absorption.reduced.registry.links? name := by
      unfold Registry.links?
      rw [enrolling.others name old]
    have before := guarded.paired parent child
      (paired.transfer (links parent oldParent) (links child oldChild))
      List.not_mem_nil List.not_mem_nil
    refine before.transfer (fun interface found => ?_) fun marked => enrolling.dirty ▸ marked
    have was := (enrolling.others child oldChild).symm.trans found
    refine ⟨interface, was, rfl, rfl, rfl, rfl, Or.inl rfl, fun other named => ?_⟩
    have same : some parent = some other :=
      ((Registry.pointsTo_iff found parent).mp paired.points).symm.trans named
    cases same
    unfold Registry.lanes?
    rw [enrolling.others parent oldParent]

omit wellFormed in
theorem mem_marked_of_linkReach {registry : Registry} {name reached : String}
    (member : reached ∈ linkReach registry name) :
    reached ∈ registry.linkedChildren name ++ [name] := by
  rcases List.mem_append.mp member with own | child
  · unfold Registry.withKnownParent at own
    split at own
    · exact List.mem_append_right _ own
    · cases own
  · exact List.mem_append_left _ child

theorem linked_guarded
    (guarded : absorption.ported.Guarded (absorption.fresh.map (·.name))) :
    absorption.linked.Guarded [] := by
  have linking := linkAll_touched absorption.ported (absorption.fresh.map (·.name))
  have marks : ∀ name ∈ (absorption.fresh.map (·.name)).flatMap
        (linkReach absorption.ported.registry),
      name ∈ (absorption.fresh.map (·.name)).flatMap fun fresh =>
        absorption.ported.registry.linkedChildren fresh ++ [fresh] := by
    intro name member
    obtain ⟨fresh, isFresh, reached⟩ := List.mem_flatMap.mp member
    exact List.mem_flatMap.mpr ⟨fresh, isFresh, mem_marked_of_linkReach reached⟩
  constructor
  · intro name _
    by_cases isFresh : name ∈ absorption.fresh.map (·.name)
    · refine retained_of_marked ((linking.dirty name).mpr (Or.inl ?_))
      exact List.mem_flatMap.mpr ⟨name, isFresh,
        List.mem_append_right _ (List.mem_singleton_self name)⟩
    · exact linking.retained marks (guarded.retained name isFresh)
  · intro parent child paired _ _
    by_cases freshChild : child ∈ absorption.fresh.map (·.name)
    · obtain ⟨row, member, rfl⟩ := List.mem_map.mp freshChild
      exact linked_accounted_of_fresh wellFormed member
    have before := paired.congr linking.declared?
    by_cases freshParent : parent ∈ absorption.fresh.map (·.name)
    · have reached : child ∈ (absorption.fresh.map (·.name)).flatMap
          (linkReach absorption.ported.registry) :=
        List.mem_flatMap.mpr ⟨parent, freshParent, List.mem_append_right _ before.linked⟩
      exact linking.accounted (Or.inl ⟨marks child reached, Or.inl reached⟩)
    · exact linking.accounted (Or.inr
        (guarded.paired parent child before freshParent freshChild))

include records keyed in
theorem result_guarded (guarded : absorption.start.Guarded []) :
    absorption.result.Guarded [] := by
  have reduced : absorption.reduced.Guarded [] :=
    forgetAll_guarded (limited_guarded records keyed guarded) absorption.deleted
  have ported : absorption.ported.Guarded (absorption.fresh.map (·.name)) :=
    (followPorts_inherited absorption.enrolled absorption.batch.ports).guarded
      (followPorts_recorded? absorption.enrolled absorption.batch.ports)
      (enrolled_guarded wellFormed reduced)
  exact reviseAll_guarded (linked_guarded wellFormed ported) absorption.known

end Absorption

end LinkReconciler
