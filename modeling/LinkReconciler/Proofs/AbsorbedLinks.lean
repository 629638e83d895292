import LinkReconciler.Proofs.SplitTracking

/-!
What absorbing a batch leaves behind: the ports of its rows, with every interface
under the admin state of its port, and an account for every interface that is
listed by the parent it names.
-/

namespace LinkReconciler

namespace Work

theorem Claimed.transfer {before after : Registry} (claimed : Claimed before)
    (ports : after.ports = before.ports)
    (step : ∀ name interface, after.interface? name = some interface →
      (∃ previous, before.interface? name = some previous ∧
        interface.portAdmin = previous.portAdmin) ∨
      interface.portAdmin = before.inheritedAdmin name) : Claimed after := by
  intro name interface found
  rw [Registry.inheritedAdmin_congr ports]
  rcases step name interface found with ⟨previous, was, same⟩ | inherits
  · rw [same]
    exact claimed name previous was
  · exact inherits

theorem Touched.claimed {before after : Work} {renewed marked : List String}
    (touched : Touched before after renewed marked) (claimed : Claimed before.registry) :
    Claimed after.registry := by
  refine Claimed.transfer claimed touched.ports fun name interface found => Or.inl ?_
  rw [touched.interface?] at found
  split at found
  · obtain ⟨previous, was, rfl⟩ := Option.map_eq_some_iff.mp found
    exact ⟨previous, was, rfl⟩
  · exact ⟨interface, found, rfl⟩

theorem forget_claimed {work : Work} (claimed : Claimed work.registry) (gone : String) :
    Claimed (work.forget gone).registry := by
  cases found : work.registry.interface? gone with
  | none => rwa [forget_unknown found]
  | some above =>
      refine (forget_touched found).claimed ?_
      refine Claimed.transfer claimed rfl fun name interface present => Or.inl ?_
      unfold without at present
      rw [Registry.interface?_removeInterface] at present
      split at present
      · cases present
      · exact ⟨interface, present, rfl⟩

theorem revise_claims {work : Work} (claimed : Claimed work.registry) (row : InterfaceRow) :
    (work.revise row).registry.ports = work.registry.ports ∧
      Claimed (work.revise row).registry := by
  cases found : work.registry.interface? row.name with
  | none =>
      rw [revise_unknown found]
      exact ⟨rfl, claimed⟩
  | some before =>
      obtain ⟨renewed, marked, revised⟩ := revise_revised found
      refine ⟨revised.touched.ports, revised.touched.claimed ?_⟩
      refine Claimed.transfer claimed rfl fun name interface present => Or.inl ?_
      by_cases own : name = row.name
      · subst own
        rw [interface?_overwritten_self found] at present
        cases present
        exact ⟨before, found, rfl⟩
      · rw [interface?_overwritten_ne work before own] at present
        exact ⟨interface, present, rfl⟩

theorem reviseAll_claims {work : Work} (claimed : Claimed work.registry)
    (revised : List InterfaceRow) :
    (revised.foldl revise work).registry.ports = work.registry.ports ∧
      Claimed (revised.foldl revise work).registry := by
  induction revised generalizing work with
  | nil => exact ⟨rfl, claimed⟩
  | cons row rest ih =>
      obtain ⟨ports, head⟩ := revise_claims claimed row
      obtain ⟨kept, tail⟩ := ih head
      exact ⟨kept.trans ports, tail⟩

end Work

namespace Absorption

open Work

variable {absorption : Absorption} {image : Dict InterfaceRow}

section Stages
variable (records : absorption.start.registry.Records image absorption.start.maxMtu)
  (keyed : Keyed image)
include records keyed

/-! ## The size limit -/

theorem limited_induction {motive : Work → Prop} (start : motive absorption.start)
    (step : ∀ work change, work.registry.ReadUnder work.maxMtu → motive work →
      motive (work.followSubsystem absorption.subsystem change)) :
    motive absorption.limited := by
  obtain ⟨subsystem, arbiter, work, batch⟩ := absorption
  unfold limited
  simp only at records start step ⊢
  induction batch.subsystems generalizing work with
  | nil => exact start
  | cons change rest ih =>
      have read := records.readUnder keyed
      exact ih (work.followSubsystem subsystem change)
        (followSubsystem_records records keyed subsystem change)
        (step work change read start)

theorem limited_links? (name : String) :
    absorption.limited.registry.links? name = absorption.start.registry.links? name := by
  refine limited_induction records keyed
    (motive := fun work =>
      work.registry.links? name = absorption.start.registry.links? name) rfl ?_
  intro work change read same
  exact (links?_followSubsystem read absorption.subsystem change name).trans same

theorem limited_accounted {name : String} (accounted : absorption.start.Accounted name) :
    absorption.limited.Accounted name :=
  limited_induction records keyed (motive := fun work => work.Accounted name) accounted
    fun _ change read => followSubsystem_accounted read absorption.subsystem change

theorem limited_claims (claimed : Claimed absorption.start.registry) :
    absorption.limited.registry.ports = absorption.start.registry.ports ∧
      Claimed absorption.limited.registry := by
  refine limited_induction records keyed
    (motive := fun work => work.registry.ports = absorption.start.registry.ports ∧
      Claimed work.registry) ⟨rfl, claimed⟩ ?_
  rintro work change read ⟨same, claimedSoFar⟩
  have rereads := followSubsystem_rereads read absorption.subsystem change
  refine ⟨rereads.ports.trans same, Claimed.transfer claimedSoFar rereads.ports ?_⟩
  intro name interface found
  rw [rereads.interface?] at found
  obtain ⟨previous, was, rfl⟩ := Option.map_eq_some_iff.mp found
  exact Or.inl ⟨previous, was, rfl⟩

variable (wellFormed : Change.WellFormed absorption.batch.interfaces)
include wellFormed

/-! ## Ports -/

theorem enrolled_claims (claimed : Claimed absorption.start.registry) :
    absorption.enrolled.registry.ports = absorption.start.registry.ports ∧
      Claimed absorption.enrolled.registry := by
  obtain ⟨limitedPorts, limitedClaims⟩ := limited_claims records keyed claimed
  have reducedPorts : absorption.reduced.registry.ports = absorption.limited.registry.ports :=
    forgetAll_ports absorption.deleted absorption.limited
  have reducedClaims : Claimed absorption.reduced.registry :=
    List.foldlRecOn (motive := fun work : Work => Claimed work.registry) absorption.deleted
      forget limitedClaims fun _ claimed gone _ => forget_claimed claimed gone
  have enrolling := enrolled_enrolled wellFormed
  refine ⟨enrolling.ports.trans (reducedPorts.trans limitedPorts),
    Claimed.transfer reducedClaims enrolling.ports fun name interface found => ?_⟩
  -- A newcomer inherits from the ports as they are; they change only later.
  by_cases isFresh : name ∈ absorption.fresh.map (·.name)
  · obtain ⟨row, member, rfl⟩ := List.mem_map.mp isFresh
    have newcomer := (enrolling.newcomers row member).symm.trans found
    cases newcomer
    exact Or.inr rfl
  · exact Or.inl ⟨interface, (enrolling.others name isFresh).symm.trans found, rfl⟩

theorem result_portsOf (claimed : Claimed absorption.start.registry)
    {ports : Dict PortRow} (portsOf : absorption.start.registry.PortsOf ports)
    (proper : ∀ change ∈ absorption.batch.ports, change.Proper) :
    absorption.result.registry.PortsOf (Change.applyAll ports absorption.batch.ports) := by
  obtain ⟨samePorts, enrolledClaims⟩ := enrolled_claims records keyed wellFormed claimed
  have ported : absorption.ported.registry.PortsOf
      (Change.applyAll ports absorption.batch.ports) :=
    followPorts_portsOf (samePorts.trans portsOf) proper
  have linking := linkAll_touched absorption.ported (absorption.fresh.map (·.name))
  have linkedClaims := linking.claimed
    (followPorts_claimed enrolledClaims absorption.batch.ports)
  exact ((reviseAll_claims linkedClaims absorption.known).1.trans linking.ports).trans ported

theorem result_claimed (claimed : Claimed absorption.start.registry) :
    Claimed absorption.result.registry := by
  have enrolledClaims := (enrolled_claims records keyed wellFormed claimed).2
  have linking := linkAll_touched absorption.ported (absorption.fresh.map (·.name))
  exact (reviseAll_claims (linking.claimed
    (followPorts_claimed enrolledClaims absorption.batch.ports)) absorption.known).2

/-! ## Links -/

/-- An interface whose row the batch leaves alone keeps its account until new
interfaces are enrolled; then it may have to wait for a parent that is new. -/
theorem enrolled_accounted {name : String} (accounted : absorption.start.Accounted name)
    (listed : absorption.start.registry.Listed name)
    (unset : name ∉ absorption.rows.map (·.name)) :
    (∃ row ∈ absorption.fresh, absorption.enrolled.registry.pointsTo row.name name = true) ∨
      absorption.enrolled.Accounted name := by
  have limited := limited_accounted records keyed accounted
  have stillListed : absorption.limited.registry.Listed name := by
    refine listed.transfer (limited_links? records keyed name) fun parent links linked => ?_
    rw [← limited_links? records keyed parent]
    exact linked
  have reduced : absorption.reduced.Accounted name :=
    forgetAll_accounted limited stillListed absorption.deleted
  have enrolling := enrolled_enrolled wellFormed
  have notFresh : name ∉ absorption.fresh.map (·.name) := fun member =>
    unset (List.map_subset _ List.filter_sublist.subset member)
  -- If the parent is new, the account is only settled when the parent is linked.
  by_cases waits : ∃ row ∈ absorption.fresh,
      absorption.enrolled.registry.pointsTo row.name name = true
  · exact Or.inl waits
  right
  refine reduced.transfer (fun interface found => ?_) fun marked => ?_
  · have was := (enrolling.others name notFresh).symm.trans found
    refine ⟨interface, was, rfl, rfl, rfl, rfl, Or.inl rfl, fun parent named => ?_⟩
    have old : parent ∉ absorption.fresh.map (·.name) := by
      intro member
      obtain ⟨row, isFresh, rfl⟩ := List.mem_map.mp member
      exact waits ⟨row, isFresh, (Registry.pointsTo_iff found row.name).mpr named⟩
    unfold Registry.lanes?
    rw [show absorption.enrolled.registry.interface? parent =
      absorption.reduced.registry.interface? parent from enrolling.others parent old]
  · exact enrolling.dirty ▸ marked

omit records keyed in
theorem linked_accounted_of_fresh {row : InterfaceRow} (member : row ∈ absorption.fresh) :
    absorption.linked.Accounted row.name := by
  have linking := linkAll_touched absorption.ported (absorption.fresh.map (·.name))
  have listedName := List.mem_map_of_mem (f := (·.name)) member
  refine linking.accounted (Or.inl ⟨?_, ?_⟩)
  · refine List.mem_flatMap.mpr ⟨row.name, listedName, ?_⟩
    exact List.mem_append_right _ (List.mem_singleton_self _)
  -- With no known parent there is nothing to renew: the transceiver that the newcomer
  -- came with is the one of its own cage.
  by_cases parented : absorption.ported.registry.withKnownParent row.name = []
  · right
    intro interface found
    have own : interface.transceiver = .ofCage interface.cage interface.report := by
      have ported := (followPorts_inherited absorption.enrolled
        absorption.batch.ports).interface? row.name
      rw [show absorption.enrolled.registry.interface? row.name =
        some (newcomer absorption.arbiter absorption.reduced row) from
          (enrolled_enrolled wellFormed).newcomers row member] at ported
      have shown := ported.symm.trans found
      split at shown
      · cases shown
        rfl
      · cases shown
        rfl
    have orphan : absorption.ported.registry.parent? interface = none := by
      unfold Registry.withKnownParent at parented
      rw [found, Option.bind_some] at parented
      cases above : absorption.ported.registry.parent? interface with
      | none => rfl
      | some parent => simp [above] at parented
    unfold Registry.transceiverDue
    rw [orphan]
    exact own
  · left
    refine List.mem_flatMap.mpr ⟨row.name, listedName, List.mem_append_left _ ?_⟩
    unfold Registry.withKnownParent at parented ⊢
    split at parented
    · exact List.mem_singleton_self _
    · exact absurd rfl parented

/-- Linking a new parent reaches the children that wait for it and are listed. -/
theorem linked_accounted {name : String} (accounted : absorption.start.Accounted name)
    (listed : absorption.start.registry.Listed name)
    (unset : name ∉ absorption.rows.map (·.name))
    (lists : ∀ row ∈ absorption.fresh,
      absorption.enrolled.registry.pointsTo row.name name = true →
      name ∈ absorption.ported.registry.childrenOf row.name) :
    absorption.linked.Accounted name := by
  have linking := linkAll_touched absorption.ported (absorption.fresh.map (·.name))
  have same : absorption.ported.registry.declared? = absorption.enrolled.registry.declared? :=
    Registry.declared?_eq_of_recorded?
      (followPorts_recorded? absorption.enrolled absorption.batch.ports)
  rcases enrolled_accounted records keyed wellFormed accounted listed unset with
    ⟨row, isFresh, points⟩ | accountedSoFar
  · have child : name ∈ absorption.ported.registry.linkedChildren row.name := by
      refine List.mem_filter.mpr ⟨lists row isFresh points, ?_⟩
      rw [Registry.pointsTo_eq, same, ← Registry.pointsTo_eq]
      exact points
    have listedName := List.mem_map_of_mem (f := (·.name)) isFresh
    refine linking.accounted (Or.inl ⟨?_, Or.inl ?_⟩)
    · exact List.mem_flatMap.mpr ⟨row.name, listedName, List.mem_append_left _ child⟩
    · exact List.mem_flatMap.mpr ⟨row.name, listedName, List.mem_append_right _ child⟩
  · exact linking.accounted (Or.inr
      ((followPorts_inherited _ absorption.batch.ports).accounted accountedSoFar))

/-- After a batch an interface is accounted for if the parent that it names lists
it, provided that the batch set its row or it was so before. -/
theorem result_accounted {name : String} (listed : absorption.result.registry.Listed name)
    (before : name ∈ absorption.rows.map (·.name) ∨
      (absorption.start.Accounted name ∧ absorption.start.registry.Listed name)) :
    absorption.result.Accounted name := by
  have recorded := result_records records keyed wellFormed
  have outcome (row : InterfaceRow) (member : row ∈ absorption.rows) :
      (Change.applyAll image absorption.batch.interfaces).get? row.name = some row :=
    Change.get?_applyAll_of_mem_rows wellFormed member image
  have registered (row : InterfaceRow) (member : row ∈ absorption.rows) :
      absorption.result.registry.hasInterface row.name = true :=
    (recorded.hasInterface_eq row.name).trans
      ((Dict.contains_iff _ _).mpr ⟨row, outcome row member⟩)
  have unrevised (other : String) (absent : other ∉ absorption.known.map (·.name)) :
      absorption.result.registry.recorded? other =
        absorption.ported.registry.recorded? other :=
    (recorded?_reviseAll_ne absorption.known absorption.linked absent).trans
      (congrFun (linkAll_touched absorption.ported _).recorded? other)
  -- The registry at the end has the links of the rows of the batch, so a parent that
  -- lists the interface at the end lists it in its row.
  refine reviseAll_accounted (hasInterface_linked_of_known records keyed wellFormed) ?_ ?_
  · intro row isKnown points
    have member := ((mem_known_iff row).mp isKnown).1
    rw [← recorded.childrenOf_eq (outcome row member)]
    exact listed row.name points (registered row member)
  · by_cases isSet : name ∈ absorption.rows.map (·.name)
    · obtain ⟨row, member, rfl⟩ := List.mem_map.mp isSet
      rcases fresh_or_known member with isFresh | isKnown
      · exact Or.inr (linked_accounted_of_fresh wellFormed isFresh)
      · exact Or.inl (List.mem_map_of_mem isKnown)
    · right
      obtain ⟨accounted, listedBefore⟩ := before.resolve_left isSet
      refine linked_accounted records keyed wellFormed accounted listedBefore isSet ?_
      intro row isFresh points
      have member := ((mem_fresh_iff row).mp isFresh).1
      have notKnown : name ∉ absorption.known.map (·.name) := fun again =>
        isSet (List.map_subset _ List.filter_sublist.subset again)
      have same := unrevised name notKnown
      unfold ported at same
      rw [followPorts_recorded?] at same
      have lists := listed row.name
        ((Registry.pointsTo_of_recorded? same row.name).trans points)
        (registered row member)
      rw [← Registry.childrenOf_of_recorded? (unrevised row.name (fresh_not_known isFresh))]
      exact lists.resolve_left fun own => isSet (own ▸ List.mem_map_of_mem member)

end Stages

end Absorption

end LinkReconciler
