import LinkReconciler.Proofs.PortClaim

/-!
The registry as a record of rows. Each step of a reconciliation does to the
recorded rows what it is meant to do: a subsystem changes the limit they are read
under, and forgetting, enrolling and revising erase or put one row.
-/

namespace LinkReconciler

def Registry.Records (registry : Registry) (image : Dict InterfaceRow)
    (maxMtu : UInt32) : Prop :=
  ∀ name, registry.recorded? name =
    (image.get? name).map fun row => (Interface.ofRow row maxMtu).recorded

def Registry.ReadUnder (registry : Registry) (maxMtu : UInt32) : Prop :=
  ∀ name interface, registry.interface? name = some interface →
    interface.name = name ∧ interface.user = Work.userUnder maxMtu interface

namespace Registry.Records

variable {registry : Registry} {image : Dict InterfaceRow} {maxMtu : UInt32}

theorem row_of_interface (records : registry.Records image maxMtu) {name : String}
    {interface : Interface} (found : registry.interface? name = some interface) :
    ∃ row, image.get? name = some row ∧
      interface.recorded = (Interface.ofRow row maxMtu).recorded := by
  have here := records name
  unfold Registry.recorded? at here
  rw [found, Option.map_some] at here
  obtain ⟨row, present, same⟩ := Option.map_eq_some_iff.mp here.symm
  exact ⟨row, present, same.symm⟩

theorem interface_of_row (records : registry.Records image maxMtu) {name : String}
    {row : InterfaceRow} (present : image.get? name = some row) :
    ∃ interface, registry.interface? name = some interface ∧
      interface.recorded = (Interface.ofRow row maxMtu).recorded := by
  have here := records name
  rw [present, Option.map_some] at here
  exact Option.map_eq_some_iff.mp here

theorem hasInterface_eq (records : registry.Records image maxMtu) (name : String) :
    registry.hasInterface name = image.contains name := by
  have here := congrArg Option.isSome (records name)
  simpa [Registry.recorded?, Registry.hasInterface, Dict.contains,
    Registry.interface?] using here

theorem declared?_eq (records : registry.Records image maxMtu) (name : String) :
    registry.declared? name =
      (image.get? name).map fun row => (Interface.ofRow row maxMtu).declared := by
  have here := congrArg (Option.map Interface.declared) (records name)
  unfold Registry.recorded? at here
  rw [Option.map_map, Option.map_map] at here
  exact here

theorem childrenOf_eq (records : registry.Records image maxMtu) {name : String}
    {row : InterfaceRow} (present : image.get? name = some row) :
    registry.childrenOf name = row.splitChildren := by
  obtain ⟨interface, found, same⟩ := records.interface_of_row present
  unfold Registry.childrenOf
  rw [found]
  exact congrArg (·.splitChildren) same

theorem readUnder (records : registry.Records image maxMtu) (keyed : Keyed image) :
    registry.ReadUnder maxMtu := by
  intro name interface found
  obtain ⟨row, present, same⟩ := records.row_of_interface found
  have fields := fun {α : Type} (view : Interface → α) => congrArg view same
  refine ⟨(fields (·.name)).trans (keyed name row present), ?_⟩
  have column : interface.userColumn = row.userConfig := fields (·.userColumn)
  have cage : interface.cage = .ofColumn row.hwInfo := fields (·.cage)
  unfold Work.userUnder
  rw [column, cage]
  exact fields (·.user)

end Registry.Records

namespace Work

/-! ## The size limit -/

def reread (maxMtu : UInt32) (interface : Interface) : Interface :=
  { interface with user := userUnder maxMtu interface }

theorem interface?_limitMtu (work : Work) (maxMtu : UInt32) (name : String) :
    (work.limitMtu maxMtu).registry.interface? name =
      (work.registry.interface? name).map (reread maxMtu) :=
  Dict.get?_mapValues work.registry.interfaces (reread maxMtu) name

/-- Every user configuration is read under the limit that is in effect afterwards,
and those that came out new are marked. -/
structure Rereads (before after : Work) : Prop where
  interface? : ∀ name, after.registry.interface? name =
    (before.registry.interface? name).map (reread after.maxMtu)
  ports : after.registry.ports = before.registry.ports
  kept : ∀ name, before.dirty.contains name = true → after.dirty.contains name = true
  marks : ∀ name interface, before.registry.interface? name = some interface →
    (reread after.maxMtu interface).user ≠ interface.user →
    after.dirty.contains name = true

theorem Rereads.refl {work : Work} (read : work.registry.ReadUnder work.maxMtu) :
    Rereads work work := by
  constructor
  · intro name
    cases found : work.registry.interface? name with
    | none => rfl
    | some interface =>
        simp only [Option.map_some, reread, ← (read name interface found).2]
  · rfl
  · exact fun _ marked => marked
  · intro name interface found differs
    exact absurd (read name interface found).2.symm differs

theorem limitMtu_rereads {work : Work} (read : work.registry.ReadUnder work.maxMtu)
    (maxMtu : UInt32) : Rereads work (work.limitMtu maxMtu) := by
  constructor
  · exact interface?_limitMtu work maxMtu
  · rfl
  · intro name marked
    exact (NameSet.contains_addAll_iff work.dirty _ name).mpr (Or.inr marked)
  · intro name interface found differs
    refine (NameSet.contains_addAll_iff work.dirty _ name).mpr (Or.inl ?_)
    -- Marks go by the name an interface carries, which is the one it is found under.
    refine List.mem_map.mpr ⟨interface, List.mem_filter.mpr ⟨?_, decide_eq_true differs⟩, ?_⟩
    · exact (Dict.mem_values_iff _ interface).mpr ⟨name, found⟩
    · exact (read name interface found).1

theorem followSubsystem_rereads {work : Work} (read : work.registry.ReadUnder work.maxMtu)
    (subsystem : String) (change : Change SubsystemRow) :
    Rereads work (work.followSubsystem subsystem change) := by
  unfold followSubsystem
  split
  · split
    · split
      · exact Rereads.refl read
      · exact limitMtu_rereads read _
    · exact Rereads.refl read
  · exact Rereads.refl read

theorem followSubsystem_records {work : Work} {image : Dict InterfaceRow}
    (records : work.registry.Records image work.maxMtu) (keyed : Keyed image)
    (subsystem : String) (change : Change SubsystemRow) :
    (work.followSubsystem subsystem change).registry.Records image
      (work.followSubsystem subsystem change).maxMtu := by
  intro name
  have rereads := followSubsystem_rereads (records.readUnder keyed) subsystem change
  unfold Registry.recorded?
  rw [rereads.interface?]
  cases found : work.registry.interface? name with
  | none =>
      have here := records name
      unfold Registry.recorded? at here
      rw [found] at here
      rw [Option.map_eq_none_iff.mp here.symm]
      rfl
  | some interface =>
      obtain ⟨row, present, same⟩ := records.row_of_interface found
      rw [present, Option.map_some, Option.map_some, Option.map_some, Option.some.injEq]
      -- Reading the row under the new limit and reading the interface again is the same,
      -- since both start from the user's column.
      have again : (reread (work.followSubsystem subsystem change).maxMtu interface).recorded =
          reread (work.followSubsystem subsystem change).maxMtu interface.recorded := rfl
      rw [again, same]
      rfl

theorem followSubsystems_records {work : Work} {image : Dict InterfaceRow}
    (records : work.registry.Records image work.maxMtu) (keyed : Keyed image)
    (subsystem : String) (changes : List (Change SubsystemRow)) :
    (changes.foldl (followSubsystem subsystem) work).registry.Records image
      (changes.foldl (followSubsystem subsystem) work).maxMtu := by
  induction changes generalizing work with
  | nil => exact records
  | cons change rest ih =>
      exact ih (followSubsystem_records records keyed subsystem change)

/-! ## Interfaces that go, come and change -/

theorem maxMtu_forget (work : Work) (name : String) :
    (work.forget name).maxMtu = work.maxMtu := by
  cases found : work.registry.interface? name with
  | none => rw [forget_unknown found]
  | some interface => exact (forget_touched found).maxMtu

theorem recorded?_without (work : Work) (name other : String) :
    (work.without name).registry.recorded? other =
      if name = other then none else work.registry.recorded? other := by
  unfold without Registry.recorded?
  rw [Registry.interface?_removeInterface]
  by_cases hit : name = other <;> simp [hit]

theorem recorded?_forget (work : Work) (name other : String) :
    (work.forget name).registry.recorded? other =
      if name = other then none else work.registry.recorded? other := by
  cases found : work.registry.interface? name with
  | none =>
      rw [forget_unknown found]
      by_cases hit : name = other
      · subst hit
        simp [Registry.recorded?, found]
      · rw [if_neg hit]
  | some interface =>
      rw [(forget_touched found).recorded?, recorded?_without]

theorem forget_records {work : Work} {image : Dict InterfaceRow}
    (records : work.registry.Records image work.maxMtu) (name : String) :
    (work.forget name).registry.Records (image.erase name) (work.forget name).maxMtu := by
  intro other
  rw [recorded?_forget, maxMtu_forget, Dict.get?_erase, records other]
  by_cases hit : name = other <;> simp [hit]

theorem forgetAll_records {work : Work} {image : Dict InterfaceRow}
    (records : work.registry.Records image work.maxMtu) (names : List String) :
    (names.foldl forget work).registry.Records (eraseAll image names)
      (names.foldl forget work).maxMtu := by
  unfold eraseAll
  induction names generalizing work image with
  | nil => exact records
  | cons name rest ih => exact ih (forget_records records name)

theorem interface?_enroll (arbiter : Arbiter) {work : Work} {row : InterfaceRow}
    (absent : work.registry.hasInterface row.name = false) (name : String) :
    (work.enroll arbiter row).registry.interface? name =
      if row.name = name then some (newcomer arbiter work row)
      else work.registry.interface? name := by
  rw [enroll_new arbiter absent]
  exact Dict.get?_insert work.registry.interfaces row.name name _

theorem maxMtu_revise (work : Work) (row : InterfaceRow) :
    (work.revise row).maxMtu = work.maxMtu := by
  cases found : work.registry.interface? row.name with
  | none => rw [revise_unknown found]
  | some before =>
      obtain ⟨renewed, marked, revised⟩ := revise_revised found
      exact revised.touched.maxMtu

theorem recorded?_revise_ne (work : Work) (row : InterfaceRow) {name : String}
    (differs : name ≠ row.name) :
    (work.revise row).registry.recorded? name = work.registry.recorded? name := by
  cases found : work.registry.interface? row.name with
  | none => rw [revise_unknown found]
  | some before =>
      obtain ⟨renewed, marked, revised⟩ := revise_revised found
      rw [revised.touched.recorded?]
      unfold Registry.recorded?
      rw [interface?_overwritten_ne work before differs]

theorem recorded?_reviseAll_ne (revised : List InterfaceRow) (work : Work) {name : String}
    (absent : name ∉ revised.map (·.name)) :
    (revised.foldl revise work).registry.recorded? name = work.registry.recorded? name := by
  induction revised generalizing work with
  | nil => rfl
  | cons row rest ih =>
      rw [List.map_cons, List.mem_cons, not_or] at absent
      exact (ih (work.revise row) absent.2).trans (recorded?_revise_ne work row absent.1)

theorem recorded_update {before : Interface} {row : InterfaceRow}
    (named : before.name = row.name) (maxMtu : UInt32) :
    (before.update row maxMtu).recorded = (Interface.ofRow row maxMtu).recorded := by
  unfold Interface.update
  rw [named]
  rfl

theorem revise_records {work : Work} {image : Dict InterfaceRow}
    (records : work.registry.Records image work.maxMtu) (keyed : Keyed image)
    {row : InterfaceRow} (known : work.registry.hasInterface row.name = true) :
    (work.revise row).registry.Records (image.insert row.name row)
      (work.revise row).maxMtu := by
  obtain ⟨before, found⟩ := (Registry.hasInterface_iff _ _).mp known
  have named := (records.readUnder keyed row.name before found).1
  intro name
  rw [maxMtu_revise, Dict.get?_insert]
  by_cases hit : row.name = name
  · subst hit
    obtain ⟨renewed, marked, revised⟩ := revise_revised found
    rw [if_pos rfl, revised.touched.recorded?]
    unfold Registry.recorded?
    rw [interface?_overwritten_self found, Option.map_some, Option.map_some,
      recorded_update named]
  · rw [if_neg hit, recorded?_revise_ne work row (Ne.symm hit)]
    exact records name

end Work

end LinkReconciler
