import LinkReconciler.Proofs.RecordedRows

/-!
The stages of absorbing a batch. A well-formed batch is absorbed in the order
limit, deletions, new interfaces, ports, links, changed interfaces; the registry
then records the rows that the batch leaves in an image of the Interface table.
-/

namespace LinkReconciler

/-- The absorption of a batch by a work. -/
structure Absorption where
  subsystem : String
  arbiter : Arbiter
  start : Work
  batch : Batch

namespace Absorption

open Work

def rows (absorption : Absorption) : List InterfaceRow :=
  Change.rows absorption.batch.interfaces

def deleted (absorption : Absorption) : List String :=
  Change.deletedNames absorption.batch.interfaces

def limited (absorption : Absorption) : Work :=
  absorption.batch.subsystems.foldl (followSubsystem absorption.subsystem)
    absorption.start

def reduced (absorption : Absorption) : Work :=
  absorption.deleted.foldl forget absorption.limited

def fresh (absorption : Absorption) : List InterfaceRow :=
  absorption.rows.filter fun row =>
    !absorption.reduced.registry.hasInterface row.name

def known (absorption : Absorption) : List InterfaceRow :=
  absorption.rows.filter fun row =>
    absorption.reduced.registry.hasInterface row.name

def enrolled (absorption : Absorption) : Work :=
  absorption.fresh.foldl (enroll absorption.arbiter) absorption.reduced

def ported (absorption : Absorption) : Work :=
  absorption.enrolled.followPorts absorption.batch.ports

def linked (absorption : Absorption) : Work :=
  (absorption.fresh.map (·.name)).foldl linkInserted absorption.ported

def result (absorption : Absorption) : Work :=
  absorption.known.foldl revise absorption.linked

/-! ## The stages are the absorption -/

theorem hasInterface_enroll_ne {arbiter : Arbiter} {work : Work} {row : InterfaceRow}
    (absent : work.registry.hasInterface row.name = false) {name : String}
    (differs : row.name ≠ name) :
    (work.enroll arbiter row).registry.hasInterface name =
      work.registry.hasInterface name := by
  have here := interface?_enroll arbiter absent name
  rw [if_neg differs] at here
  unfold Registry.hasInterface Dict.contains
  exact congrArg Option.isSome here

theorem receive_rows (arbiter : Arbiter) (received : List InterfaceRow)
    (distinct : (received.map (·.name)).Nodup) (work : Work)
    (inserted : List String) (modified : List InterfaceRow) :
    (received.map Change.ofRow).foldl (Arrivals.receive arbiter)
        ⟨work, inserted, modified⟩ =
      ⟨(received.filter fun row => !work.registry.hasInterface row.name).foldl
          (enroll arbiter) work,
        inserted ++ (received.filter fun row =>
          !work.registry.hasInterface row.name).map (·.name),
        modified ++ received.filter fun row =>
          work.registry.hasInterface row.name⟩ := by
  induction received generalizing work inserted modified with
  | nil => simp
  | cons row rest ih =>
      rw [List.map_cons, List.nodup_cons] at distinct
      have tail := ih distinct.2
      rw [List.map_cons, List.foldl_cons]
      by_cases registered : work.registry.hasInterface row.name = true
      · have step : Arrivals.receive arbiter ⟨work, inserted, modified⟩ (.ofRow row) =
            ⟨work, inserted, modified ++ [row]⟩ := by
          simp [Arrivals.receive, Change.ofRow, Change.set, registered]
        rw [step, tail]
        simp [registered, List.append_assoc]
      · have absent : work.registry.hasInterface row.name = false := by
          simpa using registered
        have step : Arrivals.receive arbiter ⟨work, inserted, modified⟩ (.ofRow row) =
            ⟨work.enroll arbiter row, inserted ++ [row.name], modified⟩ := by
          simp [Arrivals.receive, Change.ofRow, Change.set, absent]
        -- The rows to come have other names, so enrolling this one makes none of them known.
        have others (other : InterfaceRow) (member : other ∈ rest) :
            (work.enroll arbiter row).registry.hasInterface other.name =
              work.registry.hasInterface other.name := by
          refine hasInterface_enroll_ne absent fun same => distinct.1 ?_
          exact same ▸ List.mem_map_of_mem member
        have sameFresh : rest.filter (fun other =>
            !(work.enroll arbiter row).registry.hasInterface other.name) =
            rest.filter fun other => !work.registry.hasInterface other.name :=
          List.filter_congr fun other member => by rw [others other member]
        have sameKnown : rest.filter (fun other =>
            (work.enroll arbiter row).registry.hasInterface other.name) =
            rest.filter fun other => work.registry.hasInterface other.name :=
          List.filter_congr others
        rw [step, tail, sameFresh, sameKnown]
        simp [absent, List.append_assoc]

theorem absorb_eq_result (absorption : Absorption)
    (wellFormed : Change.WellFormed absorption.batch.interfaces) :
    absorb absorption.subsystem absorption.arbiter absorption.start absorption.batch =
      absorption.result := by
  have arrived : (absorption.rows.map Change.ofRow).foldl
        (Arrivals.receive absorption.arbiter) { work := absorption.reduced } =
      ⟨absorption.enrolled, absorption.fresh.map (·.name), absorption.known⟩ :=
    receive_rows absorption.arbiter absorption.rows
      (Change.rows_names_nodup wellFormed) absorption.reduced [] []
  unfold absorb
  rw [Change.updates_eq_rows wellFormed]
  exact congrArg (fun arrivals : Arrivals =>
    arrivals.modified.foldl revise (arrivals.inserted.foldl linkInserted
      (arrivals.work.followPorts absorption.batch.ports))) arrived

/-! ## New and changed names -/

variable {absorption : Absorption}

theorem rows_names_nodup (wellFormed : Change.WellFormed absorption.batch.interfaces) :
    (absorption.rows.map (·.name)).Nodup :=
  Change.rows_names_nodup wellFormed

theorem fresh_names_nodup (wellFormed : Change.WellFormed absorption.batch.interfaces) :
    (absorption.fresh.map (·.name)).Nodup :=
  (rows_names_nodup wellFormed).sublist (List.filter_sublist.map _)

theorem known_names_nodup (wellFormed : Change.WellFormed absorption.batch.interfaces) :
    (absorption.known.map (·.name)).Nodup :=
  (rows_names_nodup wellFormed).sublist (List.filter_sublist.map _)

theorem mem_fresh_iff (row : InterfaceRow) :
    row ∈ absorption.fresh ↔ row ∈ absorption.rows ∧
      absorption.reduced.registry.hasInterface row.name = false := by
  simp [fresh, List.mem_filter]

theorem mem_known_iff (row : InterfaceRow) :
    row ∈ absorption.known ↔ row ∈ absorption.rows ∧
      absorption.reduced.registry.hasInterface row.name = true := by
  simp [known, List.mem_filter]

theorem fresh_or_known {row : InterfaceRow} (member : row ∈ absorption.rows) :
    row ∈ absorption.fresh ∨ row ∈ absorption.known := by
  rw [mem_fresh_iff, mem_known_iff]
  cases absorption.reduced.registry.hasInterface row.name <;> simp [member]

theorem fresh_not_known {row : InterfaceRow} (member : row ∈ absorption.fresh) :
    row.name ∉ absorption.known.map (·.name) := by
  intro again
  obtain ⟨other, isKnown, same⟩ := List.mem_map.mp again
  have registered := ((mem_known_iff other).mp isKnown).2
  rw [same, ((mem_fresh_iff row).mp member).2] at registered
  cases registered

/-! ## Enrolling the new interfaces -/

/-- What enrolling rows does: one newcomer is registered for each of them, and
everything else stays. -/
structure Enrolled (arbiter : Arbiter) (before after : Work)
    (received : List InterfaceRow) : Prop where
  others : ∀ name, name ∉ received.map (·.name) →
    after.registry.interface? name = before.registry.interface? name
  newcomers : ∀ row ∈ received,
    after.registry.interface? row.name = some (newcomer arbiter before row)
  ports : after.registry.ports = before.registry.ports
  maxMtu : after.maxMtu = before.maxMtu
  dirty : after.dirty = before.dirty

theorem enrollAll_enrolled (arbiter : Arbiter) (received : List InterfaceRow)
    (distinct : (received.map (·.name)).Nodup) (work : Work)
    (absent : ∀ row ∈ received, work.registry.hasInterface row.name = false) :
    Enrolled arbiter work (received.foldl (enroll arbiter) work) received := by
  induction received generalizing work with
  | nil => exact ⟨fun _ _ => rfl, fun _ member => (List.not_mem_nil member).elim, rfl, rfl, rfl⟩
  | cons row rest ih =>
      rw [List.map_cons, List.nodup_cons] at distinct
      have unregistered := absent row List.mem_cons_self
      have step := enroll_new arbiter unregistered
      have ports : (work.enroll arbiter row).registry.ports = work.registry.ports := by
        rw [step]
      have limit : (work.enroll arbiter row).maxMtu = work.maxMtu := by rw [step]
      -- A newcomer depends on the ports and the limit only, so the ones to come
      -- are the same whether or not this one is there.
      have sameNewcomer : newcomer arbiter (work.enroll arbiter row) =
          newcomer arbiter work := by
        funext other
        unfold newcomer
        rw [limit, Registry.inheritedAdmin_congr ports]
      have tail := ih distinct.2 (work.enroll arbiter row) (by
        intro other member
        rw [hasInterface_enroll_ne unregistered]
        · exact absent other (List.mem_cons_of_mem _ member)
        · exact fun same => distinct.1 (same ▸ List.mem_map_of_mem member))
      constructor
      · intro name differs
        rw [List.map_cons, List.mem_cons, not_or] at differs
        exact (tail.others name differs.2).trans
          ((interface?_enroll arbiter unregistered name).trans (if_neg (Ne.symm differs.1)))
      · intro other member
        rcases List.mem_cons.mp member with same | later
        · rw [same]
          exact (tail.others row.name distinct.1).trans
            ((interface?_enroll arbiter unregistered row.name).trans (if_pos rfl))
        · exact (tail.newcomers other later).trans (by rw [sameNewcomer])
      · exact tail.ports.trans ports
      · exact tail.maxMtu.trans limit
      · exact tail.dirty.trans (by rw [step])

theorem enrolled_enrolled (wellFormed : Change.WellFormed absorption.batch.interfaces) :
    Enrolled absorption.arbiter absorption.reduced absorption.enrolled absorption.fresh :=
  enrollAll_enrolled absorption.arbiter absorption.fresh (fresh_names_nodup wellFormed)
    absorption.reduced fun row member => ((mem_fresh_iff row).mp member).2

theorem enrollAll_records {arbiter : Arbiter} {received : List InterfaceRow}
    (distinct : (received.map (·.name)).Nodup) {work : Work} {image : Dict InterfaceRow}
    (records : work.registry.Records image work.maxMtu)
    (absent : ∀ row ∈ received, work.registry.hasInterface row.name = false) :
    (received.foldl (enroll arbiter) work).registry.Records (putAll image received)
      (received.foldl (enroll arbiter) work).maxMtu := by
  have enrolled := enrollAll_enrolled arbiter received distinct work absent
  intro name
  rw [enrolled.maxMtu]
  unfold Registry.recorded?
  by_cases inserted : name ∈ received.map (·.name)
  · obtain ⟨row, member, rfl⟩ := List.mem_map.mp inserted
    have put : (putAll image received).get? row.name = some row :=
      get?_putAll_of_mem image distinct member
    rw [enrolled.newcomers row member, put]
    rfl
  · rw [enrolled.others name inserted, get?_putAll_of_not_mem image received inserted]
    exact records name

/-! ## Revising the changed interfaces -/

theorem hasInterface_revise (work : Work) (row : InterfaceRow) (name : String) :
    (work.revise row).registry.hasInterface name = work.registry.hasInterface name := by
  cases found : work.registry.interface? row.name with
  | none => rw [revise_unknown found]
  | some before =>
      rw [Registry.hasInterface_eq_recorded?, Registry.hasInterface_eq_recorded?]
      by_cases hit : name = row.name
      · subst hit
        obtain ⟨renewed, marked, revised⟩ := revise_revised found
        rw [revised.touched.recorded?]
        unfold Registry.recorded?
        rw [interface?_overwritten_self found, found]
        rfl
      · rw [recorded?_revise_ne work row hit]

theorem reviseAll_records {revised : List InterfaceRow} {work : Work}
    {image : Dict InterfaceRow} (records : work.registry.Records image work.maxMtu)
    (keyed : Keyed image)
    (registered : ∀ row ∈ revised, work.registry.hasInterface row.name = true) :
    (revised.foldl revise work).registry.Records (putAll image revised)
      (revised.foldl revise work).maxMtu := by
  unfold putAll
  induction revised generalizing work image with
  | nil => exact records
  | cons row rest ih =>
      have head := registered row List.mem_cons_self
      refine ih (revise_records records keyed head) (insert_keyed keyed row) ?_
      intro other member
      rw [hasInterface_revise]
      exact registered other (List.mem_cons_of_mem _ member)

/-- What the batch leaves in the image: the deleted rows are erased, then the new
and the changed rows are put. -/
theorem putAll_eq_applyAll (image : Dict InterfaceRow)
    (wellFormed : Change.WellFormed absorption.batch.interfaces) :
    putAll (putAll (eraseAll image absorption.deleted) absorption.fresh)
        absorption.known =
      Change.applyAll image absorption.batch.interfaces := by
  ext name : 1
  rw [Change.get?_applyAll]
  -- No name is both fresh and known, so the order of the two lists does not show.
  by_cases isSet : name ∈ absorption.rows.map (·.name)
  · obtain ⟨row, member, rfl⟩ := List.mem_map.mp isSet
    have outcome := Change.outcome_of_mem_rows wellFormed row member (image.get? row.name)
    refine Eq.trans ?_ outcome.symm
    rcases fresh_or_known member with isFresh | isKnown
    · rw [get?_putAll_of_not_mem _ _ (fresh_not_known isFresh)]
      exact get?_putAll_of_mem _ (fresh_names_nodup wellFormed) isFresh
    · exact get?_putAll_of_mem _ (known_names_nodup wellFormed) isKnown
  · have notIn (kept : List InterfaceRow) (part : kept ⊆ absorption.rows) :
        name ∉ kept.map (·.name) := fun member => isSet (List.map_subset _ part member)
    have notKnown := notIn absorption.known List.filter_sublist.subset
    have notFresh := notIn absorption.fresh List.filter_sublist.subset
    rw [get?_putAll_of_not_mem _ _ notKnown, get?_putAll_of_not_mem _ _ notFresh,
      get?_eraseAll]
    exact (Change.outcome_of_not_mem_rows wellFormed name isSet _).symm

/-! ## What each stage records -/

section Records
variable {image : Dict InterfaceRow}
  (records : absorption.start.registry.Records image absorption.start.maxMtu)
  (keyed : Keyed image)
  (wellFormed : Change.WellFormed absorption.batch.interfaces)
include records keyed

theorem limited_records :
    absorption.limited.registry.Records image absorption.limited.maxMtu :=
  followSubsystems_records records keyed absorption.subsystem absorption.batch.subsystems

theorem reduced_records :
    absorption.reduced.registry.Records (eraseAll image absorption.deleted)
      absorption.reduced.maxMtu :=
  forgetAll_records (limited_records records keyed) absorption.deleted

include wellFormed

theorem enrolled_records :
    absorption.enrolled.registry.Records
      (putAll (eraseAll image absorption.deleted) absorption.fresh)
      absorption.enrolled.maxMtu :=
  enrollAll_records (fresh_names_nodup wellFormed) (reduced_records records keyed)
    fun row member => ((mem_fresh_iff row).mp member).2

theorem ported_records :
    absorption.ported.registry.Records
      (putAll (eraseAll image absorption.deleted) absorption.fresh)
      absorption.ported.maxMtu := by
  intro name
  unfold ported
  rw [followPorts_recorded?, (followPorts_inherited _ _).maxMtu]
  exact enrolled_records records keyed wellFormed name

theorem linked_records :
    absorption.linked.registry.Records
      (putAll (eraseAll image absorption.deleted) absorption.fresh)
      absorption.linked.maxMtu := by
  have touched := linkAll_touched absorption.ported (absorption.fresh.map (·.name))
  intro name
  unfold linked
  rw [touched.recorded?, touched.maxMtu]
  exact ported_records records keyed wellFormed name

theorem hasInterface_linked_of_known (row : InterfaceRow)
    (member : row ∈ absorption.known) :
    absorption.linked.registry.hasInterface row.name = true := by
  have registered := ((mem_known_iff row).mp member).2
  rw [(reduced_records records keyed).hasInterface_eq] at registered
  rw [(linked_records records keyed wellFormed).hasInterface_eq]
  obtain ⟨old, present⟩ := (Dict.contains_iff _ _).mp registered
  refine (Dict.contains_iff _ _).mpr ⟨old, ?_⟩
  rw [get?_putAll_of_not_mem, present]
  intro again
  obtain ⟨other, isFresh, same⟩ := List.mem_map.mp again
  apply fresh_not_known isFresh
  rw [show other.name = row.name from same]
  exact List.mem_map_of_mem member

theorem result_records :
    absorption.result.registry.Records
      (Change.applyAll image absorption.batch.interfaces) absorption.result.maxMtu := by
  rw [← putAll_eq_applyAll image wellFormed]
  exact reviseAll_records (linked_records records keyed wellFormed)
    (putAll_keyed (eraseAll_keyed keyed _) _)
    (hasInterface_linked_of_known records keyed wellFormed)

end Records

/-! ## The limit in effect -/

theorem forgetAll_maxMtu (names : List String) (work : Work) :
    (names.foldl forget work).maxMtu = work.maxMtu := by
  induction names generalizing work with
  | nil => rfl
  | cons name rest ih => exact (ih (work.forget name)).trans (maxMtu_forget work name)

theorem reviseAll_maxMtu (revised : List InterfaceRow) (work : Work) :
    (revised.foldl revise work).maxMtu = work.maxMtu := by
  induction revised generalizing work with
  | nil => rfl
  | cons row rest ih => exact (ih (work.revise row)).trans (maxMtu_revise work row)

theorem result_maxMtu (wellFormed : Change.WellFormed absorption.batch.interfaces) :
    absorption.result.maxMtu = absorption.limited.maxMtu := by
  calc absorption.result.maxMtu
      = absorption.linked.maxMtu := reviseAll_maxMtu absorption.known absorption.linked
    _ = absorption.ported.maxMtu := (linkAll_touched absorption.ported _).maxMtu
    _ = absorption.enrolled.maxMtu := (followPorts_inherited absorption.enrolled _).maxMtu
    _ = absorption.reduced.maxMtu := (enrolled_enrolled wellFormed).maxMtu
    _ = absorption.limited.maxMtu := forgetAll_maxMtu absorption.deleted absorption.limited

/-- The limit that the rows of an image set for a subsystem; zero without a row. -/
def limitUnder (subsystem : String) (image : Dict SubsystemRow) : UInt32 :=
  ((image.get? subsystem).map maxMtuOf).getD 0

theorem maxMtu_followSubsystem_put (subsystem : String) (work : Work)
    (row : SubsystemRow) :
    (work.followSubsystem subsystem (.ofRow row)).maxMtu =
      if row.name = subsystem then maxMtuOf row else work.maxMtu := by
  have key : (Change.ofRow row).key = row.name := rfl
  have carried : (Change.ofRow row).row = some row := rfl
  unfold followSubsystem
  rw [key, carried]
  by_cases own : row.name = subsystem
  · simp only [own, if_true]
    split
    next same => exact same.symm
    next => rfl
  · simp only [own, if_false]

theorem followSubsystems_limit (subsystem : String) {image : Dict SubsystemRow}
    {work : Work} (limit : work.maxMtu = limitUnder subsystem image)
    (changes : List (Change SubsystemRow))
    (puts : ∀ change ∈ changes, ∃ row, change = .ofRow row) :
    (changes.foldl (followSubsystem subsystem) work).maxMtu =
      limitUnder subsystem (Change.applyAll image changes) := by
  induction changes generalizing work image with
  | nil => exact limit
  | cons change rest ih =>
      obtain ⟨⟨row, rfl⟩, tail⟩ := List.forall_mem_cons.mp puts
      refine ih ?_ tail
      rw [maxMtu_followSubsystem_put]
      unfold limitUnder
      rw [show Change.apply image (.ofRow row) = image.insert row.name row from rfl,
        Dict.get?_insert]
      by_cases own : row.name = subsystem
      · rw [if_pos own, if_pos own]
        rfl
      · rw [if_neg own, if_neg own]
        exact limit

end Absorption

end LinkReconciler
