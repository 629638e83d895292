import LinkReconciler.Proofs.BatchInvariant
import LinkReconciler.Proofs.Convergence
import LinkReconciler.Proofs.LaneExclusion

/-!
Changes stay local. A batch gets at the interfaces that it names, at the children that
its rows or the interfaces it replaces list, at the members of its ports before and
after, and at those whose user configuration reads otherwise under a new size limit. An
interface that is none of these comes through every step as it was and unmarked, and an
arbitration leaves it alone because it came out of one.
-/

namespace LinkReconciler

/-- A batch goes past an interface: it neither changes the interface, nor an interface
that lists it as a child before or after, nor a port that lists it before or after. -/
structure Batch.Bypasses (batch : Batch) (registry : Registry) (name : String) :
    Prop where
  unset : ∀ change ∈ batch.interfaces, change.key ≠ name
  unlisted : ∀ change ∈ batch.interfaces, ∀ row ∈ change.row, name ∉ row.splitChildren
  wasUnlisted : ∀ change ∈ batch.interfaces, name ∉ registry.childrenOf change.key
  unclaimed : ∀ change ∈ batch.ports, ∀ row ∈ change.row, name ∉ row.interfaces
  wasUnclaimed : ∀ change ∈ batch.ports, ∀ port ∈ registry.port? change.key,
    name ∉ port.members

theorem Batch.bypasses_iff (batch : Batch) (registry : Registry) (name : String) :
    batch.Bypasses registry name ↔
      (∀ change ∈ batch.interfaces, change.key ≠ name ∧
        (∀ row ∈ change.row, name ∉ row.splitChildren) ∧
        name ∉ registry.childrenOf change.key) ∧
      ∀ change ∈ batch.ports, (∀ row ∈ change.row, name ∉ row.interfaces) ∧
        ∀ port ∈ registry.port? change.key, name ∉ port.members := by
  constructor
  · intro bypasses
    exact ⟨fun change member => ⟨bypasses.unset change member,
        bypasses.unlisted change member, bypasses.wasUnlisted change member⟩,
      fun change member => ⟨bypasses.unclaimed change member,
        bypasses.wasUnclaimed change member⟩⟩
  · rintro ⟨interfaces, ports⟩
    exact ⟨fun change member => (interfaces change member).1,
      fun change member => (interfaces change member).2.1,
      fun change member => (interfaces change member).2.2,
      fun change member => (ports change member).1,
      fun change member => (ports change member).2⟩

instance (batch : Batch) (registry : Registry) (name : String) :
    Decidable (batch.Bypasses registry name) :=
  decidable_of_iff _ (batch.bypasses_iff registry name).symm

namespace Work

/-- The interface of a name is as given and not marked. -/
structure Spares (work : Work) (name : String) (interface : Interface) : Prop where
  kept : work.registry.interface? name = some interface
  unmarked : ¬ work.dirty.contains name = true

variable {work before after : Work} {name : String} {interface : Interface}

/-! ## Steps that go past an interface -/

theorem Touched.spares {renewed marked : List String}
    (touched : Touched before after renewed marked) (spares : before.Spares name interface)
    (unreached : name ∉ renewed) (unmarked : name ∉ marked) :
    after.Spares name interface := by
  constructor
  · rw [touched.interface?, if_neg unreached]
    exact spares.kept
  · rw [touched.dirty]
    exact not_or.mpr ⟨unmarked, spares.unmarked⟩

theorem limitMtu_spares (read : work.registry.ReadUnder work.maxMtu)
    (spares : work.Spares name interface) {limit : UInt32}
    (same : userUnder limit interface = interface.user) :
    (work.limitMtu limit).Spares name interface := by
  constructor
  · rw [interface?_limitMtu, spares.kept, Option.map_some, reread, same]
  · intro marked
    rcases (NameSet.contains_addAll_iff work.dirty _ name).mp marked with affected | earlier
    · obtain ⟨other, among, named⟩ := List.mem_map.mp affected
      obtain ⟨member, differs⟩ := List.mem_filter.mp among
      obtain ⟨key, found⟩ := (Dict.mem_values_iff _ other).mp member
      -- An interface of this name is found under it, so it is the one that reads the same.
      rw [← (read key other found).1, named] at found
      cases spares.kept.symm.trans found
      exact of_decide_eq_true differs same
    · exact spares.unmarked earlier

theorem followSubsystem_spares (read : work.registry.ReadUnder work.maxMtu)
    (spares : work.Spares name interface) (subsystem : String)
    (change : Change SubsystemRow)
    (same : userUnder (work.followSubsystem subsystem change).maxMtu interface =
      interface.user) :
    (work.followSubsystem subsystem change).Spares name interface := by
  rcases followSubsystem_cases work subsystem change with idle | ⟨limit, limited⟩
  · rwa [idle]
  · rw [limited] at same ⊢
    exact limitMtu_spares read spares same

theorem followSubsystems_spares (read : work.registry.ReadUnder work.maxMtu)
    (spares : work.Spares name interface) (subsystem : String)
    {changes : List (Change SubsystemRow)} (wellFormed : Change.WellFormed changes)
    (same : userUnder (changes.foldl (followSubsystem subsystem) work).maxMtu interface =
      interface.user) :
    (changes.foldl (followSubsystem subsystem) work).Spares name interface := by
  rw [foldl_followSubsystem_ofKey] at same ⊢
  have folded := wellFormed subsystem
  generalize Change.ofKey subsystem changes = history at folded same
  cases folded with
  | untouched => exact spares
  | deleted =>
      rw [List.foldl_cons, followSubsystem_del]
      exact spares
  | put row => exact followSubsystem_spares read spares subsystem _ same
  | replaced row =>
      rw [List.foldl_cons, followSubsystem_del] at same ⊢
      exact followSubsystem_spares read spares subsystem _ same

theorem forget_spares (spares : work.Spares name interface) {gone : String}
    (other : gone ≠ name) (unlisted : name ∉ work.registry.childrenOf gone) :
    (work.forget gone).Spares name interface := by
  cases found : work.registry.interface? gone with
  | none => rwa [forget_unknown found]
  | some parent =>
      have without : (work.without gone).Spares name interface := by
        constructor
        · exact (Registry.interface?_removeInterface _ gone name).trans
            ((if_neg other).trans spares.kept)
        · simpa [without, NameSet.contains_erase, other] using spares.unmarked
      have orphanage : work.registry.childrenOf gone = parent.splitChildren := by
        simp [Registry.childrenOf, found]
      rw [orphanage] at unlisted
      exact (forget_touched found).spares without
        (fun member => unlisted (List.mem_filter.mp member).1)
        fun member => unlisted (List.mem_filter.mp member).1

theorem childrenOf_forget_subset (work : Work) (gone other : String) :
    (work.forget gone).registry.childrenOf other ⊆ work.registry.childrenOf other := by
  have recorded := recorded?_forget work gone other
  by_cases own : gone = other
  · rw [if_pos own] at recorded
    unfold Registry.childrenOf
    rw [Option.map_eq_none_iff.mp recorded]
    exact List.nil_subset _
  · rw [if_neg own] at recorded
    rw [Registry.childrenOf_of_recorded? recorded]
    exact List.Subset.refl _

theorem forgetAll_spares (names : List String) (spares : work.Spares name interface)
    (others : ∀ gone ∈ names, gone ≠ name ∧ name ∉ work.registry.childrenOf gone) :
    (names.foldl forget work).Spares name interface := by
  induction names generalizing work with
  | nil => exact spares
  | cons gone rest ih =>
      obtain ⟨⟨other, unlisted⟩, tail⟩ := List.forall_mem_cons.mp others
      refine ih (forget_spares spares other unlisted) fun later member => ?_
      exact ⟨(tail later member).1, fun listed =>
        (tail later member).2 (childrenOf_forget_subset work gone later listed)⟩

theorem Inherited.spares {concerned : List String}
    (inherited : Inherited before after concerned) (spares : before.Spares name interface)
    (unconcerned : name ∉ concerned) : after.Spares name interface := by
  constructor
  · rw [inherited.interface?, if_neg unconcerned]
    exact spares.kept
  · rw [inherited.dirty]
    exact not_or.mpr ⟨fun marked => unconcerned marked.1, spares.unmarked⟩

theorem revise_spares (spares : work.Spares name interface) {row : InterfaceRow}
    (other : row.name ≠ name) (unlisted : name ∉ row.splitChildren) :
    (work.revise row).Spares name interface := by
  cases found : work.registry.interface? row.name with
  | none => rwa [revise_unknown found]
  | some old =>
      obtain ⟨renewed, marked, revised⟩ := revise_revised found
      have unmarked : name ∉ marked := fun member =>
        (revised.within name member).elim (Ne.symm other) unlisted
      refine revised.touched.spares ⟨?_, spares.unmarked⟩
        (fun member => unmarked (revised.marks name member)) unmarked
      rw [interface?_overwritten_ne work old (Ne.symm other)]
      exact spares.kept

/-! ## Ports -/

theorem not_mem_followPort {registry : Registry} {change : Change PortRow}
    (proper : change.Proper) (unclaimed : ∀ row ∈ change.row, name ∉ row.interfaces)
    (wasUnclaimed : ∀ port ∈ registry.port? change.key, name ∉ port.members) :
    name ∉ (followPort registry change).1 := by
  cases proper with
  | put row =>
      refine List.not_mem_append (unclaimed row rfl) fun listed => ?_
      cases old : registry.port? row.name with
      | none =>
          rw [show registry.port? (Port.ofRow row).name = none from old] at listed
          cases listed
      | some port =>
          rw [show registry.port? (Port.ofRow row).name = some port from old] at listed
          exact wasUnclaimed port old listed
  | deleted key =>
      cases old : registry.port? key with
      | none => simp [followPort, Change.del, old]
      | some port => simpa [followPort, Change.del, old] using wasUnclaimed port old

theorem not_mem_followPortChanges {registry : Registry} {changes : List (Change PortRow)}
    (proper : ∀ change ∈ changes, change.Proper)
    (unclaimed : ∀ change ∈ changes, ∀ row ∈ change.row, name ∉ row.interfaces)
    (wasUnclaimed : ∀ change ∈ changes, ∀ port ∈ registry.port? change.key,
      name ∉ port.members) :
    name ∉ (followPortChanges changes registry).1 := by
  induction changes generalizing registry with
  | nil => exact List.not_mem_nil
  | cons change rest ih =>
      obtain ⟨head, tail⟩ := List.forall_mem_cons.mp proper
      obtain ⟨claims, others⟩ := List.forall_mem_cons.mp unclaimed
      obtain ⟨had, hadOthers⟩ := List.forall_mem_cons.mp wasUnclaimed
      refine List.not_mem_append (not_mem_followPort head claims had) ?_
      refine ih tail others fun later member port known => ?_
      -- A later change of the same port finds the members that this one gave it.
      have followed := (port?_followPort registry head later.key).symm.trans known
      split at followed
      · obtain ⟨row, carried, rfl⟩ := Option.map_eq_some_iff.mp followed
        exact claims row carried
      · exact hadOthers later member port followed

end Work

/-! ## The stages of a batch -/

namespace Absorption

open Work

variable {absorption : Absorption} {name : String} {interface : Interface}

theorem limited_frame (absorption : Absorption) :
    absorption.limited.registry.childrenOf = absorption.start.registry.childrenOf ∧
      absorption.limited.registry.ports = absorption.start.registry.ports := by
  refine List.foldlRecOn (motive := fun work : Work =>
    work.registry.childrenOf = absorption.start.registry.childrenOf ∧
      work.registry.ports = absorption.start.registry.ports) _ _ ⟨rfl, rfl⟩ ?_
  rintro work ⟨children, ports⟩ change _
  rcases followSubsystem_cases work absorption.subsystem change with idle | ⟨limit, limited⟩
  · rw [idle]
    exact ⟨children, ports⟩
  · rw [limited]
    refine ⟨Eq.trans (funext fun parent => ?_) children, ports⟩
    unfold Registry.childrenOf
    rw [interface?_limitMtu]
    cases work.registry.interface? parent <;> rfl

theorem childrenOf_ported (wellFormed : Change.WellFormed absorption.batch.interfaces)
    {row : InterfaceRow} (member : row ∈ absorption.fresh) :
    absorption.ported.registry.childrenOf row.name = row.splitChildren := by
  have recorded : absorption.ported.registry.recorded? row.name =
      absorption.enrolled.registry.recorded? row.name :=
    congrFun (followPorts_recorded? absorption.enrolled absorption.batch.ports) row.name
  rw [Registry.childrenOf_of_recorded? recorded]
  unfold Registry.childrenOf
  rw [(enrolled_enrolled wellFormed).newcomers row member]
  rfl

section Stages
variable (wellFormed : absorption.batch.WellFormed)
  (bypasses : absorption.batch.Bypasses absorption.start.registry name)
include wellFormed bypasses

theorem row_bypasses {row : InterfaceRow} (member : row ∈ absorption.rows) :
    row.name ≠ name ∧ name ∉ row.splitChildren := by
  have among := Change.ofRow_mem_of_mem_rows wellFormed.interfaces member
  exact ⟨bypasses.unset _ among, bypasses.unlisted _ among row rfl⟩

omit wellFormed in
theorem reduced_spares (spares : absorption.limited.Spares name interface) :
    absorption.reduced.Spares name interface := by
  refine forgetAll_spares absorption.deleted spares fun gone member => ?_
  obtain ⟨change, among, rfl⟩ := List.mem_map.mp member
  have changes := (List.mem_filter.mp among).1
  refine ⟨bypasses.unset change changes, ?_⟩
  rw [absorption.limited_frame.1]
  exact bypasses.wasUnlisted change changes

theorem enrolled_spares (spares : absorption.reduced.Spares name interface) :
    absorption.enrolled.Spares name interface := by
  have enrolling := enrolled_enrolled wellFormed.interfaces
  constructor
  · refine (enrolling.others name fun member => ?_).trans spares.kept
    obtain ⟨row, isFresh, named⟩ := List.mem_map.mp member
    exact (row_bypasses wellFormed bypasses ((mem_fresh_iff row).mp isFresh).1).1 named
  · rw [enrolling.dirty]
    exact spares.unmarked

theorem ported_spares (spares : absorption.enrolled.Spares name interface) :
    absorption.ported.Spares name interface := by
  have ports : absorption.enrolled.registry.ports = absorption.start.registry.ports :=
    (enrolled_enrolled wellFormed.interfaces).ports.trans
      ((forgetAll_ports absorption.deleted _).trans absorption.limited_frame.2)
  refine (followPorts_inherited absorption.enrolled absorption.batch.ports).spares spares ?_
  refine not_mem_followPortChanges wellFormed.ports.proper bypasses.unclaimed ?_
  intro change member port known
  unfold Registry.port? at known
  rw [ports] at known
  exact bypasses.wasUnclaimed change member port known

theorem linked_spares (spares : absorption.ported.Spares name interface) :
    absorption.linked.Spares name interface := by
  have apart (linked : String) (member : linked ∈ absorption.fresh.map (·.name)) :
      linked ≠ name ∧ name ∉ absorption.ported.registry.linkedChildren linked := by
    obtain ⟨row, isFresh, rfl⟩ := List.mem_map.mp member
    obtain ⟨other, unlisted⟩ :=
      row_bypasses wellFormed bypasses ((mem_fresh_iff row).mp isFresh).1
    refine ⟨other, fun child => unlisted ?_⟩
    rw [← childrenOf_ported wellFormed.interfaces isFresh]
    exact (List.mem_filter.mp child).1
  refine (linkAll_touched absorption.ported (absorption.fresh.map (·.name))).spares spares ?_ ?_
  · intro reached
    obtain ⟨linked, member, reaches⟩ := List.mem_flatMap.mp reached
    obtain ⟨other, unlinked⟩ := apart linked member
    exact (mem_linkReach reaches).elim (fun own => other own.symm) unlinked
  · intro marked
    obtain ⟨linked, member, marks⟩ := List.mem_flatMap.mp marked
    obtain ⟨other, unlinked⟩ := apart linked member
    exact (List.mem_append.mp marks).elim unlinked fun own =>
      other (List.mem_singleton.mp own).symm

theorem result_spares (spares : absorption.linked.Spares name interface) :
    absorption.result.Spares name interface := by
  refine List.foldlRecOn (motive := fun work : Work => work.Spares name interface) _ _
    spares fun work spares row member => ?_
  obtain ⟨other, unlisted⟩ :=
    row_bypasses wellFormed bypasses ((mem_known_iff row).mp member).1
  exact revise_spares spares other unlisted

theorem spares_of_bypasses (read : absorption.start.registry.ReadUnder absorption.start.maxMtu)
    (spares : absorption.start.Spares name interface)
    (same : userUnder absorption.result.maxMtu interface = interface.user) :
    absorption.result.Spares name interface := by
  rw [result_maxMtu wellFormed.interfaces] at same
  have limited : absorption.limited.Spares name interface :=
    followSubsystems_spares read spares absorption.subsystem wellFormed.subsystems same
  have reduced := reduced_spares bypasses limited
  have enrolled := enrolled_spares wellFormed bypasses reduced
  have ported := ported_spares wellFormed bypasses enrolled
  exact result_spares wellFormed bypasses (linked_spares wellFormed bypasses ported)

end Stages

end Absorption

theorem Work.Spares.settle {work : Work} {name : String} {interface : Interface}
    (spares : work.Spares name interface) {arbiter : Arbiter}
    (fixed : Settlement.arbitrated arbiter interface = interface)
    (named : ∀ name interface, work.registry.interface? name = some interface →
      interface.name = name) :
    (work.settle arbiter ∅).registry.interface? name = some interface ∧
      (work.settle arbiter ∅).transaction.get? name = none := by
  have settled : work.settled arbiter name interface = interface := by
    unfold settled
    rw [refreshed_of_unmarked spares.unmarked]
    exact fixed
  constructor
  · rw [interface?_settle, spares.kept, Option.map_some, settled]
  · rw [(settle_terse arbiter work).get?_eq, under_settle arbiter work named, spares.kept]
    simp only [settled, RowUpdate.between_self]
    rfl

namespace Manager

open Work

theorem absorbed_arbitrated (config : Config) (batches : List Batch) :
    Each (fun _ interface => Settlement.arbitrated
      ((ofConfig config).absorbed batches).arbiter interface = interface)
      ((ofConfig config).absorbed batches).registry := by
  refine absorbed_induction (motive := fun manager => Each (fun _ interface =>
    Settlement.arbitrated manager.arbiter interface = interface) manager.registry) ?_ ?_ batches
  · intro manager batch _ name interface found
    rw [reconcile_registry, interface?_settle] at found
    obtain ⟨previous, _, rfl⟩ := Option.map_eq_some_iff.mp found
    exact Settlement.arbitrated_arbitrated _ _
  · rintro _ _ ⟨⟩

/-- After any batches on a new manager, a batch that goes past an interface leaves it as
it was and writes nothing for it, whatever the batch holds otherwise, provided that the
user configuration reads the same under the limit that the batch leaves. -/
theorem bystander_untouched (config : Config) (batches : List Batch) (batch : Batch)
    (name : String) (interface : Interface) :
    let before := (ofConfig config).absorbed batches
    let outcome := before.reconcile batch ∅
    batch.WellFormed → before.registry.interface? name = some interface →
    batch.Bypasses before.registry name →
    userUnder before.maxMtu interface = userUnder outcome.1.maxMtu interface →
    outcome.1.registry.interface? name = some interface ∧ outcome.2.get? name = none := by
  intro before outcome wellFormed found bypasses same
  have upheld : before.Upheld := absorbed_upheld config batches
  have fixed := absorbed_arbitrated config batches name interface found
  have stages : before.absorb batch = (before.absorption batch).result :=
    Absorption.absorb_eq_result (before.absorption batch) wellFormed.interfaces
  have spares : (before.absorb batch).Spares name interface := by
    rw [stages]
    refine Absorption.spares_of_bypasses wellFormed bypasses upheld.readUnder
      ⟨found, Bool.false_ne_true⟩ ?_
    rw [← stages]
    exact same.symm.trans (upheld.readUnder name interface found).2.symm
  exact spares.settle fixed fun name interface shown =>
    ((absorb_upheld upheld batch).readUnder name interface shown).1

/-- An interface that is in service with the size that its user chose. -/
def bystander : InterfaceRow where
  name := "7"
  hwInfo := .ofList [("connector", "RJ45"), ("speeds", "1000"), ("max_speed", "1000")]
  userConfig := .ofList [("admin", "up"), ("mtu", "1500")]

def oversized : InterfaceRow :=
  { bystander with
    name := "8"
    userConfig := .ofList [("admin", "up"), ("mtu", "9000")] }

def limitRow (limit : String) : SubsystemRow where
  name := "base"
  otherInfo := .ofList [("max_transmission_unit", limit)]

def settledBatch : Batch where
  subsystems := [.ofRow (limitRow "9216")]
  interfaces := [.ofRow bystander, .ofRow oversized, .ofRow (splittable "no-split"), .ofRow lane]
  ports := [.ofRow lanePort, .ofRow ⟨"q", some "up", ["7", "8"]⟩]

/-- The limit is lowered, a parent goes, its child gets speeds that cannot be read, an
unknown kind of interface comes, and the port of the pair changes hands. -/
def upheaval : Batch where
  subsystems := [.del "base", .ofRow (limitRow "2000")]
  interfaces := [.del "49",
    .ofRow { lane with userConfig := .ofList [("admin", "maybe"), ("speeds", "fast")] },
    .ofRow { name := "x", kind := "unheard-of", splitChildren := ["y", "49-1"] }]
  ports := [.ofRow { lanePort with admin := some "asleep", interfaces := ["x", "y"] }]

theorem bystander_untouched_by_upheaval :
    let before := (ofConfig {}).absorbed [settledBatch]
    let outcome := before.reconcile upheaval ∅
    upheaval.WellFormed ∧ upheaval.Bypasses before.registry "7" ∧
      (outcome.1.registry.interface? "8").map (·.user.mtu) = some .invalid ∧
      ∃ interface, interface.oper.enabled = true ∧
        outcome.1.registry.interface? "7" = some interface ∧ outcome.2.get? "7" = none := by
  intro before outcome
  have wellFormed : upheaval.WellFormed := by decide +kernel
  have bypasses : upheaval.Bypasses before.registry "7" := by decide +kernel
  obtain ⟨interface, found⟩ : ∃ interface, before.registry.interface? "7" = some interface :=
    Option.isSome_iff_exists.mp (by decide +kernel)
  have serves : (before.registry.interface? "7").map (·.oper.enabled) = some true := by
    decide +kernel
  have same : (before.registry.interface? "7").map (userUnder before.maxMtu) =
      (before.registry.interface? "7").map (userUnder outcome.1.maxMtu) := by
    decide +kernel
  rw [found] at serves same
  exact ⟨wellFormed, bypasses, by decide +kernel, interface, Option.some.inj serves,
    bystander_untouched {} [settledBatch] upheaval "7" interface wellFormed found bypasses
      (Option.some.inj same)⟩

end Manager

end LinkReconciler
