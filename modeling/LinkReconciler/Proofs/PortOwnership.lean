import LinkReconciler.Proofs.ColumnBaseline
import LinkReconciler.Proofs.HardwareColumns

/-!
Ownership by ports. After every reconciliation an interface has the admin state of the
first port in name order that lists it, and serves only where that port is up. One that
no port lists any more is switched off, in the transaction that goes with the batch.
-/

namespace LinkReconciler

theorem Dict.exists_first_of_find?_values {β : Type} {dict : Dict β} {test : β → Bool}
    {value : β} (first : dict.values.find? test = some value) :
    ∃ key, dict.get? key = some value ∧ test value = true ∧
      ∀ other passed, dict.get? other = some passed → test passed = true → key ≤ other := by
  rw [Dict.values, List.find?_map] at first
  obtain ⟨⟨key, _⟩, found, rfl⟩ := Option.map_eq_some_iff.mp first
  obtain ⟨passes, before, after, split, earlier⟩ := List.find?_eq_some_iff_append.mp found
  have sorted := dict.sorted
  refine ⟨key, (dict.get?_eq_some_iff _ _).mpr ?_, passes, ?_⟩
  · simp [split]
  · intro other passed present passesToo
    have member := (dict.get?_eq_some_iff _ _).mp present
    rw [split] at member sorted
    rcases List.mem_append.mp member with ahead | behind
    · have fails := earlier _ ahead
      simp [passesToo] at fails
    · rcases List.mem_cons.mp behind with same | later
      · cases same
        exact String.le_refl _
      · have follows := List.pairwise_cons.mp (List.pairwise_append.mp sorted).2.1
        exact String.not_lt.mp (String.lt_asymm (follows.1 _ later))

namespace Registry

/-! ## Owners -/

/-- The port of a name is the first in name order that lists the interface. -/
structure OwnedBy (registry : Registry) (interface port : String) (entry : Port) :
    Prop where
  known : registry.port? port = some entry
  lists : interface ∈ entry.members
  first : ∀ other claimant, registry.port? other = some claimant →
    interface ∈ claimant.members → port ≤ other

def Unclaimed (registry : Registry) (interface : String) : Prop :=
  ∀ port entry, registry.port? port = some entry → interface ∉ entry.members

variable {registry : Registry} {interface : String}

theorem hasMember_iff (port : Port) (interface : String) :
    port.hasMember interface = true ↔ interface ∈ port.members :=
  List.contains_iff_mem

theorem exists_ownedBy {entry : Port}
    (claims : registry.portClaiming? interface = some entry) :
    ∃ port, registry.OwnedBy interface port entry := by
  obtain ⟨port, known, lists, first⟩ := Dict.exists_first_of_find?_values claims
  refine ⟨port, known, (hasMember_iff entry interface).mp lists, ?_⟩
  intro other claimant present listsToo
  exact first other claimant present ((hasMember_iff claimant interface).mpr listsToo)

theorem portClaiming?_eq_none_iff :
    registry.portClaiming? interface = none ↔ registry.Unclaimed interface := by
  unfold portClaiming? Unclaimed
  rw [List.find?_eq_none]
  constructor
  · intro none port entry known lists
    refine none entry ((Dict.mem_values_iff _ entry).mpr ⟨port, known⟩) ?_
    exact (hasMember_iff entry interface).mpr lists
  · intro unclaimed entry member lists
    obtain ⟨port, known⟩ := (Dict.mem_values_iff _ entry).mp member
    exact unclaimed port entry known ((hasMember_iff entry interface).mp lists)

theorem portClaiming?_of_ownedBy {port : String} {entry : Port}
    (owned : registry.OwnedBy interface port entry) :
    registry.portClaiming? interface = some entry := by
  cases claims : registry.portClaiming? interface with
  | none => exact absurd owned.lists (portClaiming?_eq_none_iff.mp claims port entry owned.known)
  | some claimant =>
      obtain ⟨other, owns⟩ := exists_ownedBy claims
      have same : port = other := String.le_antisymm
        (owned.first other claimant owns.known owns.lists)
        (owns.first port entry owned.known owned.lists)
      subst same
      rw [← owned.known, owns.known]

theorem inheritedAdmin_of_ownedBy {port : String} {entry : Port}
    (owned : registry.OwnedBy interface port entry) :
    registry.inheritedAdmin interface = entry.admin := by
  unfold inheritedAdmin
  rw [portClaiming?_of_ownedBy owned]

theorem inheritedAdmin_of_unclaimed (unclaimed : registry.Unclaimed interface) :
    registry.inheritedAdmin interface = .down := by
  unfold inheritedAdmin
  rw [portClaiming?_eq_none_iff.mpr unclaimed]

theorem exists_up_of_inheritedAdmin (up : registry.inheritedAdmin interface = .up) :
    ∃ port entry, registry.OwnedBy interface port entry ∧ entry.admin = .up := by
  unfold inheritedAdmin at up
  cases claims : registry.portClaiming? interface with
  | none =>
      rw [claims] at up
      cases up
  | some entry =>
      rw [claims] at up
      obtain ⟨port, owned⟩ := exists_ownedBy claims
      exact ⟨port, entry, owned, up⟩

end Registry

namespace Interface

theorem portAdmin_of_enabled {interface : Interface} {parentSplit : Option LaneSplit}
    (derived : interface.Derived parentSplit) (enabled : interface.oper.enabled = true) :
    interface.portAdmin = .up := by
  rw [derived.1, enabled_derive] at enabled
  unfold disableReason at enabled
  split at enabled
  next logical =>
    obtain ⟨_, enabled⟩ := passed enabled nofun
    exact interface.portAdmin.ne_down_iff.mp (passed enabled nofun).1
  next physical =>
    exact (usable_of_physicalReason interface.reason_linkState_ne_ok enabled).port

theorem hwConfig_of_portDown {interface : Interface} {parentSplit : Option LaneSplit}
    (derived : interface.Derived parentSplit) (down : interface.portAdmin = .down) :
    interface.hwConfig = .ofList [("enable", "false")] := by
  have out : interface.oper.enabled = false := by
    refine Bool.eq_false_iff.mpr fun enabled => ?_
    rw [portAdmin_of_enabled derived enabled] at down
    cases down
  rw [derived.2.1, hwColumns_of_idle (Or.inl out), out]
  rfl

end Interface

namespace Work

/-! ## Batches of any contents -/

theorem followSubsystem_claimed {work : Work} (claimed : Claimed work.registry)
    (subsystem : String) (change : Change SubsystemRow) :
    Claimed (work.followSubsystem subsystem change).registry := by
  rcases followSubsystem_cases work subsystem change with same | ⟨limit, same⟩
  · rwa [same]
  · rw [same]
    refine claimed.transfer rfl fun name interface found => Or.inl ?_
    rw [interface?_limitMtu] at found
    obtain ⟨previous, was, rfl⟩ := Option.map_eq_some_iff.mp found
    exact ⟨previous, was, rfl⟩

theorem enroll_claimed {work : Work} (claimed : Claimed work.registry) (arbiter : Arbiter)
    {row : InterfaceRow} (absent : work.registry.hasInterface row.name = false) :
    Claimed (work.enroll arbiter row).registry := by
  have ports : (work.enroll arbiter row).registry.ports = work.registry.ports := by
    rw [enroll_new arbiter absent]
  refine claimed.transfer ports fun name interface found => ?_
  rw [interface?_enroll arbiter absent] at found
  split at found
  next own =>
    cases found
    exact Or.inr (own ▸ rfl)
  · exact Or.inl ⟨interface, found, rfl⟩

theorem absorb_claimed {work : Work} (claimed : Claimed work.registry) (subsystem : String)
    (arbiter : Arbiter) (batch : Batch) :
    Claimed (work.absorb subsystem arbiter batch).registry :=
  absorb_induction (motive := fun work _ => Claimed work.registry)
    (fun _ change claimed => followSubsystem_claimed claimed subsystem change)
    (fun _ gone claimed => forget_claimed claimed gone)
    (fun _ _ _ absent claimed => enroll_claimed claimed arbiter absent)
    (fun _ _ changes claimed => followPorts_claimed claimed changes)
    (fun work name _ claimed => (linkInserted_touched work name).claimed claimed)
    (fun _ row claimed => (revise_claims claimed row).2) claimed batch

end Work

namespace Manager

open Work

theorem absorbed_claimed (config : Config) (batches : List Batch) :
    Claimed ((ofConfig config).absorbed batches).registry := by
  refine absorbed_induction (motive := fun manager => Claimed manager.registry) ?_ ?_ batches
  · intro manager batch claimed
    have absorbed : Claimed (manager.absorb batch).registry := absorb_claimed claimed _ _ batch
    exact settle_claimed absorbed
  · rintro _ _ ⟨⟩

def switchedOff : ColumnMap :=
  .ofList [("enable", "false")]

/-- After every batch, whatever the batches hold, an interface has the admin state of
its owner and serves only under an owner that is up. One that no port lists, be it that
it lost its last port in this batch, is switched off, and the transaction says so unless
its column did already. -/
theorem ownership_reflected (config : Config) (earlier : List Batch) (batch : Batch)
    {name : String} {interface : Interface}
    (found : (((ofConfig config).absorbed earlier).reconcile batch ∅).1.registry.interface?
      name = some interface) :
    let manager := (ofConfig config).absorbed earlier
    let registry := (manager.reconcile batch ∅).1.registry
    let written := (manager.reconcile batch ∅).2.under name
    interface.portAdmin = registry.inheritedAdmin name ∧
      (∀ port entry, registry.OwnedBy name port entry → interface.portAdmin = entry.admin) ∧
      (registry.Unclaimed name → interface.portAdmin = .down) ∧
      (interface.oper.enabled = true →
        ∃ port entry, registry.OwnedBy name port entry ∧ entry.admin = .up) ∧
      (registry.Unclaimed name →
        interface.hwConfig = switchedOff ∧
          (written.hwConfig = some switchedOff ↔
            (manager.baseline batch name).map (·.hwConfig) ≠ some switchedOff)) := by
  intro manager registry written
  have upheld : manager.Upheld := absorbed_upheld config earlier
  have claimed : Claimed registry := by
    have all := absorbed_claimed config (earlier ++ [batch])
    rwa [absorbed_append] at all
  have inherits : interface.portAdmin = registry.inheritedAdmin name :=
    claimed name interface found
  obtain ⟨parentSplit, derived⟩ := (reconcile_upheld upheld batch).derived name interface found
  refine ⟨inherits, ?owned, ?unclaimed, ?serves, ?lost⟩
  case owned =>
    intro port entry owned
    rw [inherits, Registry.inheritedAdmin_of_ownedBy owned]
  case unclaimed =>
    intro unclaimed
    rw [inherits, Registry.inheritedAdmin_of_unclaimed unclaimed]
  case serves =>
    intro enabled
    have up := Interface.portAdmin_of_enabled derived enabled
    exact Registry.exists_up_of_inheritedAdmin (inherits.symm.trans up)
  case lost =>
    intro unclaimed
    have off : interface.hwConfig = switchedOff := by
      refine Interface.hwConfig_of_portDown derived ?_
      rw [inherits, Registry.inheritedAdmin_of_unclaimed unclaimed]
    refine ⟨off, ?_⟩
    obtain ⟨previous, was, _, under⟩ := reconcile_interface upheld batch found
    rw [show written = .between previous interface from under,
      RowUpdate.hwConfig_between_eq_some_iff, baseline_of_absorbed was]
    simp [off, Interface.columns]

def loopback : InterfaceRow where
  name := "lo"
  kind := "loopback"
  userConfig := .ofList [("admin", "up")]

def sharedPort : Batch where
  interfaces := [.ofRow loopback]
  ports := [.ofRow { name := "p", interfaces := ["lo"] },
    .ofRow { name := "q", admin := some "down", interfaces := ["lo"] }]

/-- One of the ports drops the interface and the other goes, while the row comes back
with what was written for it. -/
def released : Batch where
  interfaces := [.ofRow { loopback with hwConfig := .ofList [("enable", "true")] }]
  ports := [.ofRow { name := "p" }, .del "q"]

theorem released_switchedOff :
    let manager := (ofConfig {}).absorbed [sharedPort]
    (manager.registry.interface? "lo").map (·.oper.enabled) = some true ∧
      ∃ interface, (manager.reconcile released ∅).1.registry.interface? "lo" = some interface ∧
        interface.portAdmin = .down ∧ interface.hwConfig = switchedOff ∧
        ((manager.reconcile released ∅).2.under "lo").hwConfig = some switchedOff := by
  intro manager
  obtain ⟨interface, found⟩ : ∃ interface,
      (manager.reconcile released ∅).1.registry.interface? "lo" = some interface :=
    Option.isSome_iff_exists.mp (by decide +kernel)
  have unclaimed : (manager.reconcile released ∅).1.registry.Unclaimed "lo" :=
    Registry.portClaiming?_eq_none_iff.mp (by decide +kernel)
  have on : (manager.baseline released "lo").map (·.hwConfig) ≠ some switchedOff := by
    decide +kernel
  obtain ⟨_, _, down, _, lost⟩ := ownership_reflected {} [sharedPort] released found
  obtain ⟨off, queued⟩ := lost unclaimed
  exact ⟨by decide +kernel, interface, found, down unclaimed, off, queued.mpr on⟩

end Manager

end LinkReconciler
