import LinkReconciler.Proofs.HardwareColumns

/-!
The reason that an interface is out of service for. Reasons have a precedence, and the
first that holds against an interface is the one given. Whether one holds can be told
from the inputs of the derivation, without the steps between: a size or speeds that are
unusable leave negotiation undecided, but then they are themselves the earlier reason.
-/

namespace LinkReconciler

/-! ## Reasons in their order -/

/-- The reasons that are looked at for an interface of a kind, first to last. A logical
interface has no lanes, no module and no link. -/
def InterfaceKind.precedence : InterfaceKind → List DisableReason
  | .system =>
      [.lanesSplit, .lanesNotSplit, .adminDown, .moduleMissing, .moduleUnrecognized,
        .moduleUnsupported, .invalidMtu, .invalidSpeeds, .autonegNotSupported,
        .autonegRequired, .portAdminDown, .ok]
  | .internal | .vlanSubinterface | .loopback => [.adminDown, .portAdminDown, .ok]

def Interface.medium (interface : Interface) : AutonegCapability :=
  (MediumProfile.ofTransceiver interface.transceiver).capability

/-- Whether a reason holds against an interface, by the inputs of the derivation. -/
def Interface.Against (interface : Interface) (parentSplit : Option LaneSplit) :
    DisableReason → Prop
  | .uninitialized => False
  | .lanesSplit => interface.splitChildren ≠ [] ∧ interface.user.laneSplit = .split
  | .lanesNotSplit => parentSplit = some .noSplit
  | .adminDown => interface.user.admin = .down
  | .moduleMissing => interface.transceiver.connector = .absent
  | .moduleUnrecognized => interface.transceiver.status = .unrecognized
  | .moduleUnsupported =>
      interface.transceiver.status = .unsupported ∨
        interface.transceiver.flags.isEmpty = true
  | .invalidMtu => interface.user.mtu = .invalid
  | .invalidSpeeds => interface.user.speeds = .invalid
  | .autonegNotSupported =>
      interface.user.autoneg = .on ∧ interface.medium = .unsupported
  | .autonegRequired => interface.user.autoneg = .off ∧ interface.medium = .required
  | .portAdminDown => interface.portAdmin = .down
  | .ok => True

instance (interface : Interface) (parentSplit : Option LaneSplit) :
    DecidablePred (interface.Against parentSplit)
  | .uninitialized => inferInstanceAs (Decidable False)
  | .lanesSplit => inferInstanceAs (Decidable (_ ∧ _))
  | .lanesNotSplit => inferInstanceAs (Decidable (_ = _))
  | .adminDown => inferInstanceAs (Decidable (_ = _))
  | .moduleMissing => inferInstanceAs (Decidable (_ = _))
  | .moduleUnrecognized => inferInstanceAs (Decidable (_ = _))
  | .moduleUnsupported => inferInstanceAs (Decidable (_ ∨ _))
  | .invalidMtu => inferInstanceAs (Decidable (_ = _))
  | .invalidSpeeds => inferInstanceAs (Decidable (_ = _))
  | .autonegNotSupported => inferInstanceAs (Decidable (_ ∧ _))
  | .autonegRequired => inferInstanceAs (Decidable (_ ∧ _))
  | .portAdminDown => inferInstanceAs (Decidable (_ = _))
  | .ok => inferInstanceAs (Decidable True)

def Interface.first? (interface : Interface) (parentSplit : Option LaneSplit)
    (reasons : List DisableReason) : Option DisableReason :=
  reasons.find? fun reason => interface.Against parentSplit reason

/-! ## The decision on negotiation -/

namespace AutonegDecision

variable (capability : AutonegCapability) (preference : AutonegPreference)
  (given defaults : List Speed) (hardware : SpeedList)

theorem decide_cases :
    let decision := decide capability preference given defaults hardware
    (preference = .on ∧ capability = .unsupported ∧
      decision = refuse .autonegNotSupported defaults) ∨
    (preference = .off ∧ capability = .required ∧
      decision = refuse .autonegRequired defaults) ∨
    (¬ (preference = .on ∧ capability = .unsupported) ∧
      ¬ (preference = .off ∧ capability = .required) ∧
      decision.state ≠ .invalid ∧ decision.reason = none) := by
  cases preference with
  | on => cases capability <;> simp [decide, negotiate]
  | unset => cases capability <;> simp [decide, negotiate, fixed]
  | off =>
      cases capability with
      | unsupported => simp [decide, fixed]
      | required => simp [decide]
      | optional =>
          simp only [decide]
          split <;> simp [fixed]

theorem reason_decide_isSome :
    (decide capability preference given defaults hardware).reason.isSome = true ↔
      (decide capability preference given defaults hardware).state = .invalid := by
  obtain ⟨_, _, refused⟩ | ⟨_, _, refused⟩ | ⟨_, _, valid, free⟩ :=
    decide_cases capability preference given defaults hardware
  · simp [refused, refuse]
  · simp [refused, refuse]
  · simp [valid, free]

theorem refusal_decide (otherwise : DisableReason) :
    let decision := decide capability preference given defaults hardware
    (if decision.state = .invalid then decision.reason.getD .uninitialized else otherwise) =
      if preference = .on ∧ capability = .unsupported then .autonegNotSupported
      else if preference = .off ∧ capability = .required then .autonegRequired
      else otherwise := by
  obtain ⟨rfl, rfl, _⟩ | ⟨rfl, rfl, _⟩ | ⟨able, willing, valid, _⟩ :=
    decide_cases capability preference given defaults hardware
  · rfl
  · rfl
  · simp [valid, able, willing]

end AutonegDecision

namespace Interface

/-! ## The link -/

section Link
variable (interface : Interface)

/-- The state of a link whose size or speeds are unusable: nothing is decided. -/
def undecidedLink : OperState where
  mtu := interface.user.mtu.inEffect
  autonegCapability := interface.medium
  speeds := if interface.user.speeds = .invalid then .invalid else .valid []

theorem linkState_of_unusable
    (unusable : interface.user.mtu = .invalid ∨ interface.user.speeds = .invalid) :
    interface.linkState = interface.undecidedLink := by
  cases speeds : interface.user.speeds with
  | invalid => simp [linkState, undecidedLink, speeds, medium]
  | valid given =>
      have size : interface.user.mtu = .invalid := unusable.resolve_right (by simp [speeds])
      simp [linkState, undecidedLink, speeds, size, medium, Mtu.inEffect, Mtu.isInvalid]

theorem linkState_cases :
    ((interface.user.mtu = .invalid ∨ interface.user.speeds = .invalid) ∧
      interface.linkState = interface.undecidedLink) ∨
    ∃ given, interface.user.mtu ≠ .invalid ∧ interface.user.speeds = .valid given ∧
      interface.linkState = interface.decidedLink given := by
  by_cases unusable : interface.user.mtu = .invalid ∨ interface.user.speeds = .invalid
  · exact Or.inl ⟨unusable, interface.linkState_of_unusable unusable⟩
  · obtain ⟨size, usable⟩ := not_or.mp unusable
    cases speeds : interface.user.speeds with
    | invalid => exact absurd speeds usable
    | valid given => exact Or.inr ⟨given, size, rfl, linkState_of_valid speeds size⟩

theorem mtu_linkState :
    interface.linkState.mtu.isInvalid = true ↔ interface.user.mtu = .invalid := by
  have effective : interface.linkState.mtu = interface.user.mtu.inEffect := by
    rcases interface.linkState_cases with ⟨_, same⟩ | ⟨_, _, _, same⟩ <;> rw [same] <;> rfl
  rw [effective]
  cases interface.user.mtu <;> simp [Mtu.inEffect, Mtu.isInvalid]

theorem speeds_linkState :
    interface.linkState.speeds.isInvalid = true ↔ interface.user.speeds = .invalid := by
  rcases interface.linkState_cases with ⟨_, same⟩ | ⟨given, _, usable, same⟩
  · rw [same]
    cases speeds : interface.user.speeds <;> simp [undecidedLink, SpeedList.isInvalid, speeds]
  · simp [same, decidedLink, SpeedList.isInvalid, usable]

theorem reason_linkState_isSome :
    interface.linkState.autonegReason.isSome = true ↔
      interface.linkState.autonegState = .invalid := by
  rcases interface.linkState_cases with ⟨_, same⟩ | ⟨given, _, _, same⟩
  · rw [same]
    exact ⟨nofun, nofun⟩
  · rw [same]
    exact AutonegDecision.reason_decide_isSome ..

end Link

/-! ## The chain -/

section Chain
variable (interface : Interface) (parentSplit : Option LaneSplit)

theorem against_of_first? {reasons : List DisableReason} {reason : DisableReason}
    (first : interface.first? parentSplit reasons = some reason) :
    interface.Against parentSplit reason := by
  have holds := List.find?_some first
  exact of_decide_eq_true holds

/-- One more reason before a chain. What follows it matters only where it does not
hold. -/
theorem first?_cons {condition : Prop} [Decidable condition] {reason others : DisableReason}
    {reasons : List DisableReason} (same : condition ↔ interface.Against parentSplit reason)
    (rest : ¬ condition → interface.first? parentSplit reasons = some others) :
    interface.first? parentSplit (reason :: reasons) =
      some (if condition then reason else others) := by
  unfold first? at rest ⊢
  rw [List.find?_cons]
  by_cases holds : condition
  · rw [if_pos holds, decide_eq_true (same.mp holds)]
  · rw [if_neg holds, decide_eq_false (fun against => holds (same.mpr against))]
    exact rest holds

theorem first?_port : interface.first? parentSplit [.portAdminDown, .ok] =
    some (if interface.portAdmin = .down then .portAdminDown else .ok) :=
  interface.first?_cons parentSplit Iff.rfl fun _ => rfl

theorem first?_logical :
    interface.first? parentSplit [.adminDown, .portAdminDown, .ok] =
      some interface.logicalReason :=
  interface.first?_cons parentSplit Iff.rfl fun _ => interface.first?_port parentSplit

theorem first?_negotiation (size : interface.user.mtu ≠ .invalid)
    (speeds : interface.user.speeds ≠ .invalid) :
    interface.first? parentSplit [.autonegNotSupported, .autonegRequired, .portAdminDown, .ok] =
      some (if interface.linkState.autonegState = .invalid then
          interface.linkState.autonegReason.getD .uninitialized
        else if interface.portAdmin = .down then .portAdminDown
        else .ok) := by
  obtain ⟨unusable, _⟩ | ⟨given, _, _, decided⟩ := interface.linkState_cases
  · exact absurd unusable (not_or.mpr ⟨size, speeds⟩)
  · have refusal := AutonegDecision.refusal_decide interface.medium interface.user.autoneg
      given (MediumProfile.ofTransceiver interface.transceiver).defaultSpeeds
      interface.cage.speeds (if interface.portAdmin = .down then .portAdminDown else .ok)
    rw [decided]
    refine Eq.trans ?_ (congrArg some refusal.symm)
    refine interface.first?_cons parentSplit Iff.rfl fun _ => ?_
    refine interface.first?_cons parentSplit Iff.rfl fun _ => ?_
    exact interface.first?_port parentSplit

theorem first?_physical :
    interface.first? parentSplit InterfaceKind.system.precedence =
      some (interface.physicalReason parentSplit interface.linkState) := by
  have splits : (interface.isSplitParent && interface.user.laneSplit = .split) = true ↔
      interface.Against parentSplit .lanesSplit := by
    simp [isSplitParent, Against]
  have supports : (interface.transceiver.status = .unsupported ||
      interface.transceiver.flags.isEmpty) = true ↔
      interface.Against parentSplit .moduleUnsupported := by
    simp [Against]
  refine interface.first?_cons parentSplit splits fun _ => ?_
  refine interface.first?_cons parentSplit Iff.rfl fun _ => ?_
  refine interface.first?_cons parentSplit Iff.rfl fun _ => ?_
  refine interface.first?_cons parentSplit Iff.rfl fun _ => ?_
  refine interface.first?_cons parentSplit Iff.rfl fun _ => ?_
  refine interface.first?_cons parentSplit supports fun _ => ?_
  refine interface.first?_cons parentSplit interface.mtu_linkState fun size => ?_
  refine interface.first?_cons parentSplit interface.speeds_linkState fun speeds => ?_
  exact interface.first?_negotiation parentSplit (mt interface.mtu_linkState.mpr size)
    (mt interface.speeds_linkState.mpr speeds)

theorem first?_disableReason :
    interface.first? parentSplit interface.kind.precedence =
      some (interface.disableReason parentSplit interface.linkState) := by
  unfold disableReason
  cases interface.kind with
  | system => exact interface.first?_physical parentSplit
  | internal => exact interface.first?_logical parentSplit
  | vlanSubinterface => exact interface.first?_logical parentSplit
  | loopback => exact interface.first?_logical parentSplit

/-! ## The derivation -/

theorem reason_derive : (interface.derive parentSplit).reason =
    interface.disableReason parentSplit interface.linkState := by
  unfold derive
  dsimp only
  split <;> rfl

theorem autonegReason_derive : (interface.derive parentSplit).autonegReason =
    interface.linkState.autonegReason := by
  unfold derive
  dsimp only
  split <;> rfl

theorem linkState_idle : interface.linkState.enabled = false ∧
    interface.linkState.pause = .none ∧ interface.linkState.duplex = .full := by
  rcases interface.linkState_cases with ⟨_, same⟩ | ⟨_, _, _, same⟩ <;> rw [same] <;>
    exact ⟨rfl, rfl, rfl⟩

theorem modes_derive :
    ((interface.derive parentSplit).enabled = true →
      (interface.derive parentSplit).pause = interface.user.pause ∧
        (interface.derive parentSplit).duplex = interface.user.duplex) ∧
    ((interface.derive parentSplit).enabled = false →
      (interface.derive parentSplit).pause = .none ∧
        (interface.derive parentSplit).duplex = .full) := by
  obtain ⟨idle, modes⟩ := interface.linkState_idle
  unfold derive
  dsimp only
  split
  · exact ⟨fun _ => ⟨rfl, rfl⟩, nofun⟩
  · exact ⟨fun serves => absurd (idle.symm.trans serves) nofun, fun _ => modes⟩

end Chain

/-- The reason is the first of its kind's precedence that holds by the inputs alone, and
always one of these. It decides on the service, and that on pause and duplex mode;
negotiation has a reason of its own exactly where it is refused, and is neither refused
nor switched on where size or speeds are unusable. -/
theorem derive_gives_first_reason (interface : Interface) (parentSplit : Option LaneSplit) :
    let oper := interface.derive parentSplit
    interface.first? parentSplit interface.kind.precedence = some oper.reason ∧
    (oper.enabled = true ↔ oper.reason = .ok) ∧
    oper.reason ≠ .uninitialized ∧
    (oper.autonegReason.isSome = true ↔ oper.autonegState = .invalid) ∧
    (oper.enabled = true →
      oper.pause = interface.user.pause ∧ oper.duplex = interface.user.duplex) ∧
    (oper.enabled = false → oper.pause = .none ∧ oper.duplex = .full) ∧
    (interface.user.mtu = .invalid ∨ interface.user.speeds = .invalid →
      oper.autonegState = .disabled ∧ oper.autonegReason = none ∧
        oper.speeds = if interface.user.speeds = .invalid then .invalid else .valid []) := by
  intro oper
  have chain : interface.first? parentSplit interface.kind.precedence = some oper.reason := by
    rw [interface.first?_disableReason, ← interface.reason_derive]
  have serves : oper.enabled = true ↔ oper.reason = .ok := by
    rw [interface.enabled_derive, ← interface.reason_derive]
  have initialized : oper.reason ≠ .uninitialized := by
    intro uninitialized
    rw [uninitialized] at chain
    exact interface.against_of_first? parentSplit chain
  obtain ⟨_, speeds, state⟩ := interface.link_derive parentSplit
  have reason := interface.autonegReason_derive parentSplit
  obtain ⟨inService, outOfService⟩ := interface.modes_derive parentSplit
  refine ⟨chain, serves, initialized, ?_, inService, outOfService, fun unusable => ?_⟩
  · rw [reason, state]
    exact interface.reason_linkState_isSome
  · rw [state, reason, speeds, interface.linkState_of_unusable unusable]
    exact ⟨rfl, rfl, rfl⟩

end Interface

end LinkReconciler
