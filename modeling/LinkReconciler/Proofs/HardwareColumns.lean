import LinkReconciler.Proofs.BatchInvariant
import LinkReconciler.Proofs.LaneExclusion
import LinkReconciler.Proofs.NumericSettings

/-!
What the hardware is told. An interface out of service, and every logical one, is told
no more than whether it is switched on. A physical interface in service is told every
parameter of its link: a size within limits and at least one speed, and exactly one
where it does not negotiate.
-/

namespace LinkReconciler

/-! ## The decision on the speeds -/

theorem MediumProfile.capability_ne_optional (transceiver : Transceiver) :
    (ofTransceiver transceiver).capability ≠ .optional := by
  have decided (isCopper : Bool) : copperOnly isCopper ≠ .optional := by
    cases isCopper <;> decide
  unfold ofTransceiver
  dsimp only
  repeat' split
  all_goals first | exact decided _ | exact nofun

theorem MediumProfile.defaultSpeeds_ofConnector {connector : Connector}
    (family : connector.flags.isEmpty = false) (status : ConnectorStatus) :
    ∃ speed, (ofTransceiver (.ofConnector connector status)).defaultSpeeds = [speed] := by
  cases connector <;> first | exact ⟨_, rfl⟩ | exact absurd family (by decide)

namespace AutonegDecision

variable {capability : AutonegCapability} {preference : AutonegPreference}
  {given defaults : List Speed} {hardware : SpeedList}

theorem decide_eq_of_valid (compelled : capability ≠ .optional)
    (valid : (decide capability preference given defaults hardware).state ≠ .invalid) :
    decide capability preference given defaults hardware = negotiate given defaults ∨
      decide capability preference given defaults hardware =
        fixed (firstOr given defaults) := by
  cases capability with
  | optional => exact absurd rfl compelled
  | required =>
      cases preference with
      | off => exact absurd rfl valid
      | on => exact Or.inl rfl
      | unset => exact Or.inl rfl
  | unsupported =>
      cases preference with
      | on => exact absurd rfl valid
      | off => exact Or.inr rfl
      | unset => exact Or.inr rfl

theorem reason_ne_ok : (decide capability preference given defaults hardware).reason ≠
    some .ok := by
  cases preference with
  | on => cases capability <;> exact nofun
  | unset => cases capability <;> exact nofun
  | off =>
      cases capability with
      | unsupported => exact nofun
      | required => exact nofun
      | optional =>
          simp only [decide]
          split <;> exact nofun

end AutonegDecision

theorem AdminState.ne_down_iff (admin : AdminState) : admin ≠ .down ↔ admin = .up := by
  cases admin <;> decide

namespace Interface

/-! ## A physical interface in service -/

/-- The decision on negotiation and speeds, given the speeds of the user. -/
def decision (interface : Interface) (given : List Speed) : AutonegDecision :=
  let profile := MediumProfile.ofTransceiver interface.transceiver
  .decide profile.capability interface.user.autoneg given profile.defaultSpeeds
    interface.cage.speeds

theorem reason_linkState_ne_ok (interface : Interface) :
    interface.linkState.autonegReason ≠ some .ok := by
  unfold linkState
  split
  · exact nofun
  · dsimp only
    split
    · exact nofun
    · exact AutonegDecision.reason_ne_ok

/-- A physical interface whose module, link and port give no reason against it. -/
structure Usable (interface : Interface) (link : OperState) : Prop where
  family : interface.transceiver.flags.isEmpty = false
  size : link.mtu ≠ .invalid
  speeds : link.speeds ≠ .invalid
  negotiation : link.autonegState ≠ .invalid
  port : interface.portAdmin = .up

theorem passed {condition : Prop} [Decidable condition] {reason others : DisableReason}
    (ok : (if condition then reason else others) = .ok) (against : reason ≠ .ok) :
    ¬ condition ∧ others = .ok := by
  by_cases holds : condition
  · exact absurd ((if_pos holds).symm.trans ok) against
  · exact ⟨holds, (if_neg holds).symm.trans ok⟩

theorem usable_of_physicalReason {interface : Interface} {parentSplit : Option LaneSplit}
    {link : OperState} (refusal : link.autonegReason ≠ some .ok)
    (ok : interface.physicalReason parentSplit link = .ok) : interface.Usable link := by
  have refused : link.autonegReason.getD .uninitialized ≠ .ok := by
    cases given : link.autonegReason with
    | none => exact nofun
    | some reason => exact fun same => refusal (given.trans (congrArg some same))
  -- The reasons are taken off in their order: lanes and the operator's word come before
  -- the module, and that before the link.
  obtain ⟨_, ok⟩ := passed ok nofun
  obtain ⟨_, ok⟩ := passed ok nofun
  obtain ⟨_, ok⟩ := passed ok nofun
  obtain ⟨_, ok⟩ := passed ok nofun
  obtain ⟨_, ok⟩ := passed ok nofun
  obtain ⟨supported, ok⟩ := passed ok nofun
  obtain ⟨size, ok⟩ := passed ok nofun
  obtain ⟨speeds, ok⟩ := passed ok nofun
  obtain ⟨negotiation, ok⟩ := passed ok refused
  obtain ⟨port, _⟩ := passed ok nofun
  constructor
  case family =>
    rw [Bool.or_eq_true, not_or] at supported
    exact Bool.eq_false_iff.mpr supported.2
  case size => exact fun invalid => size (decide_eq_true invalid)
  case speeds => exact fun invalid => speeds (decide_eq_true invalid)
  case negotiation => exact negotiation
  case port => exact interface.portAdmin.ne_down_iff.mp port

def decidedLink (interface : Interface) (given : List Speed) : OperState where
  mtu := interface.user.mtu.inEffect
  autonegCapability := (MediumProfile.ofTransceiver interface.transceiver).capability
  autonegState := (interface.decision given).state
  autonegReason := (interface.decision given).reason
  speeds := .valid (interface.decision given).speeds

theorem linkState_of_valid {interface : Interface} {given : List Speed}
    (speeds : interface.user.speeds = .valid given) (size : interface.user.mtu ≠ .invalid) :
    interface.linkState = interface.decidedLink given := by
  have effective : interface.user.mtu.inEffect.isInvalid = false := by
    cases mtu : interface.user.mtu with
    | unset => rfl
    | value bytes => rfl
    | invalid => exact absurd mtu size
  simp only [linkState, speeds, effective, Bool.false_eq_true, if_false]
  rfl

theorem decided_of_physicalReason {interface : Interface} {parentSplit : Option LaneSplit}
    (ok : interface.physicalReason parentSplit interface.linkState = .ok) :
    ∃ given, interface.user.speeds = .valid given ∧ interface.user.mtu ≠ .invalid ∧
      (interface.decision given).state ≠ .invalid ∧
      interface.linkState = interface.decidedLink given := by
  have usable := usable_of_physicalReason interface.reason_linkState_ne_ok ok
  cases speeds : interface.user.speeds with
  | invalid =>
      refine absurd ?_ usable.speeds
      simp [linkState, speeds]
  | valid given =>
      have size : interface.user.mtu ≠ .invalid := by
        intro invalid
        refine usable.size ?_
        simp [linkState, speeds, invalid, Mtu.inEffect, Mtu.isInvalid]
      have state := linkState_of_valid speeds size
      have negotiation := usable.negotiation
      rw [state] at negotiation
      exact ⟨given, rfl, size, negotiation, state⟩

/-! ## What the user gave -/

def givenSpeeds (interface : Interface) : SpeedList :=
  ((interface.userColumn.get? "speeds").map SpeedList.read).getD (.valid [])

def Carries (limit : UInt32) (interface : Interface) (bytes : UInt32) : Prop :=
  match interface.userColumn.get? "mtu" with
  | none => bytes = 1500
  | some text => Numeral.value? text.toList = some bytes.toNat ∧ 576 ≤ bytes ∧ bytes ≤ limit

/-- The speeds are the only default of the medium where the user gives none. Else they
are the user's, or the first of them, and the hardware has them all. -/
def RunsAt (interface : Interface) (speeds : List Speed) : Prop :=
  ∃ given, interface.givenSpeeds = .valid given ∧
    (given = [] → ∃ speed, speeds = [speed] ∧
      (MediumProfile.ofTransceiver interface.transceiver).defaultSpeeds = [speed]) ∧
    (given ≠ [] → (speeds = given ∨ speeds = given.take 1) ∧
      speeds ⊆ interface.cage.speeds.speeds)

theorem givenSpeeds_of_valid {limit : UInt32} {interface : Interface} {given : List Speed}
    (readUnder : interface.user = Work.userUnder limit interface)
    (valid : interface.user.speeds = .valid given) :
    interface.givenSpeeds = .valid given ∧ given ⊆ interface.cage.speeds.speeds := by
  rw [readUnder] at valid
  unfold givenSpeeds
  simp only [Work.userUnder, UserConfig.ofColumn] at valid
  cases written : interface.userColumn.get? "speeds" with
  | none =>
      rw [written] at valid
      cases valid
      exact ⟨rfl, List.nil_subset _⟩
  | some text =>
      rw [written] at valid
      obtain ⟨isRead, admitted⟩ := (SpeedList.restrict_eq_valid_iff _ _ given).mp valid
      refine ⟨isRead, ?_⟩
      rcases admitted with rfl | ⟨_, inside⟩
      · exact List.nil_subset _
      · exact inside

theorem length_le_of_givenSpeeds {interface : Interface} {given : List Speed}
    (isGiven : interface.givenSpeeds = .valid given) :
    given.length ≤ SpeedList.maxEntries := by
  unfold givenSpeeds at isGiven
  cases written : interface.userColumn.get? "speeds" with
  | none =>
      rw [written] at isGiven
      cases isGiven
      exact Nat.zero_le _
  | some text =>
      rw [written] at isGiven
      exact SpeedList.length_le_of_read isGiven

theorem carries_of_valid {limit : UInt32} {interface : Interface}
    (readUnder : interface.user = Work.userUnder limit interface)
    (valid : interface.user.mtu ≠ .invalid) :
    ∃ bytes, interface.user.mtu.inEffect = .value bytes ∧ Mtu.least ≤ bytes ∧
      interface.Carries limit bytes := by
  have column : interface.user.mtu =
      ((interface.userColumn.get? "mtu").map (Mtu.read · limit)).getD .unset := by
    rw [readUnder]
    rfl
  unfold Carries
  cases written : interface.userColumn.get? "mtu" with
  | none =>
      rw [column, written]
      exact ⟨1500, rfl, by decide, rfl⟩
  | some text =>
      have isRead : interface.user.mtu = Mtu.read text limit := by
        rw [column, written]
        rfl
      cases size : interface.user.mtu with
      | unset => exact absurd (isRead.symm.trans size) (Mtu.read_ne_unset text limit)
      | invalid => exact absurd size valid
      | value bytes =>
          have limits := (Mtu.read_eq_value_iff text limit bytes).mp (isRead.symm.trans size)
          exact ⟨bytes, rfl, limits.2.1, limits⟩

/-! ## What is decided -/

theorem speeds_decision_nil {interface : Interface} {speed : Speed}
    (default : (MediumProfile.ofTransceiver interface.transceiver).defaultSpeeds = [speed])
    (valid : (interface.decision []).state ≠ .invalid) :
    (interface.decision []).speeds = [speed] := by
  rcases AutonegDecision.decide_eq_of_valid
      (MediumProfile.capability_ne_optional interface.transceiver) valid with
    negotiates | fixes
  · exact (congrArg AutonegDecision.speeds negotiates).trans default
  · exact (congrArg AutonegDecision.speeds fixes).trans default

theorem speeds_decision {interface : Interface} {given : List Speed} (some : given ≠ [])
    (valid : (interface.decision given).state ≠ .invalid) :
    (interface.decision given).speeds = given ∧
        (interface.decision given).state = .enabled ∨
      (interface.decision given).speeds = given.take 1 := by
  rcases AutonegDecision.decide_eq_of_valid
      (MediumProfile.capability_ne_optional interface.transceiver) valid with
    negotiates | fixes
  · refine Or.inl ⟨(congrArg AutonegDecision.speeds negotiates).trans ?_,
      congrArg AutonegDecision.state negotiates⟩
    simp [AutonegDecision.negotiate, some]
  · refine Or.inr ((congrArg AutonegDecision.speeds fixes).trans ?_)
    simp [AutonegDecision.fixed, AutonegDecision.firstOr, some]

/-- Speeds that were decided on are as many as can be written and read, and only one
where the link does not negotiate. -/
structure Fits (interface : Interface) (decision : AutonegDecision) : Prop where
  some : decision.speeds ≠ []
  few : decision.speeds.length ≤ SpeedList.maxEntries
  fixed : decision.state ≠ .enabled → decision.speeds.length = 1
  runs : interface.RunsAt decision.speeds

theorem fits_decision {interface : Interface} {given : List Speed}
    (isGiven : interface.givenSpeeds = .valid given)
    (inside : given ⊆ interface.cage.speeds.speeds) {speed : Speed}
    (default : (MediumProfile.ofTransceiver interface.transceiver).defaultSpeeds = [speed])
    (valid : (interface.decision given).state ≠ .invalid) :
    interface.Fits (interface.decision given) := by
  cases given with
  | nil =>
      have only := speeds_decision_nil default valid
      constructor
      case some => simp [only]
      case few => simp [only, SpeedList.maxEntries]
      case fixed => simp [only]
      case runs => exact ⟨[], isGiven, fun _ => ⟨speed, only, default⟩, fun none => absurd rfl none⟩
  | cons first rest =>
      have few := length_le_of_givenSpeeds isGiven
      rcases speeds_decision (List.cons_ne_nil first rest) valid with ⟨all, negotiates⟩ | one
      · constructor
        case some => simp [all]
        case few => rwa [all]
        case fixed => exact fun idle => absurd negotiates idle
        case runs =>
          refine ⟨first :: rest, isGiven, fun none => absurd none (List.cons_ne_nil _ _), ?_⟩
          exact fun _ => ⟨Or.inl all, by rwa [all]⟩
      · constructor
        case some => simp [one]
        case few => simp [one, SpeedList.maxEntries]
        case fixed => simp [one]
        case runs =>
          refine ⟨first :: rest, isGiven, fun none => absurd none (List.cons_ne_nil _ _), ?_⟩
          refine fun _ => ⟨Or.inr one, ?_⟩
          rw [one]
          exact List.Subset.trans (List.take_subset 1 _) inside

/-! ## What the hardware is told -/

structure ToldInFull (limit : UInt32) (interface : Interface) : Prop where
  keys : ∀ key, interface.hwConfig.contains key = true ↔
    key ∈ ["autoneg", "duplex", "enable", "interface_type", "mtu", "pause", "speeds"]
  size : ∃ bytes, interface.hwConfig.get? "mtu" = some (Numeral.ofWord bytes) ∧
    interface.Carries limit bytes
  speeds : ∃ text speeds, interface.hwConfig.get? "speeds" = some text ∧
    SpeedList.read text = .valid speeds ∧ speeds ≠ [] ∧ speeds.length ≤ 10 ∧
    interface.RunsAt speeds ∧
    (interface.hwConfig.get? "autoneg" = some "off" → speeds.length = 1)

theorem hwColumns_of_idle {interface : Interface}
    (idle : interface.oper.enabled = false ∨ interface.kind ≠ .system) :
    interface.hwColumns = .ofList [("enable", flagText interface.oper.enabled)] := by
  have silent : (interface.oper.enabled && !interface.kind.isLogical) = false := by
    rcases idle with out | logical
    · simp [out]
    · simp [InterfaceKind.isLogical, logical]
  simp [hwColumns, silent]

def servingColumns (interface : Interface) (bytes : UInt32) (speeds : List Speed) :
    List (String × String) :=
  [("enable", "true"),
    ("autoneg", if interface.oper.autonegState = .enabled then "on" else "off"),
    ("duplex", interface.oper.duplex.word), ("pause", interface.oper.pause.word),
    ("mtu", Numeral.ofWord bytes), ("speeds", SpeedList.text (.valid speeds)),
    ("interface_type", interface.transceiver.medium.word)]

theorem servingColumns_keys (interface : Interface) (bytes : UInt32) (speeds : List Speed) :
    (interface.servingColumns bytes speeds).map (·.1) =
      ["enable", "autoneg", "duplex", "pause", "mtu", "speeds", "interface_type"] := rfl

theorem get?_servingColumns {interface : Interface} {bytes : UInt32} {speeds : List Speed}
    {key value : String} (member : (key, value) ∈ interface.servingColumns bytes speeds) :
    (Dict.ofList (interface.servingColumns bytes speeds)).get? key = some value := by
  refine Dict.get?_ofList_of_mem ?_ member
  rw [servingColumns_keys]
  decide

theorem hwColumns_of_serving {interface : Interface} (system : interface.kind = .system)
    (enabled : interface.oper.enabled = true) {bytes : UInt32} {speeds : List Speed}
    (size : interface.oper.mtu = .value bytes) (least : Mtu.least ≤ bytes)
    (runs : interface.oper.speeds = .valid speeds) (some : speeds ≠ []) :
    interface.hwColumns = .ofList (interface.servingColumns bytes speeds) := by
  have told : ("enable", "true") :: interface.linkColumns =
      interface.servingColumns bytes speeds := by
    simp [linkColumns, servingColumns, size, runs, Mtu.value?, least, SpeedList.speeds,
      SpeedList.speeds?, some]
  simp [hwColumns, system, enabled, InterfaceKind.isLogical, flagText, told]

theorem link_derive (interface : Interface) (parentSplit : Option LaneSplit) :
    (interface.derive parentSplit).mtu = interface.linkState.mtu ∧
      (interface.derive parentSplit).speeds = interface.linkState.speeds ∧
      (interface.derive parentSplit).autonegState = interface.linkState.autonegState := by
  unfold derive
  dsimp only
  split <;> exact ⟨rfl, rfl, rfl⟩

theorem toldInFull_of_derived {limit : UInt32} {interface : Interface}
    {parentSplit : Option LaneSplit} (derived : interface.Derived parentSplit)
    (readUnder : interface.user = Work.userUnder limit interface)
    {connector : Connector} {status : ConnectorStatus}
    (fitted : interface.transceiver = .ofConnector connector status)
    (enabled : interface.oper.enabled = true) (system : interface.kind = .system) :
    interface.ToldInFull limit := by
  have ok : interface.physicalReason parentSplit interface.linkState = .ok := by
    rwa [derived.1, enabled_derive, disableReason_of_system system] at enabled
  have family := (usable_of_physicalReason interface.reason_linkState_ne_ok ok).family
  obtain ⟨given, speeds, size, valid, decided⟩ := decided_of_physicalReason ok
  obtain ⟨isGiven, inside⟩ := givenSpeeds_of_valid readUnder speeds
  obtain ⟨bytes, effective, least, carries⟩ := carries_of_valid readUnder size
  rw [fitted] at family
  obtain ⟨speed, default⟩ := MediumProfile.defaultSpeeds_ofConnector family status
  rw [← fitted] at default
  have fits := fits_decision isGiven inside default valid
  obtain ⟨mtu, runs, negotiation⟩ := interface.link_derive parentSplit
  rw [← derived.1, decided] at mtu runs negotiation
  have columns := hwColumns_of_serving system enabled (mtu.trans effective) least runs fits.some
  rw [← derived.2.1] at columns
  constructor
  case keys =>
    intro key
    rw [columns, Dict.contains_ofList, servingColumns_keys]
    exact List.Perm.mem_iff (by decide)
  case size =>
    refine ⟨bytes, ?_, carries⟩
    rw [columns]
    exact get?_servingColumns (by simp [servingColumns])
  case speeds =>
    refine ⟨_, (interface.decision given).speeds, ?_, SpeedList.read_text fits.few, fits.some,
      fits.few, fits.runs, fun off => fits.fixed fun on => ?_⟩
    · rw [columns]
      exact get?_servingColumns (by simp [servingColumns])
    · have negotiates : interface.hwConfig.get? "autoneg" = some "on" := by
        rw [columns]
        exact get?_servingColumns (by simp [servingColumns, negotiation.trans on])
      rw [negotiates] at off
      exact absurd off (by decide)

end Interface

/-! ## Over whole runs -/

theorem Transceiver.ofCage_ofConnector (cage : Cage) (report : ModuleReport) :
    ∃ connector status, ofCage cage report = .ofConnector connector status := by
  unfold ofCage
  split
  · exact ⟨_, _, rfl⟩
  · split <;> exact ⟨_, _, rfl⟩

theorem Registry.transceiverDue_ofConnector (registry : Registry) (interface : Interface) :
    ∃ connector status,
      registry.transceiverDue interface = .ofConnector connector status := by
  unfold transceiverDue
  split
  · unfold Transceiver.ofLane
    split <;> exact ⟨_, _, rfl⟩
  · exact Transceiver.ofCage_ofConnector _ _

namespace Manager

open Work

theorem ofConnector_lasting : Lasting fun _ _ interface =>
    ∃ connector status, interface.transceiver = .ofConnector connector status where
  reread _ holds := holds
  renewed registry _ := registry.transceiverDue_ofConnector _
  newcomer _ _ _ := Transceiver.ofCage_ofConnector _ _
  inherits _ holds := holds
  update holds := holds
  rederived _ holds := holds
  arbitrated _ holds := holds

/-- After every batch, whatever the batches hold, an interface that is out of service or
logical is told no more than that, and a physical one in service is told its whole
link, within the limits in effect. -/
theorem hardware_told (config : Config) (batches : List Batch) {name : String}
    {interface : Interface}
    (found : ((ofConfig config).absorbed batches).registry.interface? name =
      some interface) :
    (interface.oper.enabled = false ∨ interface.kind ≠ .system →
        interface.hwConfig = .ofList [("enable", Interface.flagText interface.oper.enabled)]) ∧
      (interface.oper.enabled = true → interface.kind = .system →
        interface.ToldInFull ((ofConfig config).absorbed batches).maxMtu) := by
  have upheld := absorbed_upheld config batches
  obtain ⟨parentSplit, derived⟩ := upheld.derived name interface found
  obtain ⟨connector, status, fitted⟩ :=
    absorbed_each ofConnector_lasting config batches name interface found
  constructor
  · intro idle
    rw [derived.2.1]
    exact Interface.hwColumns_of_idle idle
  · intro enabled system
    exact Interface.toldInFull_of_derived derived (upheld.readUnder name interface found).2
      fitted enabled system

def chosenSpeeds : InterfaceRow where
  name := "1"
  hwInfo := .ofList [("pluggable", "true"), ("connector", "SFP_PLUS"),
    ("speeds", "1000,10000"), ("max_speed", "10000")]
  moduleInfo := .ofList [("connector", "SFP_DAC"), ("connector_status", "supported")]
  userConfig := .ofList [("admin", "up"), ("mtu", "9000"), ("speeds", "10000,,1000")]

/-- The limit is raised after the interface came, so that its size fits. -/
def raisedLimit : List Batch :=
  [{ interfaces := [.ofRow chosenSpeeds]
     ports := [.ofRow { name := "p", admin := some "up", interfaces := ["1"] }] },
    { subsystems := [.ofRow
        { name := "base", otherInfo := .ofList [("max_transmission_unit", "9100")] }] }]

theorem raisedLimit_told :
    let manager := (ofConfig {}).absorbed raisedLimit
    ∃ interface, manager.registry.interface? "1" = some interface ∧
      interface.oper.enabled = true ∧ interface.ToldInFull 9100 ∧
      interface.hwConfig.get? "speeds" = some "10000" := by
  intro manager
  obtain ⟨interface, found, shown⟩ := Option.map_eq_some_iff.mp
    (show (manager.registry.interface? "1").map (fun interface =>
        (interface.oper.enabled, interface.kind, interface.hwConfig.get? "speeds")) =
      some (true, .system, some "10000") by decide +kernel)
  simp only [Prod.mk.injEq] at shown
  obtain ⟨enabled, system, speeds⟩ := shown
  have limit : manager.maxMtu = 9100 := by decide +kernel
  have told := (hardware_told {} raisedLimit found).2 enabled system
  exact ⟨interface, found, enabled, limit ▸ told, speeds⟩

end Manager

end LinkReconciler
