import LinkReconciler.Interface.Entity
import LinkReconciler.Transceiver.MediumProfile

/-!
The derivation of an interface's operational state. Everything here is a function
of the interface and of its parent's lane split, so that the same inputs always
give the same state.
-/

namespace LinkReconciler.Interface

/-- The state as far as size, negotiation and speeds go. Speeds are decided only
where the user's speeds and the size are both usable. -/
def linkState (interface : Interface) : OperState :=
  let profile := MediumProfile.ofTransceiver interface.transceiver
  let base : OperState :=
    { mtu := interface.user.mtu.inEffect, autonegCapability := profile.capability }
  match interface.user.speeds with
  | .invalid => { base with speeds := .invalid }
  | .valid speeds =>
      if base.mtu.isInvalid then base
      else
        let decision := AutonegDecision.decide profile.capability
          interface.user.autoneg speeds profile.defaultSpeeds
          interface.cage.speeds
        { base with
          autonegState := decision.state
          autonegReason := decision.reason
          speeds := .valid decision.speeds }

def logicalReason (interface : Interface) : DisableReason :=
  if interface.user.admin = .down then .adminDown
  else if interface.portAdmin = .down then .portAdminDown
  else .ok

def physicalReason (interface : Interface) (parentSplit : Option LaneSplit)
    (link : OperState) : DisableReason :=
  -- Lanes that belong to the other side of a split outrank every other reason.
  if interface.isSplitParent && interface.user.laneSplit = .split then
    .lanesSplit
  else if parentSplit = some .noSplit then .lanesNotSplit
  else if interface.user.admin = .down then .adminDown
  else if interface.transceiver.connector = .absent then .moduleMissing
  else if interface.transceiver.status = .unrecognized then .moduleUnrecognized
  -- A module without flags belongs to no family the hardware can drive.
  else if interface.transceiver.status = .unsupported ||
      interface.transceiver.flags.isEmpty then .moduleUnsupported
  else if link.mtu.isInvalid then .invalidMtu
  else if link.speeds.isInvalid then .invalidSpeeds
  else if link.autonegState = .invalid then
    link.autonegReason.getD .uninitialized
  else if interface.portAdmin = .down then .portAdminDown
  else .ok

def disableReason (interface : Interface) (parentSplit : Option LaneSplit)
    (link : OperState) : DisableReason :=
  if interface.kind.isLogical then interface.logicalReason
  else interface.physicalReason parentSplit link

/-- The operational state, given the lane split of the parent if there is one.
Pause and duplex are the user's only where the interface is in service. -/
def derive (interface : Interface) (parentSplit : Option LaneSplit) :
    OperState :=
  let link := interface.linkState
  let reason := interface.disableReason parentSplit link
  if reason = .ok then
    { link with
      reason
      enabled := true
      pause := interface.user.pause
      duplex := interface.user.duplex }
  else { link with reason }

end LinkReconciler.Interface
