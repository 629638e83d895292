import LinkReconciler.Text.Vocabulary

/-!
Why an interface is kept out of service.
-/

namespace LinkReconciler

inductive DisableReason where
  | uninitialized
  | lanesSplit
  | lanesNotSplit
  | adminDown
  | moduleMissing
  | moduleUnrecognized
  | moduleUnsupported
  | invalidMtu
  | invalidSpeeds
  | autonegNotSupported
  | autonegRequired
  | portAdminDown
  | ok
deriving DecidableEq, Repr

namespace DisableReason

def values : List DisableReason :=
  [uninitialized, lanesSplit, lanesNotSplit, adminDown, moduleMissing,
    moduleUnrecognized, moduleUnsupported, invalidMtu, invalidSpeeds,
    autonegNotSupported, autonegRequired, portAdminDown, ok]

def word : DisableReason → String
  | uninitialized => "uninitialized"
  | lanesSplit => "lanes_split"
  | lanesNotSplit => "lanes_not_split"
  | adminDown => "admin_down"
  | moduleMissing => "module_missing"
  | moduleUnrecognized => "module_unrecognized"
  | moduleUnsupported => "module_unsupported"
  | invalidMtu => "invalid_mtu"
  | invalidSpeeds => "invalid_speeds"
  | autonegNotSupported => "autoneg_not_supported"
  | autonegRequired => "autoneg_required"
  | portAdminDown => "port_admin_down"
  | ok => "ok"

def find? : String → Option DisableReason :=
  Vocabulary.find? word values

end DisableReason

end LinkReconciler
