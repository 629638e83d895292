import LinkReconciler.Interface.DisableReason
import LinkReconciler.Interface.Setting
import LinkReconciler.Interface.SpeedList

/-!
The decision whether a link negotiates its speed, and which speeds it then
offers or is fixed to. It rests on what the medium is capable of, on what the
operator asked for, and on the speeds the operator gave, if any.
-/

namespace LinkReconciler

inductive AutonegCapability where
  | unsupported
  | required
  | optional
deriving DecidableEq, Repr

inductive AutonegState where
  | disabled
  | enabled
  | invalid
deriving DecidableEq, Repr

namespace AutonegCapability

def values : List AutonegCapability := [unsupported, required, optional]

def word : AutonegCapability → String
  | unsupported => "unsupported"
  | required => "required"
  | optional => "optional"

def find? : String → Option AutonegCapability :=
  Vocabulary.find? word values

end AutonegCapability

namespace AutonegState

def values : List AutonegState := [disabled, enabled, invalid]

def word : AutonegState → String
  | disabled => "disabled"
  | enabled => "enabled"
  | invalid => "invalid"

def find? : String → Option AutonegState :=
  Vocabulary.find? word values

end AutonegState

structure AutonegDecision where
  state : AutonegState
  reason : Option DisableReason
  speeds : List Speed
deriving DecidableEq, Repr

namespace AutonegDecision

def negotiate (user defaults : List Speed) : AutonegDecision :=
  ⟨.enabled, none, if user.isEmpty then defaults else user⟩

def fixed (speeds : List Speed) : AutonegDecision :=
  ⟨.disabled, none, speeds⟩

def refuse (reason : DisableReason) (defaults : List Speed) : AutonegDecision :=
  ⟨.invalid, some reason, defaults⟩

def firstOr (user defaults : List Speed) : List Speed :=
  if user.isEmpty then defaults else user.take 1

/-- Weighs the operator's preference against the medium. The hardware speeds
matter only where negotiation is optional, switched off, and no speed is given. -/
def decide (capability : AutonegCapability) (preference : AutonegPreference)
    (user defaults : List Speed) (hardware : SpeedList) : AutonegDecision :=
  match preference, capability with
  | .on, .unsupported => refuse .autonegNotSupported defaults
  | .on, .required => negotiate user defaults
  | .on, .optional => negotiate user defaults
  | .off, .required => refuse .autonegRequired defaults
  | .off, .unsupported => fixed (firstOr user defaults)
  | .off, .optional =>
      if user.isEmpty then
        fixed ((hardware.highest?.map fun speed => [speed]).getD defaults)
      else fixed (user.take 1)
  | .unset, .unsupported => fixed (firstOr user defaults)
  | .unset, .required => negotiate user defaults
  | .unset, .optional => negotiate user defaults

end AutonegDecision

end LinkReconciler
