import LinkReconciler.Text.FlagSet
import LinkReconciler.Text.Hexadecimal
import LinkReconciler.Text.Vocabulary

/-!
Connectors: the pluggable modules (and the fixed copper port) an interface can
be fitted with, what each of them is capable of, and the medium it presents to
the hardware.
-/

namespace LinkReconciler

inductive Connector where
  | qsfp28Clr4
  | qsfp28Cr4
  | qsfp28Psm4
  | qsfp28Cwdm4
  | qsfp28Lr4
  | qsfp28Sr4
  | sfp28Cr
  | sfp28Lr
  | sfp28Sr
  | qsfpCr4
  | qsfpLr4
  | qsfpSr4
  | sfpCx
  | sfpDac
  | sfpFc
  | sfpLr
  | sfpLrm
  | sfpEr
  | sfpLx
  | sfpRj45
  | sfpSr
  | sfpSx
  | absent
  | unknown
deriving DecidableEq, Repr

inductive ConnectorStatus where
  | supported
  | unsupported
  | unrecognized
deriving DecidableEq, Repr

structure ConnectorFlags where
  supported : Bool := false
  sfpFamily : Bool := false
  sfpPlus10G : Bool := false
  sfp28At25G : Bool := false
  qsfpFamily : Bool := false
  qsfpPlus40G : Bool := false
  qsfp28At100G : Bool := false
deriving DecidableEq, Repr

/-- The interface type that is written to hardware. -/
inductive Medium where
  | base1gSx
  | base1gT
  | base10gCr
  | base10gSr
  | base10gLr
  | base10gEr
  | base25gCr
  | base25gSr
  | base25gLr
  | base40gCr4
  | base40gSr4
  | base40gLr4
  | base100gCr4
  | base100gSr4
  | base100gLr4
  | base100gClr4
  | base100gPsm4
  | base100gCwdm4
  | unknown
deriving DecidableEq, Repr

namespace ConnectorFlags

def weights (flags : ConnectorFlags) : List (Nat × Bool) :=
  [(0x010, flags.supported), (0x020, flags.sfpFamily),
    (0x040, flags.sfpPlus10G), (0x080, flags.sfp28At25G),
    (0x100, flags.qsfpFamily), (0x200, flags.qsfpPlus40G),
    (0x400, flags.qsfp28At100G)]

def number (flags : ConnectorFlags) : Nat :=
  FlagSet.number flags.weights

def ofNumber (number : Nat) : ConnectorFlags where
  supported := FlagSet.holds number 0x010
  sfpFamily := FlagSet.holds number 0x020
  sfpPlus10G := FlagSet.holds number 0x040
  sfp28At25G := FlagSet.holds number 0x080
  qsfpFamily := FlagSet.holds number 0x100
  qsfpPlus40G := FlagSet.holds number 0x200
  qsfp28At100G := FlagSet.holds number 0x400

def isEmpty (flags : ConnectorFlags) : Bool :=
  flags = {}

def text (flags : ConnectorFlags) : String :=
  Hexadecimal.write 4 flags.number

def sfp : ConnectorFlags :=
  { supported := true, sfpFamily := true }

def sfpPlus : ConnectorFlags :=
  { supported := true, sfpFamily := true, sfpPlus10G := true }

def sfp28 : ConnectorFlags :=
  { supported := true, sfpFamily := true, sfp28At25G := true }

def qsfpPlus : ConnectorFlags :=
  { supported := true, qsfpFamily := true, qsfpPlus40G := true }

def qsfp28 : ConnectorFlags :=
  { supported := true, qsfpFamily := true, qsfp28At100G := true }

end ConnectorFlags

namespace Medium

def word : Medium → String
  | base1gSx => "1GBASE_SX"
  | base1gT => "1GBASE_T"
  | base10gCr => "10GBASE_CR"
  | base10gSr => "10GBASE_SR"
  | base10gLr => "10GBASE_LR"
  | base10gEr => "10GBASE_ER"
  | base25gCr => "25GBASE_CR"
  | base25gSr => "25GBASE_SR"
  | base25gLr => "25GBASE_LR"
  | base40gCr4 => "40GBASE_CR4"
  | base40gSr4 => "40GBASE_SR4"
  | base40gLr4 => "40GBASE_LR4"
  | base100gCr4 => "100GBASE_CR4"
  | base100gSr4 => "100GBASE_SR4"
  | base100gLr4 => "100GBASE_LR4"
  | base100gClr4 => "100GBASE_CLR4"
  | base100gPsm4 => "100GBASE_PSM4"
  | base100gCwdm4 => "100GBASE_CWDM4"
  | unknown => "UNKNOWN"

end Medium

namespace ConnectorStatus

def values : List ConnectorStatus := [supported, unsupported, unrecognized]

def word : ConnectorStatus → String
  | supported => "supported"
  | unsupported => "unsupported"
  | unrecognized => "unrecognized"

def find? : String → Option ConnectorStatus :=
  Vocabulary.find? word values

def read : String → Except UnknownWord ConnectorStatus :=
  Vocabulary.read "connector status" find?

end ConnectorStatus

namespace Connector

def values : List Connector :=
  [qsfp28Clr4, qsfp28Cr4, qsfp28Psm4, qsfp28Cwdm4, qsfp28Lr4, qsfp28Sr4,
    sfp28Cr, sfp28Lr, sfp28Sr, qsfpCr4, qsfpLr4, qsfpSr4, sfpCx, sfpDac,
    sfpFc, sfpLr, sfpLrm, sfpEr, sfpLx, sfpRj45, sfpSr, sfpSx, absent, unknown]

def word : Connector → String
  | qsfp28Clr4 => "QSFP28_CLR4"
  | qsfp28Cr4 => "QSFP28_CR4"
  | qsfp28Psm4 => "QSFP28_PSM4"
  | qsfp28Cwdm4 => "QSFP28_CWDM4"
  | qsfp28Lr4 => "QSFP28_LR4"
  | qsfp28Sr4 => "QSFP28_SR4"
  | sfp28Cr => "SFP28_CR"
  | sfp28Lr => "SFP28_LR"
  | sfp28Sr => "SFP28_SR"
  | qsfpCr4 => "QSFP_CR4"
  | qsfpLr4 => "QSFP_LR4"
  | qsfpSr4 => "QSFP_SR4"
  | sfpCx => "SFP_CX"
  | sfpDac => "SFP_DAC"
  | sfpFc => "SFP_FC"
  | sfpLr => "SFP_LR"
  | sfpLrm => "SFP_LRM"
  | sfpEr => "SFP_ER"
  | sfpLx => "SFP_LX"
  | sfpRj45 => "SFP_RJ45"
  | sfpSr => "SFP_SR"
  | sfpSx => "SFP_SX"
  | absent => "absent"
  | unknown => "unknown"

def find? : String → Option Connector :=
  Vocabulary.find? word values

def read : String → Except UnknownWord Connector :=
  Vocabulary.read "connector" find?

def flags : Connector → ConnectorFlags
  | sfpRj45 | sfpSx => .sfp
  | sfpSr | sfpLr | sfpEr | sfpLrm | sfpDac => .sfpPlus
  | sfp28Sr | sfp28Lr | sfp28Cr => .sfp28
  | qsfpCr4 | qsfpSr4 | qsfpLr4 => .qsfpPlus
  | qsfp28Sr4 | qsfp28Lr4 | qsfp28Cr4 | qsfp28Clr4 | qsfp28Psm4
  | qsfp28Cwdm4 => .qsfp28
  | sfpLx | sfpCx | sfpFc | absent | unknown => {}

def medium : Connector → Medium
  | sfpSx => .base1gSx
  | sfpRj45 => .base1gT
  | sfpDac => .base10gCr
  | sfpSr => .base10gSr
  | sfpLr => .base10gLr
  | sfpEr => .base10gEr
  | qsfpCr4 => .base40gCr4
  | qsfpSr4 => .base40gSr4
  | qsfpLr4 => .base40gLr4
  | sfp28Cr => .base25gCr
  | sfp28Sr => .base25gSr
  | sfp28Lr => .base25gLr
  | qsfp28Cr4 => .base100gCr4
  | qsfp28Sr4 => .base100gSr4
  | qsfp28Lr4 => .base100gLr4
  | qsfp28Clr4 => .base100gClr4
  | qsfp28Psm4 => .base100gPsm4
  | qsfp28Cwdm4 => .base100gCwdm4
  | sfpCx | sfpFc | sfpLrm | sfpLx | absent | unknown => .unknown

end Connector

end LinkReconciler
