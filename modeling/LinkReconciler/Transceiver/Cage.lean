import LinkReconciler.Dict
import LinkReconciler.Interface.SpeedList
import LinkReconciler.Text.FlagSet
import LinkReconciler.Text.Hexadecimal
import LinkReconciler.Text.Vocabulary

/-!
The hardware of an interface as its platform describes it: the form of its cage,
the speeds it can run at, and whether its lanes can be split.
-/

namespace LinkReconciler

inductive CageForm where
  | rj45
  | sfpPlus
  | qsfpPlus
  | qsfp28
  | unknown
deriving DecidableEq, Repr

namespace CageForm

def values : List CageForm := [rj45, sfpPlus, qsfpPlus, qsfp28, unknown]

def word : CageForm → String
  | rj45 => "RJ45"
  | sfpPlus => "SFP_PLUS"
  | qsfpPlus => "QSFP_PLUS"
  | qsfp28 => "QSFP28"
  | unknown => "unknown"

/-- The unknown form is what any other text stands for, and has no word to read. -/
def find? : String → Option CageForm :=
  Vocabulary.find? word [rj45, sfpPlus, qsfpPlus, qsfp28]

def read : String → Except UnknownWord CageForm :=
  Vocabulary.read "hardware connector" find?

end CageForm

structure CapabilityFlags where
  pluggable : Bool := false
  ethernet1G : Bool := false
  ethernet10G : Bool := false
  ethernet25G : Bool := false
  ethernet40G : Bool := false
  ethernet50G : Bool := false
  ethernet100G : Bool := false
  splitBy4 : Bool := false
deriving DecidableEq, Repr

namespace CapabilityFlags

def ofHardware (pluggable : Bool) (speeds : List Speed) (splitBy4 : Bool) :
    CapabilityFlags where
  pluggable := pluggable
  ethernet1G := speeds.contains 1000
  ethernet10G := speeds.contains 10000
  ethernet25G := speeds.contains 25000
  ethernet40G := speeds.contains 40000
  ethernet50G := speeds.contains 50000
  ethernet100G := speeds.contains 100000
  splitBy4 := splitBy4

def weights (flags : CapabilityFlags) : List (Nat × Bool) :=
  [(0x01, flags.pluggable), (0x02, flags.ethernet1G),
    (0x04, flags.ethernet10G), (0x08, flags.ethernet25G),
    (0x10, flags.ethernet40G), (0x20, flags.ethernet50G),
    (0x40, flags.ethernet100G), (0x80, flags.splitBy4)]

def number (flags : CapabilityFlags) : Nat :=
  FlagSet.number flags.weights

def text (flags : CapabilityFlags) : String :=
  Hexadecimal.write 2 flags.number

end CapabilityFlags

structure Cage where
  pluggable : Bool := false
  form : CageForm := .unknown
  speeds : SpeedList := .valid []
  maxSpeed : Speed := 0
  splitBy4 : Bool := false
  capabilities : CapabilityFlags := {}
deriving DecidableEq, Repr

namespace Cage

/-- Reads the `hw_intf_info` column. What is missing or unreadable takes the
value of a cage of which nothing is known. -/
def ofColumn (column : ColumnMap) : Cage :=
  let pluggable := column.get? "pluggable" = some "true"
  let speeds := ((column.get? "speeds").map SpeedList.read).getD (.valid [])
  let splitBy4 := column.get? "split_4" = some "true"
  { pluggable
    form := ((column.get? "connector").bind CageForm.find?).getD .unknown
    speeds
    maxSpeed := ((column.get? "max_speed").bind
      fun text => Numeral.plusWord? text.toList).getD 0
    splitBy4
    capabilities := .ofHardware pluggable speeds.speeds splitBy4 }

end Cage

end LinkReconciler
