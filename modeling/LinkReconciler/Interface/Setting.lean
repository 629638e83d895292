import LinkReconciler.Text.Vocabulary

/-!
The settings an operator chooses for an interface, each a small enumeration with
the words it is written with.
-/

namespace LinkReconciler

inductive AdminState where
  | up
  | down
deriving DecidableEq, Repr

inductive AutonegPreference where
  | unset
  | on
  | off
deriving DecidableEq, Repr

inductive PauseMode where
  | none
  | rx
  | tx
  | rxtx
deriving DecidableEq, Repr

inductive Duplex where
  | full
  | half
deriving DecidableEq, Repr

/-- Whether the lanes of a splittable interface are handed to its children. -/
inductive LaneSplit where
  | noSplit
  | split
deriving DecidableEq, Repr

/-- Physical interfaces are of system kind; every other kind is logical. -/
inductive InterfaceKind where
  | system
  | internal
  | vlanSubinterface
  | loopback
deriving DecidableEq, Repr

namespace AdminState

def values : List AdminState := [up, down]

def word : AdminState → String
  | up => "up"
  | down => "down"

def find? : String → Option AdminState :=
  Vocabulary.find? word values

def read : String → Except UnknownWord AdminState :=
  Vocabulary.read "admin state" find?

end AdminState

namespace AutonegPreference

def values : List AutonegPreference := [unset, on, off]

def word : AutonegPreference → String
  | unset => "default"
  | on => "on"
  | off => "off"

def find? : String → Option AutonegPreference :=
  Vocabulary.find? word values

def read : String → Except UnknownWord AutonegPreference :=
  Vocabulary.read "autoneg value" find?

end AutonegPreference

namespace PauseMode

def values : List PauseMode := [none, rx, tx, rxtx]

def word : PauseMode → String
  | none => "none"
  | rx => "rx"
  | tx => "tx"
  | rxtx => "rxtx"

def find? : String → Option PauseMode :=
  Vocabulary.find? word values

def read : String → Except UnknownWord PauseMode :=
  Vocabulary.read "pause mode" find?

end PauseMode

namespace Duplex

def values : List Duplex := [full, half]

def word : Duplex → String
  | full => "full"
  | half => "half"

def find? : String → Option Duplex :=
  Vocabulary.find? word values

def read : String → Except UnknownWord Duplex :=
  Vocabulary.read "duplex" find?

end Duplex

namespace LaneSplit

def values : List LaneSplit := [noSplit, split]

def word : LaneSplit → String
  | noSplit => "no-split"
  | split => "split"

def find? : String → Option LaneSplit :=
  Vocabulary.find? word values

def read : String → Except UnknownWord LaneSplit :=
  Vocabulary.read "lane split value" find?

end LaneSplit

namespace InterfaceKind

def values : List InterfaceKind :=
  [system, internal, vlanSubinterface, loopback]

def word : InterfaceKind → String
  | system => "system"
  | internal => "internal"
  | vlanSubinterface => "vlansubint"
  | loopback => "loopback"

def find? (text : String) : Option InterfaceKind :=
  if text = "" then some system else Vocabulary.find? word values text

def read : String → Except UnknownWord InterfaceKind :=
  Vocabulary.read "interface type" find?

def isLogical (kind : InterfaceKind) : Bool :=
  kind ≠ system

/-- The kind a `type` column stands for; an unknown kind is taken as physical. -/
def ofColumn (text : String) : InterfaceKind :=
  (find? text).getD system

end InterfaceKind

end LinkReconciler
