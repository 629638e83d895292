import LinkReconciler.Transceiver.Cage
import LinkReconciler.Transceiver.ModuleReport

/-!
The transceiver in effect for an interface. It follows from the interface's own
module, or, for a child of a split interface, from the parent's module seen
through one of its lanes.
-/

namespace LinkReconciler

structure Transceiver where
  connector : Connector := .unknown
  status : ConnectorStatus := .unrecognized
  flags : ConnectorFlags := {}
  medium : Medium := .unknown
deriving DecidableEq, Repr

namespace Transceiver

def ofConnector (connector : Connector) (status : ConnectorStatus) :
    Transceiver where
  connector := connector
  status := status
  flags := connector.flags
  medium := connector.medium

/-- A fixed port ignores the module report: it is copper or it is unknown. -/
def ofCage (cage : Cage) (report : ModuleReport) : Transceiver :=
  if cage.pluggable then ofConnector report.connector report.status
  else if cage.form = .rj45 then ofConnector .sfpRj45 .supported
  else ofConnector .unknown .unrecognized

/-- The connector one lane of a module stands for, if the module can be split.
Copper for 100G whose only speed is 40G breaks out into 10G copper. -/
def laneConnector? (report : ModuleReport) : Option Connector :=
  match report.connector with
  | .qsfp28Cwdm4 | .qsfp28Psm4 | .qsfp28Clr4 | .qsfp28Lr4 => some .sfp28Lr
  | .qsfp28Cr4 =>
      if report.supportedSpeeds = some "40000" then some .sfpDac
      else some .sfp28Cr
  | .qsfp28Sr4 => some .sfp28Sr
  | .qsfpCr4 => some .sfpDac
  | .qsfpLr4 => some .sfpLr
  | .qsfpSr4 => some .sfpSr
  | .absent => some .absent
  | .sfp28Cr | .sfp28Lr | .sfp28Sr | .sfpCx | .sfpDac | .sfpFc | .sfpLr
  | .sfpLrm | .sfpEr | .sfpLx | .sfpRj45 | .sfpSr | .sfpSx | .unknown => none

def ofLane (report : ModuleReport) : Transceiver :=
  match laneConnector? report with
  | some connector => ofConnector connector report.status
  | none => ofConnector .unknown .unsupported

end Transceiver

end LinkReconciler
