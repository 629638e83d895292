import LinkReconciler.Registry
import LinkReconciler.Interface.Columns

/-!
The report of the interfaces' state for the people who run the switch: one
labelled line per fact.
-/

namespace LinkReconciler.Report

def labelWidth : Nat := 19

def pad (width : Nat) (label : String) : String :=
  label ++ String.ofList (List.replicate (width - label.length) ' ')

def line (label value : String) : String :=
  "    " ++ pad labelWidth label ++ ": " ++ value ++ "\n"

def speeds (list : SpeedList) : String :=
  if list.isEmpty then "unset" else list.text

def childLines : Nat → List String → List String
  | _, [] => []
  | index, child :: rest =>
      ("    split_children[" ++ Nat.repr index ++ "]  : " ++ child ++ "\n") ::
        childLines (index + 1) rest

def interfaceLines (interface : Interface) : List String :=
  let user := interface.user
  let oper := interface.oper
  let transceiver := interface.transceiver
  let cage := interface.cage
  ["Interface " ++ interface.name ++ ":\n",
    line "type" interface.kind.word,
    line "admin" user.admin.word,
    line "port_admin" interface.portAdmin.word,
    line "hw_enable" (Interface.flagText oper.enabled),
    line "op_state_reason" oper.reason.word,
    line "cfg_autoneg" user.autoneg.word,
    line "autoneg_capability" oper.autonegCapability.word,
    line "op_autoneg_state" oper.autonegState.word,
    line "cfg_speeds" (speeds user.speeds),
    line "op_speeds" (speeds oper.speeds),
    line "cfg_mtu" user.mtu.text,
    line "op_mtu" oper.mtu.text,
    line "cfg_pause" user.pause.word,
    line "cfg_duplex" user.duplex.word,
    line "op_connector" transceiver.connector.word,
    line "connector_status" transceiver.status.word,
    line "hw_interface_type" transceiver.medium.word,
    line "pluggable" (Interface.flagText cage.pluggable),
    line "max_speed" (Numeral.ofWord cage.maxSpeed),
    line "capabilities" cage.capabilities.text,
    line "lane_split" user.laneSplit.word,
    line "split_parent" (interface.splitParent.getD "none")] ++
  (if interface.splitChildren.isEmpty then [line "split_children" "none"]
    else childLines 0 interface.splitChildren)

def ofInterface (interface : Interface) : String :=
  String.join (interfaceLines interface)

def ofRegistry (registry : Registry) (name : Option String) : String :=
  match name with
  | some name =>
      match registry.interface? name with
      | some interface => ofInterface interface
      | none => "Interface " ++ name ++ " not found\n"
  | none => String.join (registry.interfaces.values.map ofInterface)

end LinkReconciler.Report
