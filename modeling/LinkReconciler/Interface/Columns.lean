import LinkReconciler.Interface.Entity

/-!
The columns in which the operational state is written back.
-/

namespace LinkReconciler.Interface

def flagText (flag : Bool) : String :=
  if flag then "true" else "false"

def linkColumns (interface : Interface) : List (String × String) :=
  let oper := interface.oper
  [("autoneg", if oper.autonegState = .enabled then "on" else "off"),
    ("duplex", oper.duplex.word),
    ("pause", oper.pause.word)] ++
  (match oper.mtu.value? with
    | some bytes =>
        if Mtu.least ≤ bytes then [("mtu", Numeral.ofWord bytes)] else []
    | none => []) ++
  (if oper.speeds.speeds.isEmpty then [] else [("speeds", oper.speeds.text)]) ++
  [("interface_type", interface.transceiver.medium.word)]

/-- The hardware configuration. Beyond the switch itself it says something only
of physical interfaces in service. -/
def hwColumns (interface : Interface) : ColumnMap :=
  .ofList (("enable", flagText interface.oper.enabled) ::
    if interface.oper.enabled && !interface.kind.isLogical then
      interface.linkColumns
    else [])

def errorColumn (interface : Interface) : Option String :=
  if interface.oper.enabled then none else some interface.oper.reason.word

end LinkReconciler.Interface
