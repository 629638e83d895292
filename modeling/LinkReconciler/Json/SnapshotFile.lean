import LinkReconciler.Error
import LinkReconciler.FileContent
import LinkReconciler.Json.Value
import LinkReconciler.Table.Row

/-!
Database snapshots as JSON. A row is an object whose columns may be missing and
may stand among keys that mean nothing; it may also be an array that gives the
first columns in their order.
-/

namespace LinkReconciler

namespace Json

/-! ## Simple columns -/

def text? : Json → Option String
  | .text content => content
  | _ => none

def optionalText? : Json → Option (Option String)
  | .null => some none
  | .text content => content.map some
  | _ => none

def list? {α : Type} (read : Json → Option α) : Json → Option (List α)
  | .array elements => elements.mapM read
  | _ => none

def named? {α : Type} (read : Json → Option α) :
    JsonText × Json → Option (String × α)
  | (some key, value) => (read value).map fun value => (key, value)
  | (none, _) => none

/-- A map of texts; the later of two members with one key wins. -/
def columnMap? : Json → Option ColumnMap
  | .object members => (members.mapM (named? text?)).map Dict.ofList
  | _ => none

def int64? : Json → Option Int64
  | .integer value =>
      if Int64.minValue.toInt ≤ value ∧ value ≤ Int64.maxValue.toInt then
        some (Int64.ofInt value)
      else none
  | _ => none

/-! ## Records -/

def record? (columns : List String) : Json → Option (List (String × Json))
  | .object members => do
      let named ← members.mapM (named? some)
      let given := named.filter fun member => columns.contains member.1
      if (given.map (·.1)).Nodup then return given else none
  | .array elements =>
      if elements.length ≤ columns.length then some (columns.zip elements)
      else none
  | _ => none

def column? {α : Type} (record : List (String × Json)) (name : String)
    (read : Json → Option α) (default : α) : Option α :=
  match record.lookup name with
  | some value => read value
  | none => some default

def interfaceRow? (json : Json) : Option InterfaceRow := do
  let record ← json.record? ["name", "type", "user_config", "hw_intf_info",
    "pm_info", "bond_status", "hw_status", "split_parent", "split_children",
    "hw_intf_config", "forwarding_state", "error"]
  return {
    name := ← column? record "name" text? ""
    kind := ← column? record "type" text? ""
    userConfig := ← column? record "user_config" columnMap? ∅
    hwInfo := ← column? record "hw_intf_info" columnMap? ∅
    moduleInfo := ← column? record "pm_info" columnMap? ∅
    bondStatus := ← column? record "bond_status" columnMap? ∅
    hwStatus := ← column? record "hw_status" columnMap? ∅
    splitParent := ← column? record "split_parent" optionalText? none
    splitChildren := ← column? record "split_children" (list? text?) []
    hwConfig := ← column? record "hw_intf_config" columnMap? ∅
    forwarding := ← column? record "forwarding_state" columnMap? ∅
    error := ← column? record "error" optionalText? none }

def portRow? (json : Json) : Option PortRow := do
  let record ← json.record? ["name", "admin", "interfaces"]
  return {
    name := ← column? record "name" text? ""
    admin := ← column? record "admin" optionalText? none
    interfaces := ← column? record "interfaces" (list? text?) [] }

def subsystemRow? (json : Json) : Option SubsystemRow := do
  let record ← json.record? ["name", "other_info"]
  return {
    name := ← column? record "name" text? ""
    otherInfo := ← column? record "other_info" columnMap? ∅ }

def systemRow? (json : Json) : Option SystemRow := do
  let record ← json.record? ["cur_cfg"]
  return { generation := ← column? record "cur_cfg" int64? 0 }

def snapshot? (json : Json) : Option Snapshot := do
  let record ← json.record? ["system", "subsystems", "interfaces", "ports"]
  return {
    system := ← column? record "system" systemRow? {}
    subsystems := ← column? record "subsystems" (list? subsystemRow?) []
    interfaces := ← column? record "interfaces" (list? interfaceRow?) []
    ports := ← column? record "ports" (list? portRow?) [] }

end Json

namespace Snapshot

def read? (text : String) : Option Snapshot :=
  (Json.read? text).bind Json.snapshot?

/-- Loads a snapshot file. Whatever is wrong with it, the error is the same kind. -/
def load (path : String) (content : FileContent) :
    Except StoreError Snapshot :=
  match content with
  | .missing => .error (.snapshot path "no such file")
  | .unreadable message => .error (.snapshot path message)
  | .bytes _ =>
      match content.text? with
      | none => .error (.snapshot path "not UTF-8 text")
      | some text =>
          match read? text with
          | some snapshot => .ok snapshot
          | none => .error (.snapshot path "not a snapshot in JSON")

end Snapshot

end LinkReconciler
