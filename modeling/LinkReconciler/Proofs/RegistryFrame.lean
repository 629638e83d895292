import LinkReconciler.Proofs.Lookup
import LinkReconciler.Registry.SplitLink

/-!
What the operations on the registry leave alone. The links of an interface, the
transceiver it should use and the lane split above it depend only on what rows
declare; renewing transceivers changes nothing else.
-/

namespace LinkReconciler

namespace Interface

/-- What the row of an interface says, the written columns included. -/
def recorded (interface : Interface) : Interface :=
  { interface with transceiver := {}, oper := {}, portAdmin := .down, layers := [] }

/-- What the clients' columns of its row say of an interface. -/
def declared (interface : Interface) : Interface :=
  { interface.recorded with hwConfig := ∅, forwarding := ∅, error := none }

theorem splitParent_of_declared {left right : Interface}
    (same : left.declared = right.declared) : left.splitParent = right.splitParent := by
  have links : left.declared.splitParent = right.declared.splitParent := by rw [same]
  exact links

end Interface

namespace Registry

def recorded? (registry : Registry) (name : String) : Option Interface :=
  (registry.interface? name).map Interface.recorded

def declared? (registry : Registry) (name : String) : Option Interface :=
  (registry.interface? name).map Interface.declared

theorem declared?_of_recorded? {left right : Registry} {name : String}
    (same : left.recorded? name = right.recorded? name) :
    left.declared? name = right.declared? name := by
  have declares (registry : Registry) : registry.declared? name =
      (registry.recorded? name).map Interface.declared := by
    unfold declared? recorded?
    rw [Option.map_map]
    rfl
  rw [declares, declares, same]

theorem declared?_eq_of_recorded? {left right : Registry}
    (same : left.recorded? = right.recorded?) : left.declared? = right.declared? :=
  funext fun name => declared?_of_recorded? (congrFun same name)

/-! ## Look-ups after a change of one interface -/

theorem hasInterface_iff (registry : Registry) (name : String) :
    registry.hasInterface name = true ↔
      ∃ interface, registry.interface? name = some interface :=
  Dict.contains_iff registry.interfaces name

theorem hasInterface_eq_recorded? (registry : Registry) (name : String) :
    registry.hasInterface name = (registry.recorded? name).isSome := by
  simp [hasInterface, Dict.contains, recorded?, interface?]

theorem hasInterface_eq_declared? (registry : Registry) (name : String) :
    registry.hasInterface name = (registry.declared? name).isSome := by
  simp [hasInterface, Dict.contains, declared?, interface?]

theorem interface?_modifyInterface (registry : Registry) (name other : String)
    (change : Interface → Interface) :
    (registry.modifyInterface name change).interface? other =
      if name = other then (registry.interface? other).map change
      else registry.interface? other :=
  Dict.get?_modify registry.interfaces name other change

theorem interface?_removeInterface (registry : Registry) (name other : String) :
    (registry.removeInterface name).interface? other =
      if name = other then none else registry.interface? other :=
  Dict.get?_erase registry.interfaces name other

theorem map_interface?_modifyInterface {α : Type} (registry : Registry) (name : String)
    (change : Interface → Interface) (view : Interface → α)
    (keeps : ∀ interface, registry.interface? name = some interface →
      view (change interface) = view interface) (other : String) :
    ((registry.modifyInterface name change).interface? other).map view =
      (registry.interface? other).map view := by
  rw [interface?_modifyInterface]
  by_cases hit : name = other
  · subst hit
    rw [if_pos rfl]
    cases found : registry.interface? name with
    | none => rfl
    | some interface => simp [keeps interface found]
  · rw [if_neg hit]

/-! ## What depends on the declared part only -/

theorem transceiverDue_eq (registry : Registry) (interface : Interface) :
    registry.transceiverDue interface =
      match interface.splitParent.bind registry.declared? with
      | some parent => .ofLane parent.report
      | none => .ofCage interface.cage interface.report := by
  unfold transceiverDue parent? declared?
  cases interface.splitParent with
  | none => rfl
  | some parent =>
      simp only [Option.bind_some]
      cases registry.interface? parent <;> rfl

theorem laneSplitAbove?_eq (registry : Registry) (name : String) :
    registry.laneSplitAbove? name =
      ((registry.declared? name).bind fun interface =>
        interface.splitParent.bind registry.declared?).map (·.user.laneSplit) := by
  unfold laneSplitAbove? parent? declared?
  cases registry.interface? name with
  | none => rfl
  | some interface =>
      simp only [Option.bind_some, Option.map_some, Interface.declared, Interface.recorded]
      cases interface.splitParent with
      | none => rfl
      | some parent =>
          simp only [Option.bind_some]
          cases registry.interface? parent <;> rfl

theorem childrenOf_eq (registry : Registry) (name : String) :
    registry.childrenOf name =
      ((registry.declared? name).map (·.splitChildren)).getD [] := by
  unfold childrenOf declared?
  cases registry.interface? name <;> rfl

theorem pointsTo_eq (registry : Registry) (parent child : String) :
    registry.pointsTo parent child =
      decide ((registry.declared? child).bind (·.splitParent) = some parent) := by
  unfold pointsTo declared?
  cases registry.interface? child with
  | none => simp
  | some interface => rfl

theorem withKnownParent_eq (registry : Registry) (name : String) :
    registry.withKnownParent name =
      match (registry.declared? name).bind fun interface =>
        interface.splitParent.bind registry.declared? with
      | some _ => [name]
      | none => [] := by
  unfold withKnownParent parent? declared?
  cases registry.interface? name with
  | none => rfl
  | some interface =>
      simp only [Option.bind_some, Option.map_some, Interface.declared, Interface.recorded]
      cases interface.splitParent with
      | none => rfl
      | some parent =>
          simp only [Option.bind_some]
          cases registry.interface? parent <;> rfl

theorem knownChildren_of_found {registry : Registry} {name : String}
    {interface : Interface} (found : registry.interface? name = some interface) :
    registry.knownChildren name =
      interface.splitChildren.filter registry.hasInterface := by
  simp [knownChildren, childrenOf, found]

theorem linkedChildren_of_found {registry : Registry} {name : String}
    {interface : Interface} (found : registry.interface? name = some interface) :
    registry.linkedChildren name =
      interface.splitChildren.filter (registry.pointsTo name) := by
  simp [linkedChildren, childrenOf, found]

section Agreement
variable {left right : Registry} (same : left.declared? = right.declared?)
include same

theorem transceiverDue_congr (interface : Interface) :
    left.transceiverDue interface = right.transceiverDue interface := by
  rw [transceiverDue_eq, transceiverDue_eq, same]

theorem laneSplitAbove?_congr (name : String) :
    left.laneSplitAbove? name = right.laneSplitAbove? name := by
  rw [laneSplitAbove?_eq, laneSplitAbove?_eq, same]

theorem hasInterface_congr (name : String) :
    left.hasInterface name = right.hasInterface name := by
  rw [hasInterface_eq_declared?, hasInterface_eq_declared?, same]

theorem pointsTo_congr (name : String) : left.pointsTo name = right.pointsTo name := by
  funext child
  rw [pointsTo_eq, pointsTo_eq, same]

theorem linkedChildren_congr (name : String) :
    left.linkedChildren name = right.linkedChildren name := by
  unfold linkedChildren
  rw [childrenOf_eq, childrenOf_eq, same, pointsTo_congr same]

theorem knownChildren_congr (name : String) :
    left.knownChildren name = right.knownChildren name := by
  have known : left.hasInterface = right.hasInterface :=
    funext (hasInterface_congr same)
  unfold knownChildren
  rw [childrenOf_eq, childrenOf_eq, same, known]

theorem withKnownParent_congr (name : String) :
    left.withKnownParent name = right.withKnownParent name := by
  rw [withKnownParent_eq, withKnownParent_eq, same]

end Agreement

/-! ## Renewing transceivers -/

def renewed (registry : Registry) (interface : Interface) : Interface :=
  { interface with transceiver := registry.transceiverDue interface }

theorem renewed_renewed (registry : Registry) (interface : Interface) :
    registry.renewed (registry.renewed interface) = registry.renewed interface := rfl

theorem recorded?_renew (registry : Registry) (name : String) :
    (registry.renew name).recorded? = registry.recorded? :=
  funext (map_interface?_modifyInterface registry name _ Interface.recorded fun _ _ => rfl)

theorem recorded?_renewAll (registry : Registry) (names : List String) :
    (registry.renewAll names).recorded? = registry.recorded? := by
  unfold renewAll
  induction names generalizing registry with
  | nil => rfl
  | cons name rest ih => rw [List.foldl_cons, ih, recorded?_renew]

theorem ports_renewAll (registry : Registry) (names : List String) :
    (registry.renewAll names).ports = registry.ports := by
  unfold renewAll
  induction names generalizing registry with
  | nil => rfl
  | cons name rest ih => rw [List.foldl_cons, ih]; rfl

theorem interface?_renewAll (registry : Registry) (names : List String) (name : String) :
    (registry.renewAll names).interface? name =
      if name ∈ names then (registry.interface? name).map registry.renewed
      else registry.interface? name := by
  unfold renewAll
  induction names generalizing registry with
  | nil => rfl
  | cons head rest ih =>
      have frame : (registry.renew head).declared? = registry.declared? :=
        declared?_eq_of_recorded? (recorded?_renew registry head)
      have renews : (registry.renew head).renewed = registry.renewed := by
        funext interface
        simp only [renewed, transceiverDue_congr frame]
      have here : (registry.renew head).interface? name =
          if head = name then (registry.interface? name).map registry.renewed
          else registry.interface? name :=
        interface?_modifyInterface registry head name registry.renewed
      rw [List.foldl_cons, ih, renews, here]
      by_cases hit : head = name
      · subst hit
        cases found : registry.interface? head <;> simp [renewed_renewed]
      · have other : name ≠ head := fun same => hit same.symm
        simp [hit, other]

theorem renewAll_append (registry : Registry) (names more : List String) :
    registry.renewAll (names ++ more) = (registry.renewAll names).renewAll more :=
  List.foldl_append

end Registry

end LinkReconciler
