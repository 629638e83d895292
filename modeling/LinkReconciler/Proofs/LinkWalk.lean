import LinkReconciler.Proofs.SplitTracking

/-!
What following the links of an interface does to a registry. The children that an
interface lists are gone through in turn, each looked up in the registry as the ones
before it left it. Renewing changes a transceiver and nothing else, and the transceiver
that an interface should use does not depend on those in effect, so the list may repeat
a child or hold the interface itself, its parent or children of others: whatever was
reached has the transceiver that it should use in the end.
-/

namespace LinkReconciler

def Interface.unfitted (interface : Interface) : Interface :=
  { interface with transceiver := {} }

namespace Registry

/-- From one registry to the other the interfaces reached came to have the transceiver
that they should use in the latter, and nothing else changed. -/
structure Refits (before after : Registry) (reached : String → Prop) : Prop where
  fitted : ∀ name, reached name → ∃ interface, after.interface? name = some interface ∧
    after.dueTransceiver? name = some interface.transceiver
  others : ∀ name, ¬ reached name → after.interface? name = before.interface? name
  unfitted : ∀ name, (after.interface? name).map Interface.unfitted =
    (before.interface? name).map Interface.unfitted
  ports : after.ports = before.ports

theorem Refits.congr {before after : Registry} {reached met : String → Prop}
    (refits : Refits before after reached) (same : ∀ name, met name ↔ reached name) :
    Refits before after met where
  fitted name isMet := refits.fitted name ((same name).mp isMet)
  others name unmet := refits.others name fun isReached => unmet ((same name).mpr isReached)
  unfitted := refits.unfitted
  ports := refits.ports

theorem renewAll_refits {registry : Registry} {names : List String}
    (known : ∀ name ∈ names, registry.hasInterface name = true) :
    Refits registry (registry.renewAll names) (· ∈ names) := by
  -- Renewing declares nothing, so what is due is the same before and after.
  have declared : (registry.renewAll names).declared? = registry.declared? :=
    declared?_eq_of_recorded? (recorded?_renewAll registry names)
  refine ⟨?fitted, ?others, ?unfitted, ports_renewAll registry names⟩
  case fitted =>
    intro name member
    obtain ⟨previous, was⟩ := (hasInterface_iff registry name).mp (known name member)
    have found : (registry.renewAll names).interface? name =
        some (registry.renewed previous) := by
      rw [interface?_renewAll, if_pos member, was, Option.map_some]
    refine ⟨registry.renewed previous, found, ?_⟩
    unfold dueTransceiver?
    rw [found, Option.map_some, transceiverDue_congr declared]
    rfl
  case others =>
    intro name unreached
    rw [interface?_renewAll, if_neg unreached]
  case unfitted =>
    intro name
    rw [interface?_renewAll]
    split
    · rw [Option.map_map]
      rfl
    · rfl

/-! ## Names in turn -/

/-- Goes through names in turn. Those that pass a test of the registry, as the names
before them left it, are renewed and given back. -/
def renewInTurn (test : Registry → String → Bool) :
    List String → Registry → List String × Registry
  | [], registry => ([], registry)
  | name :: rest, registry =>
      if test registry name then
        let (others, after) := renewInTurn test rest (registry.renew name)
        (name :: others, after)
      else renewInTurn test rest registry

theorem renewInTurn_eq {test : Registry → String → Bool}
    (declares : ∀ left right : Registry, left.declared? = right.declared? →
      test left = test right) (names : List String) (registry : Registry) :
    renewInTurn test names registry =
      (names.filter (test registry), registry.renewAll (names.filter (test registry))) := by
  induction names generalizing registry with
  | nil => rfl
  | cons name rest ih =>
      have later : test (registry.renew name) = test registry :=
        declares _ _ (declared?_eq_of_recorded? (recorded?_renew registry name))
      by_cases passes : test registry name = true
      · rw [renewInTurn, if_pos passes, ih, later, List.filter_cons_of_pos passes]
        rfl
      · rw [renewInTurn, if_neg passes, ih, List.filter_cons_of_neg passes]

/-! ## The links of an interface -/

section Found

variable {registry : Registry} {name : String} {interface : Interface}
variable (found : registry.interface? name = some interface)
include found

theorem withKnownParent_of_found :
    registry.withKnownParent name =
      if (registry.parent? interface).isSome then [name] else [] := by
  unfold withKnownParent
  rw [found, Option.bind_some]
  cases registry.parent? interface <;> rfl

theorem mem_withKnownParent_iff (other : String) :
    other ∈ registry.withKnownParent name ↔
      other = name ∧ (registry.parent? interface).isSome := by
  rw [withKnownParent_of_found found]
  cases registry.parent? interface <;> simp

theorem transceiverDue_of_splitParent {child : Interface}
    (points : child.splitParent = some name) :
    registry.transceiverDue child = .ofLane interface.report := by
  unfold transceiverDue parent?
  rw [points, Option.bind_some, found]

theorem link_inTurn :
    registry.link name = renewInTurn (·.pointsTo name) interface.splitChildren
      (if (registry.parent? interface).isSome then registry.renew name else registry) := by
  -- The interface itself comes before its children, and declares the same afterwards.
  have start : (if (registry.parent? interface).isSome then registry.renew name
      else registry) = registry.renewAll (registry.withKnownParent name) := by
    rw [withKnownParent_of_found found]
    split <;> rfl
  have points : (registry.renewAll (registry.withKnownParent name)).pointsTo name =
      registry.pointsTo name :=
    pointsTo_congr (declared?_eq_of_recorded? (recorded?_renewAll registry _)) name
  rw [start, renewInTurn_eq fun _ _ same => pointsTo_congr same name, points, link,
    linkedChildren_of_found found, renewAll_append]

theorem renewChildren_inTurn :
    registry.renewChildren name =
      renewInTurn hasInterface interface.splitChildren registry := by
  rw [renewInTurn_eq fun _ _ same => funext (hasInterface_congr same), renewChildren,
    knownChildren_of_found found]

theorem linked_refits :
    Refits registry (registry.link name).2 fun other =>
      other ∈ (registry.link name).1 ∨ other = name ∧ (registry.parent? interface).isSome := by
  have known : ∀ other ∈ registry.withKnownParent name ++ registry.linkedChildren name,
      registry.hasInterface other = true := by
    intro other member
    rw [hasInterface_iff]
    rcases List.mem_append.mp member with own | child
    · have same : other = name := ((mem_withKnownParent_iff found other).mp own).1
      exact ⟨interface, same ▸ found⟩
    · obtain ⟨lower, present, _⟩ := exists_of_pointsTo (List.mem_filter.mp child).2
      exact ⟨lower, present⟩
  refine (renewAll_refits known).congr fun other => ?_
  rw [List.mem_append, mem_withKnownParent_iff found]
  exact or_comm

theorem linked_sees {child : String} (member : child ∈ (registry.link name).1) :
    ((registry.link name).2.interface? child).map (·.transceiver) =
      some (.ofLane interface.report) := by
  obtain ⟨previous, was, names⟩ := exists_of_pointsTo (List.mem_filter.mp member).2
  have reached : child ∈ registry.withKnownParent name ++ registry.linkedChildren name :=
    List.mem_append_right _ member
  rw [link, interface?_renewAll, if_pos reached, was, Option.map_some, Option.map_some,
    renewed, transceiverDue_of_splitParent found names]

end Found

theorem renewedChildren_refits (registry : Registry) (name : String) :
    Refits registry (registry.renewChildren name).2 (· ∈ (registry.renewChildren name).1) :=
  renewAll_refits fun _ member => (List.mem_filter.mp member).2

theorem pointsTo_eq_any (registry : Registry) (parent child : String) :
    registry.pointsTo parent child =
      (registry.interface? child).any (·.splitParent = some parent) := by
  unfold pointsTo
  cases registry.interface? child <;> rfl

/-- Nothing comes of following the links of an interface that is not known. Linking a
known one goes through the children that it lists and gives those that name it as their
parent, in the order and as often as they are listed, and these see its module; besides
them it reaches the interface itself, if the parent that it names is known. Renewing its
children gives those listed that are known, whatever parent they name. What was reached
has the transceiver that it should use in the end, and nothing else changed. -/
theorem linking_renews_exactly (registry : Registry) (name : String) :
    match registry.interface? name with
    | none =>
        registry.link name = ([], registry) ∧ registry.renewChildren name = ([], registry)
    | some interface =>
        let parented := (registry.parent? interface).isSome
        let linking := registry.link name
        let renewal := registry.renewChildren name
        linking = renewInTurn (·.pointsTo name) interface.splitChildren
          (if parented then registry.renew name else registry) ∧
        linking.1 = interface.splitChildren.filter (fun child =>
          (registry.interface? child).any (·.splitParent = some name)) ∧
        (∀ child ∈ linking.1, (linking.2.interface? child).map (·.transceiver) =
          some (.ofLane interface.report)) ∧
        (Refits registry linking.2 fun other =>
          other ∈ linking.1 ∨ other = name ∧ parented) ∧
        renewal = renewInTurn hasInterface interface.splitChildren registry ∧
        renewal.1 = interface.splitChildren.filter registry.hasInterface ∧
        Refits registry renewal.2 (· ∈ renewal.1) := by
  cases found : registry.interface? name with
  | none =>
      have childless : registry.childrenOf name = [] := by
        rw [childrenOf, found]
      have unreached : registry.withKnownParent name = [] := by
        rw [withKnownParent, found]
        rfl
      constructor
      · rw [link, linkedChildren, childless, unreached]
        rfl
      · rw [renewChildren, knownChildren, childless]
        rfl
  | some interface =>
      have listed : (registry.link name).1 = interface.splitChildren.filter (fun child =>
          (registry.interface? child).any (·.splitParent = some name)) :=
        (linkedChildren_of_found found).trans
          (List.filter_congr fun child _ => pointsTo_eq_any registry name child)
      exact ⟨link_inTurn found, listed, fun child => linked_sees found, linked_refits found,
        renewChildren_inTurn found, knownChildren_of_found found,
        renewedChildren_refits registry name⟩

/-- A parent that lists a child twice, one that is not known, one that names another
parent, itself, and the parent that it names itself. -/
def tangledParent : Interface where
  name := "49"
  report := { connector := .qsfp28Sr4, status := .supported }
  splitParent := some "48"
  splitChildren := ["49-1", "50", "49-2", "49-1", "49", "48"]

def tangled : Registry where
  interfaces := .ofList [("49", tangledParent),
    ("48", { name := "48", splitParent := some "49" }),
    ("49-1", { name := "49-1", splitParent := some "49" }),
    ("49-2", { name := "49-2", splitParent := some "48" })]

theorem tangled_renewed :
    let linking := tangled.link "49"
    linking.1 = ["49-1", "49-1", "48"] ∧
      (tangled.renewChildren "49").1 = ["49-1", "49-2", "49-1", "49", "48"] ∧
      (linking.2.interface? "48").map (·.transceiver) =
        some (.ofConnector .sfp28Sr .supported) ∧
      (∃ interface, linking.2.interface? "49" = some interface ∧
        linking.2.dueTransceiver? "49" = some interface.transceiver) ∧
      linking.2.interface? "49-2" = tangled.interface? "49-2" := by
  intro linking
  have outcome := linking_renews_exactly tangled "49"
  rw [show tangled.interface? "49" = some tangledParent by decide +kernel] at outcome
  obtain ⟨_, listed, sees, refits, _, known, _⟩ := outcome
  have linked : linking.1 = ["49-1", "49-1", "48"] := listed.trans (by decide +kernel)
  refine ⟨linked, known.trans (by decide +kernel), sees "48" ?_, refits.fitted "49" ?_,
    refits.others "49-2" ?_⟩
  · exact linked ▸ by decide
  · exact Or.inr ⟨rfl, by decide +kernel⟩
  · rintro (member | ⟨same, _⟩)
    · exact absurd (linked ▸ member) (by decide)
    · exact absurd same (by decide)

end Registry

end LinkReconciler
