import LinkReconciler.Manager.Reconcile
import LinkReconciler.Proofs.RegistryFrame

/-!
The steps of a reconciliation, each as a law of its own. A step that follows links
renews some transceivers and marks some interfaces (`Touched`); the other steps
remove, add or overwrite a single interface, or change the ports.
-/

namespace LinkReconciler.Work

/-- A step that only renews the transceivers of some names and marks some names. -/
structure Touched (before after : Work) (renewed marked : List String) : Prop where
  registry : after.registry = before.registry.renewAll renewed
  maxMtu : after.maxMtu = before.maxMtu
  dirty : ∀ name, after.dirty.contains name = true ↔
    name ∈ marked ∨ before.dirty.contains name = true

namespace Touched

variable {first second third : Work}

theorem refl (work : Work) : Touched work work [] [] :=
  ⟨rfl, rfl, fun _ => by simp⟩

theorem trans {renewed marked more others : List String}
    (left : Touched first second renewed marked)
    (right : Touched second third more others) :
    Touched first third (renewed ++ more) (marked ++ others) where
  registry := by
    rw [right.registry, left.registry, Registry.renewAll_append]
  maxMtu := right.maxMtu.trans left.maxMtu
  dirty name := by
    rw [right.dirty, left.dirty, List.mem_append]
    exact or_left_comm.trans or_assoc.symm

theorem recorded? {renewed marked : List String}
    (touched : Touched first second renewed marked) :
    second.registry.recorded? = first.registry.recorded? := by
  rw [touched.registry, Registry.recorded?_renewAll]

theorem declared? {renewed marked : List String}
    (touched : Touched first second renewed marked) :
    second.registry.declared? = first.registry.declared? :=
  Registry.declared?_eq_of_recorded? touched.recorded?

theorem ports {renewed marked : List String}
    (touched : Touched first second renewed marked) :
    second.registry.ports = first.registry.ports := by
  rw [touched.registry, Registry.ports_renewAll]

theorem interface? {renewed marked : List String}
    (touched : Touched first second renewed marked) (name : String) :
    second.registry.interface? name =
      if name ∈ renewed then
        (first.registry.interface? name).map first.registry.renewed
      else first.registry.interface? name := by
  rw [touched.registry, Registry.interface?_renewAll]

end Touched

/-! ## Steps along the links -/

theorem mark_touched (work : Work) (names : List String) :
    Touched work (work.mark names) [] names :=
  ⟨rfl, rfl, NameSet.contains_addAll_iff work.dirty names⟩

theorem link_touched (work : Work) (name : String) :
    Touched work (work.link name)
      (work.registry.withKnownParent name ++ work.registry.linkedChildren name)
      (work.registry.linkedChildren name) :=
  ⟨rfl, rfl, NameSet.contains_addAll_iff work.dirty _⟩

theorem renew_touched (work : Work) (name : String) :
    Touched work { work with registry := work.registry.renew name } [name] [] :=
  ⟨rfl, rfl, fun _ => by simp⟩

theorem renewChildren_touched (work : Work) (name : String) :
    Touched work (work.renewChildren name)
      (work.registry.knownChildren name) (work.registry.knownChildren name) :=
  ⟨rfl, rfl, NameSet.contains_addAll_iff work.dirty _⟩

def linkReach (registry : Registry) (name : String) : List String :=
  registry.withKnownParent name ++ registry.linkedChildren name

theorem mem_linkReach {registry : Registry} {name other : String}
    (reached : other ∈ linkReach registry name) :
    other = name ∨ other ∈ registry.linkedChildren name := by
  rcases List.mem_append.mp reached with own | child
  · left
    unfold Registry.withKnownParent at own
    split at own
    · exact List.mem_singleton.mp own
    · cases own
  · exact Or.inr child

theorem linkReach_congr {left right : Registry}
    (same : left.declared? = right.declared?) (name : String) :
    linkReach left name = linkReach right name := by
  unfold linkReach
  rw [Registry.withKnownParent_congr same, Registry.linkedChildren_congr same]

theorem linkInserted_touched (work : Work) (name : String) :
    Touched work (work.linkInserted name) (linkReach work.registry name)
      (work.registry.linkedChildren name ++ [name]) := by
  have step := (link_touched work name).trans (mark_touched _ [name])
  rwa [List.append_nil] at step

/-- Linking several new interfaces reaches what each of them reaches: links are
declared, so the order of the names does not matter. -/
theorem linkAll_touched (work : Work) (names : List String) :
    Touched work (names.foldl linkInserted work)
      (names.flatMap (linkReach work.registry))
      (names.flatMap fun name => work.registry.linkedChildren name ++ [name]) := by
  induction names generalizing work with
  | nil => exact Touched.refl work
  | cons name rest ih =>
      have head := linkInserted_touched work name
      have tail := ih (work.linkInserted name)
      have reach : linkReach (work.linkInserted name).registry = linkReach work.registry :=
        funext (linkReach_congr head.declared?)
      have children : (work.linkInserted name).registry.linkedChildren =
          work.registry.linkedChildren :=
        funext (Registry.linkedChildren_congr head.declared?)
      rw [reach, children] at tail
      exact head.trans tail

/-! ## Interfaces that go and come -/

def without (work : Work) (name : String) : Work :=
  { work with
    registry := work.registry.removeInterface name
    dirty := work.dirty.erase name }

theorem forget_unknown {work : Work} {name : String}
    (unknown : work.registry.interface? name = none) : work.forget name = work := by
  simp [forget, unknown]

theorem forget_touched {work : Work} {name : String} {interface : Interface}
    (found : work.registry.interface? name = some interface) :
    Touched (work.without name) (work.forget name)
      (interface.splitChildren.filter (work.registry.removeInterface name).hasInterface)
      (interface.splitChildren.filter
        (work.registry.removeInterface name).hasInterface) := by
  unfold forget
  rw [found]
  exact ⟨rfl, rfl, NameSet.contains_addAll_iff (work.dirty.erase name) _⟩

theorem ports_forget (work : Work) (name : String) :
    (work.forget name).registry.ports = work.registry.ports := by
  cases found : work.registry.interface? name with
  | none => rw [forget_unknown found]
  | some interface => exact (forget_touched found).ports

theorem forgetAll_ports (names : List String) (work : Work) :
    (names.foldl forget work).registry.ports = work.registry.ports := by
  induction names generalizing work with
  | nil => rfl
  | cons name rest ih => exact (ih (work.forget name)).trans (ports_forget work name)

theorem enroll_new (arbiter : Arbiter) {work : Work} {row : InterfaceRow}
    (absent : work.registry.hasInterface row.name = false) :
    work.enroll arbiter row =
      { work with registry := { work.registry with
          interfaces := work.registry.interfaces.insert row.name
            (newcomer arbiter work row) } } := by
  have name : (newcomer arbiter work row).name = row.name := rfl
  unfold enroll Registry.insertInterface
  rw [name, absent]
  rfl

/-! ## Changed interfaces -/

def overwritten (work : Work) (before : Interface) (row : InterfaceRow) : Work :=
  { work with registry := work.registry.modifyInterface row.name fun _ =>
      before.update row work.maxMtu }

theorem interface?_overwritten_self {work : Work} {row : InterfaceRow}
    {before : Interface} (found : work.registry.interface? row.name = some before) :
    (work.overwritten before row).registry.interface? row.name =
      some (before.update row work.maxMtu) := by
  unfold overwritten
  rw [Registry.interface?_modifyInterface, if_pos rfl, found]
  rfl

theorem interface?_overwritten_ne (work : Work) (before : Interface)
    {row : InterfaceRow} {name : String} (differs : name ≠ row.name) :
    (work.overwritten before row).registry.interface? name =
      work.registry.interface? name := by
  unfold overwritten
  rw [Registry.interface?_modifyInterface, if_neg (Ne.symm differs)]

def rewires (before after : Interface) : Bool :=
  before.report ≠ after.report || before.user.laneSplit ≠ after.user.laneSplit

theorem revise_unknown {work : Work} {row : InterfaceRow}
    (unknown : work.registry.interface? row.name = none) : work.revise row = work := by
  simp [revise, unknown]

/-- How a revision reaches interfaces: it renews the interface itself, the children
linked to a new list of it and, where they would see the change, its known children. -/
structure Revised (work : Work) (before : Interface) (row : InterfaceRow)
    (renewed marked : List String) : Prop where
  touched : Touched (work.overwritten before row) (work.revise row) renewed marked
  marks : ∀ name ∈ renewed, name ∈ marked
  own : row.name ∈ renewed
  relinks : before.splitChildren ≠ row.splitChildren →
    ∀ child ∈ (work.overwritten before row).registry.linkedChildren row.name,
      child ∈ renewed
  reaches : rewires before (before.update row work.maxMtu) = true →
    ∀ child ∈ (work.overwritten before row).registry.knownChildren row.name,
      child ∈ renewed
  within : ∀ name ∈ marked, name = row.name ∨ name ∈ row.splitChildren

theorem relink_touched {work : Work} {name : String} {interface : Interface}
    (found : work.registry.interface? name = some interface) (relinks : Bool) :
    ∃ renewed marked,
      Touched work (if relinks then work.link name else work) renewed marked ∧
        (∀ other ∈ renewed, other = name ∨ other ∈ marked) ∧
        (relinks = true → ∀ child ∈ work.registry.linkedChildren name, child ∈ renewed) ∧
        ∀ other ∈ marked, other ∈ interface.splitChildren := by
  cases relinks with
  | false => exact ⟨[], [], Touched.refl work, by simp, by simp, by simp⟩
  | true =>
      refine ⟨_, _, link_touched work name, ?_, ?_, ?_⟩
      · exact fun other member => mem_linkReach member
      · exact fun _ child member => List.mem_append_right _ member
      · intro other member
        rw [Registry.linkedChildren_of_found found] at member
        exact (List.mem_filter.mp member).1

theorem respread_touched {work : Work} {name : String} {interface : Interface}
    (children : work.registry.knownChildren name =
      interface.splitChildren.filter work.registry.hasInterface) (changes : Bool) :
    ∃ known,
      Touched work (if interface.isSplitParent && changes then work.renewChildren name
        else work) known known ∧
        (changes = true → ∀ child ∈ work.registry.knownChildren name, child ∈ known) ∧
        ∀ child ∈ known, child ∈ interface.splitChildren := by
  by_cases spreads : (interface.isSplitParent && changes) = true
  · refine ⟨_, by simpa only [spreads, if_true] using renewChildren_touched work name,
      fun _ _ member => member, ?_⟩
    intro child member
    rw [children] at member
    exact (List.mem_filter.mp member).1
  · refine ⟨[], by simpa [spreads] using Touched.refl work, ?_, by simp⟩
    -- A parent without children has nobody to pass the change on to.
    intro changed child member
    have childless : interface.splitChildren = [] := by
      simpa [changed, Interface.isSplitParent] using spreads
    rw [children, childless] at member
    cases member

theorem revise_revised {work : Work} {row : InterfaceRow} {before : Interface}
    (found : work.registry.interface? row.name = some before) :
    ∃ renewed marked, Revised work before row renewed marked := by
  let start := work.overwritten before row
  let after := before.update row work.maxMtu
  let linked := if before.splitParent ≠ after.splitParent ||
      before.splitChildren ≠ after.splitChildren then start.link row.name else start
  let renewedSelf := { linked with registry := linked.registry.renew row.name }
  let spread := if after.isSplitParent && rewires before after then
    renewedSelf.renewChildren row.name else renewedSelf
  have shape : work.revise row = spread.mark [row.name] := by
    unfold revise
    rw [found]
    rfl
  have replaced : start.registry.interface? row.name = some after :=
    interface?_overwritten_self found
  obtain ⟨reached, listed, linkStep, onlyListed, reachesLinked, ownChildren⟩ :
      ∃ reached listed, Touched start linked reached listed ∧
        (∀ name ∈ reached, name = row.name ∨ name ∈ listed) ∧
        ((decide (before.splitParent ≠ after.splitParent) ||
            decide (before.splitChildren ≠ after.splitChildren)) = true →
          ∀ child ∈ start.registry.linkedChildren row.name, child ∈ reached) ∧
        ∀ name ∈ listed, name ∈ row.splitChildren :=
    relink_touched replaced _
  have selfStep := linkStep.trans (renew_touched linked row.name)
  -- Linking and renewing change no declaration, so the children known are those
  -- that the new row lists.
  have children : renewedSelf.registry.knownChildren row.name =
      start.registry.knownChildren row.name :=
    Registry.knownChildren_congr selfStep.declared? row.name
  obtain ⟨known, spreadStep, reaches, within⟩ :
      ∃ known, Touched renewedSelf spread known known ∧
        (rewires before after = true →
          ∀ child ∈ renewedSelf.registry.knownChildren row.name, child ∈ known) ∧
        ∀ child ∈ known, child ∈ row.splitChildren :=
    respread_touched (by
      rw [children, Registry.knownChildren_of_found replaced]
      exact congrArg after.splitChildren.filter
        (funext fun name => (Registry.hasInterface_congr selfStep.declared? name).symm)) _
  have all := (selfStep.trans spreadStep).trans (mark_touched spread [row.name])
  rw [← shape] at all
  refine ⟨_, _, all, ?_, ?_, ?_, ?_, ?_⟩
  · intro name member
    simp only [List.mem_append, List.mem_singleton, List.not_mem_nil, or_false] at member ⊢
    rcases member with (linkedName | own) | child
    · rcases onlyListed name linkedName with own | listedName
      · exact Or.inr own
      · exact Or.inl (Or.inl listedName)
    · exact Or.inr own
    · exact Or.inl (Or.inr child)
  · simp
  · intro changes child member
    have relinked : (decide (before.splitParent ≠ after.splitParent) ||
        decide (before.splitChildren ≠ after.splitChildren)) = true :=
      Bool.or_eq_true_iff.mpr (Or.inr (decide_eq_true changes))
    simp [reachesLinked relinked child member]
  · intro changes child member
    rw [show (work.overwritten before row).registry.knownChildren row.name =
      renewedSelf.registry.knownChildren row.name from children.symm] at member
    have reached := reaches changes child member
    simp [reached]
  · intro name member
    simp only [List.mem_append, List.mem_singleton, List.not_mem_nil, or_false] at member
    rcases member with (linkedName | child) | own
    · exact Or.inr (ownChildren name linkedName)
    · exact Or.inr (within name child)
    · exact Or.inl own

theorem interface?_revise_unlisted (work : Work) (row : InterfaceRow) {name : String}
    (differs : name ≠ row.name) (unlisted : name ∉ row.splitChildren) :
    (work.revise row).registry.interface? name = work.registry.interface? name := by
  cases found : work.registry.interface? row.name with
  | none => rw [revise_unknown found]
  | some before =>
      obtain ⟨renewed, marked, revised⟩ := revise_revised found
      have untouched : name ∉ renewed := fun member =>
        (revised.within name (revised.marks name member)).elim differs unlisted
      rw [revised.touched.interface?, if_neg untouched, interface?_overwritten_ne work before differs]

end LinkReconciler.Work
