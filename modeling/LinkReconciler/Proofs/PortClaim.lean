import LinkReconciler.Proofs.TableImage
import LinkReconciler.Proofs.WorkStep

/-!
Ports and the admin state they hand on. Following the changes of ports keeps the
ports equal to their rows, and an interface that none of the changed ports lists
before or after goes on inheriting what it inherited.
-/

namespace LinkReconciler

namespace Dict

variable {β : Type}

theorem find?_insertEntry_values (test : β → Bool) (key : String) (value : β)
    (entries : List (String × β)) (new : test value = false)
    (old : ∀ previous, (key, previous) ∈ entries → test previous = false) :
    ((insertEntry key value entries).map (·.2)).find? test =
      (entries.map (·.2)).find? test := by
  induction entries with
  | nil => simp [insertEntry, new]
  | cons head rest ih =>
      obtain ⟨name, previous⟩ := head
      have tail := ih fun other member => old other (List.mem_cons_of_mem _ member)
      unfold insertEntry
      split
      · simp [new]
      · split
        next same =>
          have head := old previous (same ▸ List.mem_cons_self)
          simp [new, head]
        next => simp only [List.map_cons, List.find?_cons, tail]

theorem find?_eraseEntry_values (test : β → Bool) (key : String)
    (entries : List (String × β))
    (old : ∀ previous, (key, previous) ∈ entries → test previous = false) :
    ((eraseEntry key entries).map (·.2)).find? test =
      (entries.map (·.2)).find? test := by
  unfold eraseEntry
  induction entries with
  | nil => rfl
  | cons head rest ih =>
      obtain ⟨name, previous⟩ := head
      have tail := ih fun other member => old other (List.mem_cons_of_mem _ member)
      by_cases hit : name = key
      · subst hit
        have head := old previous List.mem_cons_self
        rw [List.filter_cons_of_neg (by simp), tail]
        simp [head]
      · rw [List.filter_cons_of_pos (by simpa using hit)]
        simp only [List.map_cons, List.find?_cons, tail]

theorem find?_values_insert (dict : Dict β) (test : β → Bool) (key : String) (value : β)
    (new : test value = false)
    (old : ∀ previous, dict.get? key = some previous → test previous = false) :
    (dict.insert key value).values.find? test = dict.values.find? test :=
  find?_insertEntry_values test key value dict.entries new fun previous member =>
    old previous ((get?_eq_some_iff dict key previous).mpr member)

theorem find?_values_erase (dict : Dict β) (test : β → Bool) (key : String)
    (old : ∀ previous, dict.get? key = some previous → test previous = false) :
    (dict.erase key).values.find? test = dict.values.find? test :=
  find?_eraseEntry_values test key dict.entries fun previous member =>
    old previous ((get?_eq_some_iff dict key previous).mpr member)

end Dict

theorem Registry.inheritedAdmin_congr {left right : Registry}
    (same : left.ports = right.ports) (name : String) :
    left.inheritedAdmin name = right.inheritedAdmin name := by
  unfold inheritedAdmin portClaiming?
  rw [same]

def Registry.PortsOf (registry : Registry) (image : Dict PortRow) : Prop :=
  registry.ports = image.mapValues Port.ofRow

namespace Work

/-! ## Changes of ports -/

theorem interfaces_followPort (registry : Registry) (change : Change PortRow) :
    (followPort registry change).2.interfaces = registry.interfaces := by
  unfold followPort
  split
  · rfl
  · split <;> rfl

theorem port?_followPort (registry : Registry) {change : Change PortRow}
    (proper : change.Proper) (name : String) :
    (followPort registry change).2.port? name =
      if change.key = name then change.row.map Port.ofRow else registry.port? name := by
  cases proper with
  | put row => exact Dict.get?_insert registry.ports row.name name _
  | deleted key =>
      show (followPort registry (.del key)).2.port? name =
        if key = name then none else registry.port? name
      cases found : registry.port? key with
      | some old =>
          have removed : (followPort registry (.del key)).2 = registry.removePort key := by
            simp [followPort, Change.del, found]
          rw [removed]
          exact Dict.get?_erase registry.ports key name
      | none =>
          have kept : (followPort registry (.del key)).2 = registry := by
            simp [followPort, Change.del, found]
          rw [kept]
          by_cases own : key = name
          · rw [if_pos own, ← own, found]
          · rw [if_neg own]

theorem followPort_portsOf {registry : Registry} {image : Dict PortRow}
    (ports : registry.PortsOf image) {change : Change PortRow}
    (proper : change.Proper) :
    (followPort registry change).2.PortsOf (Change.apply image change) := by
  unfold Registry.PortsOf at ports ⊢
  ext name : 1
  have followed := port?_followPort registry proper name
  unfold Registry.port? at followed
  rw [followed, ports, Dict.get?_mapValues, Dict.get?_mapValues, Change.get?_apply]
  by_cases own : change.key = name
  · rw [if_pos own, if_pos own]
    cases proper <;> rfl
  · rw [if_neg own, if_neg own]

theorem inheritedAdmin_followPort (registry : Registry) (change : Change PortRow)
    {name : String} (unconcerned : name ∉ (followPort registry change).1) :
    (followPort registry change).2.inheritedAdmin name =
      registry.inheritedAdmin name := by
  have misses (port : Port) (absent : name ∉ port.members) :
      port.hasMember name = false := by
    simpa [Port.hasMember] using absent
  -- The claiming port is the first that lists the name. A changed port that lists it
  -- neither before nor after is passed over both times.
  unfold Registry.inheritedAdmin Registry.portClaiming?
  unfold followPort at unconcerned ⊢
  cases carried : change.row with
  | some row =>
      simp only [carried, List.mem_append, not_or] at unconcerned ⊢
      rw [Dict.find?_values_insert]
      · exact misses _ unconcerned.1
      · intro previous found
        have listed := unconcerned.2
        rw [show registry.port? (Port.ofRow row).name = some previous from found] at listed
        exact misses previous listed
  | none =>
      simp only [carried] at unconcerned ⊢
      cases found : registry.port? change.key with
      | none => rfl
      | some old =>
          simp only [found] at unconcerned ⊢
          unfold Registry.removePort
          rw [Dict.find?_values_erase]
          intro previous again
          have same : old = previous := Option.some.inj (found.symm.trans again)
          exact misses previous (same ▸ unconcerned)

theorem interfaces_followPortChanges (changes : List (Change PortRow))
    (registry : Registry) :
    (followPortChanges changes registry).2.interfaces = registry.interfaces := by
  induction changes generalizing registry with
  | nil => rfl
  | cons change rest ih =>
      exact (ih (followPort registry change).2).trans (interfaces_followPort registry change)

theorem followPortChanges_portsOf {registry : Registry} {image : Dict PortRow}
    (ports : registry.PortsOf image) (changes : List (Change PortRow))
    (proper : ∀ change ∈ changes, change.Proper) :
    (followPortChanges changes registry).2.PortsOf (Change.applyAll image changes) := by
  induction changes generalizing registry image with
  | nil => exact ports
  | cons change rest ih =>
      obtain ⟨head, tail⟩ := List.forall_mem_cons.mp proper
      exact ih (followPort_portsOf ports head) tail

theorem inheritedAdmin_followPortChanges (changes : List (Change PortRow))
    (registry : Registry) {name : String}
    (unconcerned : name ∉ (followPortChanges changes registry).1) :
    (followPortChanges changes registry).2.inheritedAdmin name =
      registry.inheritedAdmin name := by
  induction changes generalizing registry with
  | nil => rfl
  | cons change rest ih =>
      have first : name ∉ (followPort registry change).1 :=
        fun member => unconcerned (List.mem_append_left _ member)
      have later : name ∉ (followPortChanges rest (followPort registry change).2).1 :=
        fun member => unconcerned (List.mem_append_right _ member)
      exact (ih (followPort registry change).2 later).trans
        (inheritedAdmin_followPort registry change first)

/-! ## Passing the admin state on -/

/-- A step after which the concerned interfaces, and only they, have the admin
state they inherit now and are marked. -/
structure Inherited (before after : Work) (concerned : List String) : Prop where
  interface? : ∀ name, after.registry.interface? name =
    if name ∈ concerned then
      (before.registry.interface? name).map fun interface =>
        { interface with portAdmin := after.registry.inheritedAdmin name }
    else before.registry.interface? name
  dirty : ∀ name, after.dirty.contains name = true ↔
    (name ∈ concerned ∧ before.registry.hasInterface name = true) ∨
      before.dirty.contains name = true
  maxMtu : after.maxMtu = before.maxMtu

theorem ports_inheritAdmin (work : Work) (name : String) :
    (work.inheritAdmin name).registry.ports = work.registry.ports := by
  unfold inheritAdmin
  split <;> rfl

theorem inheritAdmin_inherited (work : Work) (name : String) :
    Inherited work (work.inheritAdmin name) [name] := by
  by_cases known : work.registry.hasInterface name = true
  · have shape : work.inheritAdmin name =
        { work with
          registry := work.registry.modifyInterface name fun interface =>
            { interface with portAdmin := work.registry.inheritedAdmin name }
          dirty := work.dirty.add name } := by
      simp [inheritAdmin, known]
    refine ⟨fun other => ?_, fun other => ?_, ?_⟩
    · rw [Registry.inheritedAdmin_congr (ports_inheritAdmin work name), shape,
        Registry.interface?_modifyInterface]
      by_cases hit : name = other
      · subst hit
        simp
      · simp [hit, Ne.symm hit]
    · rw [shape, NameSet.contains_add]
      by_cases hit : name = other
      · subst hit
        simp [known]
      · simp [hit, Ne.symm hit]
    · rw [shape]
  · have shape : work.inheritAdmin name = work := by
      simp [inheritAdmin, known]
    have missing : work.registry.interface? name = none := by
      simpa [Registry.hasInterface, Dict.contains, Registry.interface?] using known
    rw [shape]
    refine ⟨fun other => ?_, fun other => ?_, rfl⟩
    · by_cases hit : other = name
      · subst hit
        simp [missing]
      · simp [hit]
    · by_cases hit : other = name
      · subst hit
        simp [known]
      · simp [hit]

theorem Inherited.hasInterface {before after : Work} {concerned : List String}
    (inherited : Inherited before after concerned) (name : String) :
    after.registry.hasInterface name = before.registry.hasInterface name := by
  have here := inherited.interface? name
  unfold Registry.hasInterface Dict.contains
  unfold Registry.interface? at here
  rw [here]
  split <;> simp

theorem inheritAll_ports (work : Work) (names : List String) :
    (names.foldl inheritAdmin work).registry.ports = work.registry.ports := by
  induction names generalizing work with
  | nil => rfl
  | cons name rest ih => exact (ih _).trans (ports_inheritAdmin work name)

theorem inheritAll_inherited (work : Work) (names : List String) :
    Inherited work (names.foldl inheritAdmin work) names := by
  induction names generalizing work with
  | nil => exact ⟨fun _ => by simp, fun _ => by simp, rfl⟩
  | cons name rest ih =>
      have head := inheritAdmin_inherited work name
      have tail := ih (work.inheritAdmin name)
      -- Passing states on changes no port, so what is inherited stays the same all along.
      have admin (other : String) :
          (rest.foldl inheritAdmin (work.inheritAdmin name)).registry.inheritedAdmin other =
            (work.inheritAdmin name).registry.inheritedAdmin other :=
        Registry.inheritedAdmin_congr (inheritAll_ports _ rest) other
      refine ⟨fun other => ?_, fun other => ?_, tail.maxMtu.trans head.maxMtu⟩
      · rw [List.foldl_cons, tail.interface?, head.interface?, admin]
        by_cases own : other = name <;> by_cases later : other ∈ rest <;>
          simp [own, later, Function.comp_def]
      · rw [List.foldl_cons, tail.dirty, head.dirty, head.hasInterface]
        by_cases own : other = name
        · subst own
          simp only [List.mem_cons, true_or, true_and, List.not_mem_nil, or_false]
          exact ⟨fun reached => reached.elim (fun later => Or.inl later.2) id, Or.inr⟩
        · simp [own]

/-! ## Following all the changes -/

/-- The interfaces that changes of ports concern. -/
def concernedBy (work : Work) (changes : List (Change PortRow)) : List String :=
  (followPortChanges changes work.registry).1

theorem followPorts_inherited (work : Work) (changes : List (Change PortRow)) :
    Inherited work (work.followPorts changes) (work.concernedBy changes) := by
  have same : ∀ name,
      (followPortChanges changes work.registry).2.interface? name =
        work.registry.interface? name := by
    intro name
    unfold Registry.interface?
    rw [interfaces_followPortChanges]
  have known : ∀ name,
      (followPortChanges changes work.registry).2.hasInterface name =
        work.registry.hasInterface name := by
    intro name
    unfold Registry.hasInterface
    rw [interfaces_followPortChanges]
  have step := inheritAll_inherited
    { work with registry := (followPortChanges changes work.registry).2 }
    (work.concernedBy changes)
  refine ⟨fun name => ?_, fun name => ?_, step.maxMtu⟩
  · have here := step.interface? name
    rw [same] at here
    exact here
  · have here := step.dirty name
    rw [known] at here
    exact here

theorem ports_followPorts (work : Work) (changes : List (Change PortRow)) :
    (work.followPorts changes).registry.ports =
      (followPortChanges changes work.registry).2.ports :=
  inheritAll_ports { work with registry := (followPortChanges changes work.registry).2 } _

theorem followPorts_portsOf {work : Work} {image : Dict PortRow}
    (ports : work.registry.PortsOf image) {changes : List (Change PortRow)}
    (proper : ∀ change ∈ changes, change.Proper) :
    (work.followPorts changes).registry.PortsOf (Change.applyAll image changes) :=
  (ports_followPorts work changes).trans (followPortChanges_portsOf ports changes proper)

/-- Every interface has the admin state it inherits. -/
def Claimed (registry : Registry) : Prop :=
  ∀ name interface, registry.interface? name = some interface →
    interface.portAdmin = registry.inheritedAdmin name

theorem followPorts_claimed {work : Work} (claimed : Claimed work.registry)
    (changes : List (Change PortRow)) : Claimed (work.followPorts changes).registry := by
  intro name interface found
  rw [(followPorts_inherited work changes).interface? name] at found
  by_cases concerned : name ∈ work.concernedBy changes
  · rw [if_pos concerned] at found
    obtain ⟨previous, _, rfl⟩ := Option.map_eq_some_iff.mp found
    rfl
  · rw [if_neg concerned] at found
    rw [claimed name interface found,
      Registry.inheritedAdmin_congr (ports_followPorts work changes)]
    exact (inheritedAdmin_followPortChanges changes work.registry concerned).symm

theorem followPorts_recorded? (work : Work) (changes : List (Change PortRow)) :
    (work.followPorts changes).registry.recorded? = work.registry.recorded? := by
  funext name
  unfold Registry.recorded?
  rw [(followPorts_inherited work changes).interface? name]
  split
  · rw [Option.map_map]
    rfl
  · rfl

end Work

end LinkReconciler
