import LinkReconciler.Proofs.AbsorbedLinks
import LinkReconciler.Proofs.WrittenRows

/-!
Settling read name by name. An interface that is marked is derived anew, every
interface is arbitrated, and the transaction holds for each name exactly the
columns that differ from those registered before. Once it is committed, the rows
say what the registry says.
-/

namespace LinkReconciler

/-! ## Deriving what is marked -/

def Interface.rederived (interface : Interface) (parentSplit : Option LaneSplit) :
    Interface :=
  let derived := { interface with oper := interface.derive parentSplit }
  { derived with hwConfig := derived.hwColumns, error := derived.errorColumn }

def Settlement.withForwarding (arbiter : Arbiter) (interface : Interface)
    (update : RowUpdate) : RowUpdate :=
  if decide ((arbitrated arbiter interface).forwarding ≠ interface.forwarding) = true then
    update.write (.forwarding (arbitrated arbiter interface).forwarding)
  else update

theorem RowUpdate.withForwarding_between (arbiter : Arbiter) {before after : Interface}
    (forwarding : after.forwarding = before.forwarding) :
    Settlement.withForwarding arbiter after (.between before after) =
      .between before (Settlement.arbitrated arbiter after) := by
  have others : (Settlement.arbitrated arbiter after).error = after.error ∧
      (Settlement.arbitrated arbiter after).hwConfig = after.hwConfig := ⟨rfl, rfl⟩
  unfold Settlement.withForwarding between
  rw [forwarding, others.1, others.2]
  by_cases changed :
      (Settlement.arbitrated arbiter after).forwarding = before.forwarding <;>
    simp [changed, write]

namespace Settlement

theorem derive_of_found {settlement : Settlement} {name : String} {interface : Interface}
    (found : settlement.registry.interface? name = some interface) :
    let after := interface.rederived (settlement.registry.laneSplitAbove? name)
    settlement.derive name =
      { registry := settlement.registry.modifyInterface name fun _ => after
        transaction :=
          (settlement.transaction.writeIf (after.hwConfig ≠ interface.hwConfig) name
            (.hwConfig after.hwConfig)).writeIf (after.error ≠ interface.error) name
              (.error after.error) } := by
  unfold derive
  rw [found]
  rfl

theorem derive_of_absent {settlement : Settlement} {name : String}
    (absent : settlement.registry.interface? name = none) :
    settlement.derive name = settlement := by
  unfold derive
  rw [absent]

theorem declared?_derive (settlement : Settlement) (name : String) :
    (settlement.derive name).registry.declared? = settlement.registry.declared? := by
  cases found : settlement.registry.interface? name with
  | none => rw [derive_of_absent found]
  | some interface =>
      rw [derive_of_found found]
      funext other
      refine Registry.map_interface?_modifyInterface settlement.registry name _
        Interface.declared (fun previous was => ?_) other
      rw [found] at was
      cases was
      rfl

theorem interface?_derive (settlement : Settlement) (name other : String) :
    (settlement.derive name).registry.interface? other =
      if name = other then (settlement.registry.interface? other).map fun interface =>
        interface.rederived (settlement.registry.laneSplitAbove? other)
      else settlement.registry.interface? other := by
  cases found : settlement.registry.interface? name with
  | none =>
      rw [derive_of_absent found]
      by_cases hit : name = other
      · subst hit
        simp [found]
      · rw [if_neg hit]
  | some interface =>
      rw [derive_of_found found, Registry.interface?_modifyInterface]
      by_cases hit : name = other
      · subst hit
        simp [found]
      · rw [if_neg hit, if_neg hit]

theorem under_derive {settlement : Settlement} {name : String}
    (unwritten : settlement.transaction.under name = {}) (other : String) :
    (settlement.derive name).transaction.under other =
      if name = other then
        match settlement.registry.interface? name with
        | some interface => .between interface
            (interface.rederived (settlement.registry.laneSplitAbove? name))
        | none => {}
      else settlement.transaction.under other := by
  cases found : settlement.registry.interface? name with
  | none =>
      rw [derive_of_absent found]
      by_cases hit : name = other
      · subst hit
        rw [if_pos rfl, unwritten]
      · rw [if_neg hit]
  | some interface =>
      rw [derive_of_found found, Transaction.under_writeIf, Transaction.under_writeIf]
      by_cases hit : name = other
      · subst hit
        rw [if_pos rfl, if_pos rfl, if_pos rfl, unwritten]
        exact RowUpdate.between_of_writes rfl
      · rw [if_neg hit, if_neg hit, if_neg hit]

theorem derive_terse {settlement : Settlement} (terse : settlement.transaction.Terse)
    (name : String) : (settlement.derive name).transaction.Terse := by
  cases found : settlement.registry.interface? name with
  | none => rwa [derive_of_absent found]
  | some interface =>
      rw [derive_of_found found]
      exact Transaction.writeIf_terse (Transaction.writeIf_terse terse _ _ _) _ _ _

theorem deriveAll_spec (names : List String) (distinct : names.Nodup)
    (settlement : Settlement)
    (unwritten : ∀ name ∈ names, settlement.transaction.under name = {}) :
    let after := names.foldl derive settlement
    (∀ name, after.registry.interface? name =
      if name ∈ names then (settlement.registry.interface? name).map fun interface =>
        interface.rederived (settlement.registry.laneSplitAbove? name)
      else settlement.registry.interface? name) ∧
    after.registry.ports = settlement.registry.ports ∧
    ∀ name, after.transaction.under name =
      if name ∈ names then
        match settlement.registry.interface? name with
        | some interface => .between interface
            (interface.rederived (settlement.registry.laneSplitAbove? name))
        | none => {}
      else settlement.transaction.under name := by
  induction names generalizing settlement with
  | nil => exact ⟨fun _ => by simp, rfl, fun _ => by simp⟩
  | cons head rest ih =>
      rw [List.nodup_cons] at distinct
      have own := unwritten head List.mem_cons_self
      -- Deriving changes no declaration, so every name still sees the same lane split.
      have above : (settlement.derive head).registry.laneSplitAbove? =
          settlement.registry.laneSplitAbove? :=
        funext (Registry.laneSplitAbove?_congr (declared?_derive settlement head))
      have ports : (settlement.derive head).registry.ports = settlement.registry.ports := by
        cases found : settlement.registry.interface? head with
        | none => rw [derive_of_absent found]
        | some interface => rw [derive_of_found found]; rfl
      have differs (name : String) (member : name ∈ rest) : head ≠ name :=
        fun same => distinct.1 (same ▸ member)
      obtain ⟨interfaces, samePorts, written⟩ := ih distinct.2 (settlement.derive head) (by
        intro name member
        rw [under_derive own, if_neg (differs name member)]
        exact unwritten name (List.mem_cons_of_mem _ member))
      refine ⟨fun name => ?_, samePorts.trans ports, fun name => ?_⟩
      · rw [List.foldl_cons, interfaces, above, interface?_derive]
        by_cases later : name ∈ rest
        · simp [later, differs name later]
        · by_cases hit : head = name
          · simp [later, hit]
          · simp [later, hit, Ne.symm hit]
      · rw [List.foldl_cons, written, above, interface?_derive, under_derive own]
        by_cases later : name ∈ rest
        · simp [later, differs name later]
        · by_cases hit : head = name
          · subst hit
            simp [later]
          · simp [later, hit, Ne.symm hit]

/-! ## Arbitrating everything -/

theorem interface?_arbitrate (arbiter : Arbiter) (settlement : Settlement)
    (name : String) :
    (settlement.arbitrate arbiter).registry.interface? name =
      (settlement.registry.interface? name).map (arbitrated arbiter) :=
  Dict.get?_mapValues settlement.registry.interfaces (arbitrated arbiter) name

theorem under_arbitrateAll (arbiter : Arbiter) (interfaces : List Interface)
    (distinct : (interfaces.map (·.name)).Nodup) (transaction : Transaction) :
    let after := interfaces.foldl (fun transaction interface =>
      let forwarding := (arbitrated arbiter interface).forwarding
      transaction.writeIf (forwarding ≠ interface.forwarding) interface.name
        (.forwarding forwarding)) transaction
    (∀ interface ∈ interfaces, after.under interface.name =
      withForwarding arbiter interface (transaction.under interface.name)) ∧
    ∀ name, name ∉ interfaces.map (·.name) → after.under name = transaction.under name := by
  induction interfaces generalizing transaction with
  | nil => exact ⟨fun _ member => (List.not_mem_nil member).elim, fun _ _ => rfl⟩
  | cons head rest ih =>
      rw [List.map_cons, List.nodup_cons] at distinct
      obtain ⟨writes, leaves⟩ := ih distinct.2 (transaction.writeIf
        ((arbitrated arbiter head).forwarding ≠ head.forwarding) head.name
        (.forwarding (arbitrated arbiter head).forwarding))
      refine ⟨fun interface member => ?_, fun name absent => ?_⟩
      · rcases List.mem_cons.mp member with same | later
        · rw [same, List.foldl_cons, leaves head.name distinct.1,
            Transaction.under_writeIf, if_pos rfl]
          rfl
        · have differs : head.name ≠ interface.name := fun same =>
            distinct.1 (same ▸ List.mem_map_of_mem later)
          rw [List.foldl_cons, writes interface later, Transaction.under_writeIf,
            if_neg differs]
      · rw [List.map_cons, List.mem_cons, not_or] at absent
        rw [List.foldl_cons, leaves name absent.2, Transaction.under_writeIf,
          if_neg (Ne.symm absent.1)]

theorem under_arbitrate (arbiter : Arbiter) (settlement : Settlement)
    (named : ∀ name interface, settlement.registry.interface? name = some interface →
      interface.name = name) (name : String) :
    (settlement.arbitrate arbiter).transaction.under name =
      match settlement.registry.interface? name with
      | some interface =>
          withForwarding arbiter interface (settlement.transaction.under name)
      | none => settlement.transaction.under name := by
  have keys := Dict.values_map_eq_keys settlement.registry.interfaces (·.name) named
  have distinct : (settlement.registry.interfaces.values.map (·.name)).Nodup := by
    rw [keys]
    exact Dict.keys_nodup _
  obtain ⟨writes, leaves⟩ := under_arbitrateAll arbiter
    settlement.registry.interfaces.values distinct settlement.transaction
  cases found : settlement.registry.interface? name with
  | some interface =>
      have member := (Dict.mem_values_iff _ interface).mpr ⟨name, found⟩
      have own := named name interface found
      subst own
      exact writes interface member
  | none =>
      refine leaves name fun member => ?_
      rw [keys, Dict.mem_keys_iff, Dict.contains_iff] at member
      obtain ⟨interface, present⟩ := member
      cases found.symm.trans present

theorem arbitrate_terse (arbiter : Arbiter) {settlement : Settlement}
    (terse : settlement.transaction.Terse) :
    (settlement.arbitrate arbiter).transaction.Terse :=
  List.foldlRecOn (motive := Transaction.Terse) _ _ terse
    fun _ sofar _ _ => Transaction.writeIf_terse sofar _ _ _

end Settlement

/-! ## Settling -/

namespace Work

variable (arbiter : Arbiter) (work : Work)

def refreshed (name : String) (interface : Interface) : Interface :=
  if work.dirty.contains name then
    interface.rederived (work.registry.laneSplitAbove? name)
  else interface

/-- What settling makes of an interface of a work. -/
def settled (name : String) (interface : Interface) : Interface :=
  Settlement.arbitrated arbiter (work.refreshed name interface)

variable {work} in
theorem refreshed_of_marked {name : String} (marked : work.dirty.contains name = true) :
    work.refreshed name = fun interface =>
      interface.rederived (work.registry.laneSplitAbove? name) :=
  funext fun _ => if_pos marked

variable {work} in
theorem refreshed_of_unmarked {name : String}
    (unmarked : ¬ work.dirty.contains name = true) : work.refreshed name = id :=
  funext fun _ => if_neg unmarked

theorem refreshed_frame (name : String) (interface : Interface) :
    (work.refreshed name interface).name = interface.name ∧
      (work.refreshed name interface).forwarding = interface.forwarding := by
  unfold refreshed
  split <;> exact ⟨rfl, rfl⟩

theorem settled_frame (name : String) (interface : Interface) :
    (work.settled arbiter name interface).declared = interface.declared ∧
      (work.settled arbiter name interface).transceiver = interface.transceiver ∧
      (work.settled arbiter name interface).portAdmin = interface.portAdmin := by
  unfold settled refreshed
  split <;> exact ⟨rfl, rfl, rfl⟩

theorem derivations_spec :
    let after := work.dirty.keys.foldl Settlement.derive ⟨work.registry, ∅⟩
    (∀ name, after.registry.interface? name =
      (work.registry.interface? name).map (work.refreshed name)) ∧
    after.registry.ports = work.registry.ports ∧
    ∀ name, after.transaction.under name =
      match work.registry.interface? name with
      | some interface => .between interface (work.refreshed name interface)
      | none => {} := by
  obtain ⟨interfaces, ports, written⟩ := Settlement.deriveAll_spec work.dirty.keys
    (Dict.keys_nodup _) ⟨work.registry, ∅⟩ fun _ _ => rfl
  refine ⟨fun name => ?_, ports, fun name => ?_⟩
  · rw [interfaces]
    by_cases marked : work.dirty.contains name = true
    · rw [if_pos ((Dict.mem_keys_iff _ _).mpr marked), refreshed_of_marked marked]
    · rw [if_neg fun member => marked ((Dict.mem_keys_iff _ _).mp member),
        refreshed_of_unmarked marked, Option.map_id, id]
  · rw [written]
    by_cases marked : work.dirty.contains name = true
    · rw [if_pos ((Dict.mem_keys_iff _ _).mpr marked), refreshed_of_marked marked]
    · rw [if_neg fun member => marked ((Dict.mem_keys_iff _ _).mp member),
        refreshed_of_unmarked marked]
      simp only [id, RowUpdate.between_self]
      cases work.registry.interface? name <;> rfl

theorem interface?_settle (name : String) :
    (work.settle arbiter ∅).registry.interface? name =
      (work.registry.interface? name).map (work.settled arbiter name) := by
  unfold settle
  rw [Settlement.interface?_arbitrate, (derivations_spec work).1, Option.map_map]
  rfl

theorem ports_settle : (work.settle arbiter ∅).registry.ports = work.registry.ports :=
  (derivations_spec work).2.1

theorem under_settle
    (named : ∀ name interface, work.registry.interface? name = some interface →
      interface.name = name) (name : String) :
    (work.settle arbiter ∅).transaction.under name =
      match work.registry.interface? name with
      | some interface => .between interface (work.settled arbiter name interface)
      | none => {} := by
  obtain ⟨interfaces, _, written⟩ := derivations_spec work
  have keyed (other : String) (interface : Interface)
      (found : (work.dirty.keys.foldl Settlement.derive
        ⟨work.registry, ∅⟩).registry.interface? other = some interface) :
      interface.name = other := by
    rw [interfaces] at found
    obtain ⟨previous, was, rfl⟩ := Option.map_eq_some_iff.mp found
    exact (refreshed_frame work other previous).1.trans (named other previous was)
  unfold settle
  rw [Settlement.under_arbitrate arbiter _ keyed name, interfaces, written]
  cases work.registry.interface? name with
  | none => rfl
  | some interface =>
      exact RowUpdate.withForwarding_between arbiter
        (refreshed_frame work name interface).2

theorem settle_terse : (work.settle arbiter ∅).transaction.Terse :=
  Settlement.arbitrate_terse arbiter <|
    List.foldlRecOn (motive := fun settlement : Settlement => settlement.transaction.Terse)
      _ _ Transaction.empty_terse fun _ terse name _ => Settlement.derive_terse terse name

theorem declared?_settle :
    (work.settle arbiter ∅).registry.declared? = work.registry.declared? := by
  funext name
  unfold Registry.declared?
  rw [interface?_settle, Option.map_map]
  have same : Interface.declared ∘ work.settled arbiter name = Interface.declared :=
    funext fun interface => (settled_frame arbiter work name interface).1
  rw [same]

variable {arbiter work}

theorem settle_claimed (claimed : Claimed work.registry) :
    Claimed (work.settle arbiter ∅).registry := by
  refine Claimed.transfer claimed (ports_settle arbiter work) fun name interface found => ?_
  rw [interface?_settle] at found
  obtain ⟨previous, was, rfl⟩ := Option.map_eq_some_iff.mp found
  exact Or.inl ⟨previous, was, (settled_frame arbiter work name previous).2.2⟩

/-- Settling makes current what the work accounts for. -/
theorem settle_current {name : String} (accounted : work.Accounted name) :
    (work.settle arbiter ∅).registry.Current name := by
  have same := declared?_settle arbiter work
  intro interface found
  rw [Registry.transceiverDue_congr same, Registry.laneSplitAbove?_congr same]
  rw [interface?_settle] at found
  obtain ⟨previous, was, rfl⟩ := Option.map_eq_some_iff.mp found
  obtain ⟨due, state⟩ := accounted previous was
  unfold settled refreshed
  by_cases marked : work.dirty.contains name = true
  · rw [if_pos marked]
    exact ⟨due, rfl, rfl, rfl⟩
  · rw [if_neg marked]
    obtain ⟨oper, hwConfig, error⟩ := state.resolve_left marked
    exact ⟨due, oper, hwConfig, error⟩

/-- Once the transaction is committed the rows say what the registry says. -/
theorem settle_records {image : Dict InterfaceRow}
    (records : work.registry.Records image work.maxMtu) (keyed : Keyed image) :
    (work.settle arbiter ∅).registry.Records
      (Store.applyUpdates image (work.settle arbiter ∅).transaction) work.maxMtu := by
  have named (name : String) (interface : Interface)
      (found : work.registry.interface? name = some interface) : interface.name = name :=
    (records.readUnder keyed name interface found).1
  intro name
  unfold Registry.recorded?
  rw [interface?_settle, Store.get?_applyUpdates, under_settle arbiter work named]
  cases found : work.registry.interface? name with
  | none =>
      have absent := records name
      unfold Registry.recorded? at absent
      rw [found] at absent
      rw [Option.map_eq_none_iff.mp absent.symm]
      rfl
  | some interface =>
      obtain ⟨row, present, same⟩ := records.row_of_interface found
      have view {α : Type} (field : Interface → α) := congrArg field same
      rw [present]
      simp only [Option.map_some, Option.some.injEq]
      have error : row.error = interface.error := (view (·.error)).symm
      have hwConfig : row.hwConfig = interface.hwConfig := (view (·.hwConfig)).symm
      have forwarding : row.forwarding = interface.forwarding := (view (·.forwarding)).symm
      -- The clients' columns are those of the row; the others are in the transaction or
      -- were the same already.
      rw [RowUpdate.apply_between error hwConfig forwarding]
      have clients : interface.recorded.declared =
          (Interface.ofRow row work.maxMtu).recorded.declared :=
        congrArg Interface.declared same
      have declared : (work.settled arbiter name interface).declared =
          (Interface.ofRow row work.maxMtu).declared :=
        (settled_frame arbiter work name interface).1.trans clients
      exact congrArg (fun part : Interface => { part with
        error := (work.settled arbiter name interface).error
        hwConfig := (work.settled arbiter name interface).hwConfig
        forwarding := (work.settled arbiter name interface).forwarding }) declared

end Work

end LinkReconciler
