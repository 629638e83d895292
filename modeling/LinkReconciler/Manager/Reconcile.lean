import LinkReconciler.Dict.NameSet
import LinkReconciler.Forwarding.Arbiter
import LinkReconciler.Interface.Columns
import LinkReconciler.Interface.Derivation
import LinkReconciler.Registry.SplitLink
import LinkReconciler.Table.Batch
import LinkReconciler.Table.Transaction

/-!
Reconciliation of one batch of changes. The batch is folded into the registry in
steps (subsystems, deletions, new interfaces, ports, links, changed interfaces),
each of which marks the interfaces whose state has to be derived anew. These are
then derived, every interface is arbitrated, and each column that came out
different from what is known to be stored is written.
-/

namespace LinkReconciler

/-- A reconciliation under way: the registry so far, the size limit in effect,
and the interfaces to be derived anew. -/
structure Work where
  registry : Registry := ∅
  maxMtu : UInt32 := 0
  dirty : NameSet := ∅
deriving DecidableEq

structure Arrivals where
  work : Work
  inserted : List String := []
  modified : List InterfaceRow := []

namespace Work

def mark (work : Work) (names : List String) : Work :=
  { work with dirty := work.dirty.addAll names }

/-! ## Subsystems -/

def maxMtuOf (row : SubsystemRow) : UInt32 :=
  ((row.otherInfo.get? "max_transmission_unit").bind
    fun text => Numeral.word? text.toList).getD 0

def userUnder (maxMtu : UInt32) (interface : Interface) : UserConfig :=
  .ofColumn interface.userColumn interface.cage maxMtu

def limitMtu (work : Work) (maxMtu : UInt32) : Work :=
  let affected := work.registry.interfaces.values.filter fun interface =>
    userUnder maxMtu interface ≠ interface.user
  { registry := { work.registry with
      interfaces := work.registry.interfaces.mapValues fun interface =>
        { interface with user := userUnder maxMtu interface } }
    maxMtu
    dirty := work.dirty.addAll (affected.map (·.name)) }

/-- Follows a change of the configured subsystem. Its deletion keeps the limit. -/
def followSubsystem (subsystem : String) (work : Work)
    (change : Change SubsystemRow) : Work :=
  if change.key = subsystem then
    match change.row with
    | some row =>
        if maxMtuOf row = work.maxMtu then work
        else work.limitMtu (maxMtuOf row)
    | none => work
  else work

/-! ## Interfaces that go and come -/

/-- Forgets an interface; the children it leaves behind fall back to their own
modules and are derived anew. -/
def forget (work : Work) (name : String) : Work :=
  match work.registry.interface? name with
  | some interface =>
      let registry := work.registry.removeInterface name
      let orphans := interface.splitChildren.filter registry.hasInterface
      { work with
        registry := registry.renewAll orphans
        dirty := NameSet.addAll (work.dirty.erase name) orphans }
  | none => work

def newcomer (arbiter : Arbiter) (work : Work) (row : InterfaceRow) : Interface :=
  { Interface.ofRow row work.maxMtu with
    portAdmin := work.registry.inheritedAdmin row.name
    layers := arbiter.restore row.forwarding }

def enroll (arbiter : Arbiter) (work : Work) (row : InterfaceRow) :
    Work :=
  match work.registry.insertInterface (newcomer arbiter work row) with
  | .ok registry => { work with registry }
  | .error _ => work

end Work

namespace Arrivals

/-- Takes in one row that is not deleted; known interfaces wait until the ports
are known. -/
def receive (arbiter : Arbiter) (arrivals : Arrivals)
    (change : Change InterfaceRow) : Arrivals :=
  match change.row with
  | some row =>
      if arrivals.work.registry.hasInterface row.name then
        { arrivals with modified := arrivals.modified ++ [row] }
      else
        { arrivals with
          work := arrivals.work.enroll arbiter row
          inserted := arrivals.inserted ++ [row.name] }
  | none => arrivals

end Arrivals

namespace Work

/-! ## Ports -/

def followPort (registry : Registry) (change : Change PortRow) :
    List String × Registry :=
  match change.row with
  | some row =>
      let port := Port.ofRow row
      let before := match registry.port? port.name with
        | some old => old.members
        | none => []
      (port.members ++ before,
        { registry with ports := registry.ports.insert port.name port })
  | none =>
      match registry.port? change.key with
      | some old => (old.members, registry.removePort change.key)
      | none => ([], registry)

def followPortChanges : List (Change PortRow) → Registry → List String × Registry
  | [], registry => ([], registry)
  | change :: rest, registry =>
      let (concerned, registry) := followPort registry change
      let (others, registry) := followPortChanges rest registry
      (concerned ++ others, registry)

/-- Passes the admin state of its port on to a known interface. -/
def inheritAdmin (work : Work) (name : String) : Work :=
  if work.registry.hasInterface name then
    { work with
      registry := work.registry.modifyInterface name fun interface =>
        { interface with portAdmin := work.registry.inheritedAdmin name }
      dirty := work.dirty.add name }
  else work

def followPorts (work : Work) (changes : List (Change PortRow)) : Work :=
  let (concerned, registry) := followPortChanges changes work.registry
  concerned.foldl inheritAdmin { work with registry }

/-! ## Links and changed interfaces -/

def link (work : Work) (name : String) : Work :=
  let (linked, registry) := work.registry.link name
  { work with registry, dirty := work.dirty.addAll linked }

def linkInserted (work : Work) (name : String) : Work :=
  (work.link name).mark [name]

def renewChildren (work : Work) (name : String) : Work :=
  let (known, registry) := work.registry.renewChildren name
  { work with registry, dirty := work.dirty.addAll known }

/-- Follows a changed row of a known interface. Links are taken up again if they
changed; the children are renewed if the parent's module or lane split did. -/
def revise (work : Work) (row : InterfaceRow) : Work :=
  match work.registry.interface? row.name with
  | some before =>
      let after := before.update row work.maxMtu
      let relinked := before.splitParent ≠ after.splitParent ||
        before.splitChildren ≠ after.splitChildren
      let rewired := before.report ≠ after.report ||
        before.user.laneSplit ≠ after.user.laneSplit
      let work := { work with
        registry := work.registry.modifyInterface row.name fun _ => after }
      let work := if relinked then work.link row.name else work
      -- An interface that lost its parent is not reached by its links.
      let work := { work with registry := work.registry.renew row.name }
      let work :=
        if after.isSplitParent && rewired then work.renewChildren row.name
        else work
      work.mark [row.name]
  | none => work

/-! ## The whole batch -/

def absorb (subsystem : String) (arbiter : Arbiter) (work : Work)
    (batch : Batch) : Work :=
  let deletions := batch.interfaces.filter Change.isDel
  let updates := batch.interfaces.filter fun change => !change.isDel
  -- The size limit comes first, since every row is read under it.
  let work := batch.subsystems.foldl (followSubsystem subsystem) work
  -- A name that is deleted and set in one batch comes back as a new interface.
  let work := (deletions.map (·.key)).foldl forget work
  let arrivals := updates.foldl (Arrivals.receive arbiter) { work }
  -- A port may claim interfaces that arrived in the same batch.
  let work := arrivals.work.followPorts batch.ports
  -- Links wait until every interface of the batch is known, in whatever order.
  let work := arrivals.inserted.foldl linkInserted work
  arrivals.modified.foldl revise work

end Work

structure Settlement where
  registry : Registry
  transaction : Transaction
deriving DecidableEq

namespace Settlement

/-- Derives an interface anew and writes the columns that changed by it. -/
def derive (settlement : Settlement) (name : String) : Settlement :=
  match settlement.registry.interface? name with
  | some interface =>
      let derived := { interface with
        oper := interface.derive (settlement.registry.laneSplitAbove? name) }
      let hwConfig := derived.hwColumns
      let error := derived.errorColumn
      { registry := settlement.registry.modifyInterface name fun _ =>
          { derived with hwConfig, error }
        transaction :=
          (settlement.transaction.writeIf (hwConfig ≠ interface.hwConfig) name
            (.hwConfig hwConfig)).writeIf (error ≠ interface.error) name
              (.error error) }
  | none => settlement

def arbitrated (arbiter : Arbiter) (interface : Interface) : Interface :=
  let (layers, forwarding) := arbiter.arbitrate interface
  { interface with layers, forwarding }

def arbitrate (arbiter : Arbiter) (settlement : Settlement) : Settlement where
  registry := { settlement.registry with
    interfaces :=
      settlement.registry.interfaces.mapValues (arbitrated arbiter) }
  transaction := settlement.registry.interfaces.values.foldl
    (fun transaction interface =>
      let forwarding := (arbitrated arbiter interface).forwarding
      transaction.writeIf (forwarding ≠ interface.forwarding) interface.name
        (.forwarding forwarding))
    settlement.transaction

end Settlement

namespace Work

def settle (arbiter : Arbiter) (work : Work) (transaction : Transaction) :
    Settlement :=
  (work.dirty.keys.foldl Settlement.derive
    ⟨work.registry, transaction⟩).arbitrate arbiter

end Work

end LinkReconciler
