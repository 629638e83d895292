import LinkReconciler.Proofs.DerivedState
import LinkReconciler.Proofs.SplitPair

/-!
What batches of any contents keep. Nothing is asked of the changes: a row may come
under another key than its name, and a key may be set and deleted any number of times.
Absorbing a batch is then a sequence of six kinds of steps. What each of them keeps is
kept by every batch, and so by every run of reconciliations.
-/

namespace LinkReconciler

namespace Work

theorem followSubsystem_cases (work : Work) (subsystem : String)
    (change : Change SubsystemRow) :
    work.followSubsystem subsystem change = work ∨
      ∃ limit, work.followSubsystem subsystem change = work.limitMtu limit := by
  unfold followSubsystem
  split
  · split
    next row _ =>
      split
      · exact Or.inl rfl
      · exact Or.inr ⟨maxMtuOf row, rfl⟩
    · exact Or.inl rfl
  · exact Or.inl rfl

/-- What every step of an absorption keeps, the whole of it keeps. An interface is
awaited from when it is enrolled until it is linked. -/
theorem absorb_induction {subsystem : String} {arbiter : Arbiter}
    {motive : Work → List String → Prop}
    (limits : ∀ work change, motive work [] →
      motive (work.followSubsystem subsystem change) [])
    (forgets : ∀ work name, motive work [] → motive (work.forget name) [])
    (enrols : ∀ work awaiting row, work.registry.hasInterface row.name = false →
      motive work awaiting → motive (work.enroll arbiter row) (awaiting ++ [row.name]))
    (follows : ∀ work awaiting changes, motive work awaiting →
      motive (work.followPorts changes) awaiting)
    (links : ∀ work name awaiting, motive work (name :: awaiting) →
      motive (work.linkInserted name) awaiting)
    (revises : ∀ work row, motive work [] → motive (work.revise row) [])
    {work : Work} (start : motive work []) (batch : Batch) :
    motive (work.absorb subsystem arbiter batch) [] := by
  have linkAll (names : List String) (work : Work) (holds : motive work names) :
      motive (names.foldl linkInserted work) [] := by
    induction names generalizing work with
    | nil => exact holds
    | cons name rest ih => exact ih _ (links work name rest holds)
  have limited := List.foldlRecOn (motive := fun work => motive work [])
    batch.subsystems (followSubsystem subsystem) start
    fun work holds change _ => limits work change holds
  have reduced := List.foldlRecOn (motive := fun work => motive work [])
    ((batch.interfaces.filter Change.isDel).map (·.key)) forget limited
    fun work holds name _ => forgets work name holds
  have arrived := List.foldlRecOn
    (motive := fun arrivals => motive arrivals.work arrivals.inserted)
    (batch.interfaces.filter fun change => !change.isDel) (Arrivals.receive arbiter)
    (b := { work := _ }) reduced (by
      intro arrivals holds change _
      unfold Arrivals.receive
      split
      next row _ =>
        split
        · exact holds
        next absent => exact enrols _ _ row (by simpa using absent) holds
      · exact holds)
  exact List.foldlRecOn (motive := fun work => motive work []) _ revise
    (linkAll _ _ (follows _ _ batch.ports arrived))
    fun work holds row _ => revises work row holds

/-! ## Interface by interface -/

/-- Something said of an interface, its name and the size limit survives whatever a
reconciliation does to one interface. -/
structure Lasting (holds : UInt32 → String → Interface → Prop) : Prop where
  reread : ∀ {limit name interface} limit', holds limit name interface →
    holds limit' name (reread limit' interface)
  renewed : ∀ {limit name interface} (registry : Registry), holds limit name interface →
    holds limit name (registry.renewed interface)
  newcomer : ∀ arbiter work row, holds work.maxMtu row.name (newcomer arbiter work row)
  inherits : ∀ {limit name interface} admin, holds limit name interface →
    holds limit name { interface with portAdmin := admin }
  update : ∀ {limit interface row}, holds limit row.name interface →
    holds limit row.name (interface.update row limit)
  rederived : ∀ {limit name interface} parentSplit, holds limit name interface →
    holds limit name (interface.rederived parentSplit)
  arbitrated : ∀ {limit name interface} arbiter, holds limit name interface →
    holds limit name (Settlement.arbitrated arbiter interface)

def Each (holds : String → Interface → Prop) (registry : Registry) : Prop :=
  ∀ name interface, registry.interface? name = some interface → holds name interface

namespace Lasting

variable {holds : UInt32 → String → Interface → Prop} (lasting : Lasting holds)
include lasting

theorem touched {before after : Work} {renewed marked : List String}
    (touched : Touched before after renewed marked)
    (each : Each (holds before.maxMtu) before.registry) :
    Each (holds after.maxMtu) after.registry := by
  intro name interface found
  rw [touched.maxMtu]
  rw [touched.interface?] at found
  split at found
  · obtain ⟨previous, was, rfl⟩ := Option.map_eq_some_iff.mp found
    exact lasting.renewed before.registry (each name previous was)
  · exact each name interface found

theorem followSubsystem {work : Work} (each : Each (holds work.maxMtu) work.registry)
    (subsystem : String) (change : Change SubsystemRow) :
    Each (holds (work.followSubsystem subsystem change).maxMtu)
      (work.followSubsystem subsystem change).registry := by
  rcases followSubsystem_cases work subsystem change with same | ⟨limit, same⟩
  · rwa [same]
  · rw [same]
    intro name interface found
    rw [interface?_limitMtu] at found
    obtain ⟨previous, was, rfl⟩ := Option.map_eq_some_iff.mp found
    exact lasting.reread limit (each name previous was)

theorem forget {work : Work} (each : Each (holds work.maxMtu) work.registry)
    (gone : String) :
    Each (holds (work.forget gone).maxMtu) (work.forget gone).registry := by
  cases found : work.registry.interface? gone with
  | none => rwa [forget_unknown found]
  | some above =>
      refine lasting.touched (forget_touched found) fun name interface present => ?_
      unfold without at present
      rw [Registry.interface?_removeInterface] at present
      split at present
      · cases present
      · exact each name interface present

theorem enroll {work : Work} (each : Each (holds work.maxMtu) work.registry)
    (arbiter : Arbiter) {row : InterfaceRow}
    (absent : work.registry.hasInterface row.name = false) :
    Each (holds (work.enroll arbiter row).maxMtu) (work.enroll arbiter row).registry := by
  intro name interface found
  rw [enroll_new arbiter absent]
  rw [interface?_enroll arbiter absent] at found
  split at found
  next own =>
    cases found
    exact own ▸ lasting.newcomer arbiter work row
  · exact each name interface found

theorem inherited {before after : Work} {concerned : List String}
    (inherited : Inherited before after concerned)
    (each : Each (holds before.maxMtu) before.registry) :
    Each (holds after.maxMtu) after.registry := by
  intro name interface found
  rw [inherited.maxMtu]
  rw [inherited.interface?] at found
  split at found
  · obtain ⟨previous, was, rfl⟩ := Option.map_eq_some_iff.mp found
    exact lasting.inherits _ (each name previous was)
  · exact each name interface found

theorem revise {work : Work} (each : Each (holds work.maxMtu) work.registry)
    (row : InterfaceRow) :
    Each (holds (work.revise row).maxMtu) (work.revise row).registry := by
  cases found : work.registry.interface? row.name with
  | none => rwa [revise_unknown found]
  | some before =>
      obtain ⟨renewed, marked, revised⟩ := revise_revised found
      refine lasting.touched revised.touched fun name interface present => ?_
      by_cases own : name = row.name
      · subst own
        rw [interface?_overwritten_self found] at present
        cases present
        exact lasting.update (each row.name before found)
      · rw [interface?_overwritten_ne work before own] at present
        exact each name interface present

theorem absorb {work : Work} (each : Each (holds work.maxMtu) work.registry)
    (subsystem : String) (arbiter : Arbiter) (batch : Batch) :
    Each (holds (work.absorb subsystem arbiter batch).maxMtu)
      (work.absorb subsystem arbiter batch).registry :=
  absorb_induction (motive := fun work _ => Each (holds work.maxMtu) work.registry)
    (fun _ change each => lasting.followSubsystem each subsystem change)
    (fun _ gone each => lasting.forget each gone)
    (fun _ _ _ absent each => lasting.enroll each arbiter absent)
    (fun work _ changes each => lasting.inherited (followPorts_inherited work changes) each)
    (fun work name _ each => lasting.touched (linkInserted_touched work name) each)
    (fun _ row each => lasting.revise each row) each batch

theorem settle {work : Work} (each : Each (holds work.maxMtu) work.registry)
    (arbiter : Arbiter) : Each (holds work.maxMtu) (work.settle arbiter ∅).registry := by
  intro name interface found
  rw [interface?_settle] at found
  obtain ⟨previous, was, rfl⟩ := Option.map_eq_some_iff.mp found
  have previously := each name previous was
  unfold settled refreshed
  split
  · exact lasting.arbitrated arbiter (lasting.rederived _ previously)
  · exact lasting.arbitrated arbiter previously

end Lasting

/-! ## Names and user configurations -/

theorem readUnder_lasting : Lasting fun limit name interface =>
    interface.name = name ∧ interface.user = userUnder limit interface where
  reread _ holds := ⟨holds.1, rfl⟩
  renewed _ holds := holds
  newcomer _ _ _ := ⟨rfl, rfl⟩
  inherits _ holds := holds
  update holds := ⟨holds.1, rfl⟩
  rederived _ holds := holds
  arbitrated _ holds := holds

/-! ## Marked or derived -/

structure Upheld (work : Work) (awaiting : List String) : Prop where
  readUnder : work.registry.ReadUnder work.maxMtu
  retained : ∀ name, name ∉ awaiting → work.Retained name

theorem enroll_retained {work : Work} {arbiter : Arbiter} {row : InterfaceRow}
    (absent : work.registry.hasInterface row.name = false) {name : String}
    (other : row.name ≠ name) (retained : work.Retained name) :
    (work.enroll arbiter row).Retained name := by
  refine retained.transfer (fun interface found => Or.inl ?_) fun marked => ?_
  · rwa [interface?_enroll arbiter absent, if_neg other] at found
  · rwa [enroll_new arbiter absent]

theorem linkInserted_retained {work : Work} {linked name : String}
    (retained : linked ≠ name → work.Retained name) :
    (work.linkInserted linked).Retained name := by
  have touched := linkInserted_touched work linked
  by_cases own : linked = name
  · refine retained_of_marked ((touched.dirty name).mpr (Or.inl ?_))
    simp [own]
  · exact touched.retained (fun _ reached => Absorption.mem_marked_of_linkReach reached)
      (retained own)

theorem absorb_upheld {work : Work} (upheld : work.Upheld []) (subsystem : String)
    (arbiter : Arbiter) (batch : Batch) :
    (work.absorb subsystem arbiter batch).Upheld [] := by
  refine absorb_induction (motive := Upheld) ?limits ?forgets ?enrols ?follows ?links
    ?revises upheld batch
  case limits =>
    intro work change upheld
    refine ⟨readUnder_lasting.followSubsystem upheld.readUnder subsystem change, ?_⟩
    intro name known
    exact followSubsystem_retained upheld.readUnder (upheld.retained name known) subsystem
      change
  case forgets =>
    intro work gone upheld
    refine ⟨readUnder_lasting.forget upheld.readUnder gone, fun name known => ?_⟩
    exact forget_retained (upheld.retained name known) gone
  case enrols =>
    intro work awaiting row absent upheld
    refine ⟨readUnder_lasting.enroll upheld.readUnder arbiter absent, fun name known => ?_⟩
    rw [List.mem_append, List.mem_singleton, not_or] at known
    exact enroll_retained absent (Ne.symm known.2) (upheld.retained name known.1)
  case follows =>
    intro work awaiting changes upheld
    have inherited := followPorts_inherited work changes
    refine ⟨readUnder_lasting.inherited inherited upheld.readUnder, fun name known => ?_⟩
    exact inherited.retained (upheld.retained name known)
  case links =>
    intro work linked awaiting upheld
    have touched := linkInserted_touched work linked
    refine ⟨readUnder_lasting.touched touched upheld.readUnder, fun name known => ?_⟩
    refine linkInserted_retained fun other => upheld.retained name ?_
    simp [Ne.symm other, known]
  case revises =>
    intro work row upheld
    refine ⟨readUnder_lasting.revise upheld.readUnder row, fun name known => ?_⟩
    exact revise_retained (upheld.retained name known) row

end Work

/-- Every interface is derived under some lane split, and every user configuration is
read under the limit in effect. -/
structure Manager.Upheld (manager : Manager) : Prop where
  readUnder : manager.registry.ReadUnder manager.maxMtu
  derived : ∀ name interface, manager.registry.interface? name = some interface →
    ∃ parentSplit, interface.Derived parentSplit

namespace Manager

open Work

def absorb (manager : Manager) (batch : Batch) : Work :=
  Work.absorb manager.config.system.subsystem manager.arbiter
    { registry := manager.registry, maxMtu := manager.maxMtu } batch

theorem reconcile_registry (manager : Manager) (batch : Batch) :
    (manager.reconcile batch ∅).1.registry =
      ((manager.absorb batch).settle manager.arbiter ∅).registry := rfl

theorem reconcile_transaction (manager : Manager) (batch : Batch) :
    (manager.reconcile batch ∅).2 =
      ((manager.absorb batch).settle manager.arbiter ∅).transaction := rfl

theorem absorb_upheld {manager : Manager} (upheld : manager.Upheld) (batch : Batch) :
    (manager.absorb batch).Upheld [] :=
  Work.absorb_upheld ⟨upheld.readUnder, fun name _ interface found =>
    Or.inr (upheld.derived name interface found)⟩ _ _ batch

theorem reconcile_upheld {manager : Manager} (upheld : manager.Upheld) (batch : Batch) :
    (manager.reconcile batch ∅).1.Upheld := by
  have absorbed := absorb_upheld upheld batch
  refine ⟨readUnder_lasting.settle absorbed.readUnder manager.arbiter, ?_⟩
  intro name interface found
  rw [reconcile_registry, interface?_settle] at found
  obtain ⟨previous, was, rfl⟩ := Option.map_eq_some_iff.mp found
  unfold settled refreshed
  by_cases marked : (manager.absorb batch).dirty.contains name = true
  · rw [if_pos marked]
    exact ⟨_, rfl, rfl, rfl⟩
  · rw [if_neg marked]
    have retained := absorbed.retained name List.not_mem_nil previous was
    obtain ⟨parentSplit, oper, hwConfig, error⟩ := retained.resolve_left marked
    exact ⟨parentSplit, oper, hwConfig, error⟩

/-- An interface comes out of settling what the batch left of it, and the transaction
writes what settling changed. -/
theorem reconcile_interface {manager : Manager} (upheld : manager.Upheld) (batch : Batch)
    {name : String} {interface : Interface}
    (found : (manager.reconcile batch ∅).1.registry.interface? name = some interface) :
    ∃ previous, (manager.absorb batch).registry.interface? name = some previous ∧
      interface = (manager.absorb batch).settled manager.arbiter name previous ∧
      (manager.reconcile batch ∅).2.under name = .between previous interface := by
  rw [reconcile_registry, interface?_settle] at found
  obtain ⟨previous, was, rfl⟩ := Option.map_eq_some_iff.mp found
  refine ⟨previous, was, rfl, ?_⟩
  have readUnder := (absorb_upheld upheld batch).readUnder
  rw [reconcile_transaction, under_settle _ _ fun name interface shown =>
    (readUnder name interface shown).1, was]

/-! ## Whole runs -/

theorem absorbed_induction {motive : Manager → Prop}
    (step : ∀ manager batch, motive manager → motive (manager.reconcile batch ∅).1)
    {manager : Manager} (start : motive manager) (batches : List Batch) :
    motive (manager.absorbed batches) :=
  List.foldlRecOn batches _ start fun manager holds batch _ => step manager batch holds

theorem absorbed_each {holds : UInt32 → String → Interface → Prop}
    (lasting : Lasting holds) (config : Config) (batches : List Batch) :
    Each (holds ((ofConfig config).absorbed batches).maxMtu)
      ((ofConfig config).absorbed batches).registry := by
  refine absorbed_induction
    (motive := fun manager => Each (holds manager.maxMtu) manager.registry) ?_ ?_ batches
  · intro manager batch each
    have absorbed : Each (holds (manager.absorb batch).maxMtu)
        (manager.absorb batch).registry := lasting.absorb each _ _ batch
    exact lasting.settle absorbed manager.arbiter
  · rintro _ _ ⟨⟩

theorem absorbed_upheld (config : Config) (batches : List Batch) :
    ((ofConfig config).absorbed batches).Upheld := by
  refine absorbed_induction (motive := Manager.Upheld) ?_ ?_ batches
  · exact fun _ batch upheld => reconcile_upheld upheld batch
  · constructor
    · rintro _ _ ⟨⟩
    · rintro _ _ ⟨⟩

end Manager

end LinkReconciler
