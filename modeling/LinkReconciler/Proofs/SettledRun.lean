import LinkReconciler.Proofs.SessionTables

/-!
Runs in which no commit is refused and every parent lists the children that name
it. They keep a session settled: every interface is current, is the outcome of its
own arbitration, and nothing is spoiled.
-/

namespace LinkReconciler

def Step.LetsCommit : Step → Prop
  | act (.refuseNextCommit _) => False
  | _ => True

namespace Session

/-- Every interface is current, listed and arbitrated, and no commit will be refused. -/
structure Settled (session : Session) : Prop where
  current : ∀ name, session.manager.registry.Current name
  listed : ∀ name, session.manager.registry.Listed name
  arbitrated : ∀ name interface, session.manager.registry.interface? name = some interface →
    Settlement.arbitrated session.manager.arbiter interface = interface
  unrefused : session.store.refusal = none

theorem start_settled (config : Config) : (start config).Settled where
  current := fun _ _ absent => nomatch absent
  listed := fun _ _ points => nomatch points
  arbitrated := fun _ _ absent => nomatch absent
  unrefused := rfl

theorem refusal_act {session : Session} {action : ClientAction}
    (commits : (Step.act action).LetsCommit) :
    (session.act action).2.store.refusal = session.store.refusal := by
  cases action with
  | putInterface row => rfl
  | reviseInterface name change =>
      simp only [act, ClientAction.apply, Store.reviseInterface]
      cases session.store.interfaces.get? name <;> rfl
  | deleteInterface name =>
      simp only [act, ClientAction.apply, Store.deleteInterface]
      split <;> rfl
  | putPort row => rfl
  | deletePort name =>
      simp only [act, ClientAction.apply, Store.deletePort]
      split <;> rfl
  | putSubsystem row => rfl
  | setGeneration generation => rfl
  | setLock lock => rfl
  | refuseNextCommit message => exact commits.elim

namespace Settled

variable {session : Session}

theorem act (settled : session.Settled) {action : ClientAction}
    (commits : (Step.act action).LetsCommit) : (session.act action).2.Settled := by
  have manager := manager_act session action
  constructor
  · rw [manager]
    exact settled.current
  · rw [manager]
    exact settled.listed
  · rw [manager]
    exact settled.arbitrated
  · rw [refusal_act commits]
    exact settled.unrefused

theorem waited (settled : session.Settled) : session.waited.Settled :=
  ⟨settled.current, settled.listed, settled.arbitrated, settled.unrefused⟩

theorem committed (settled : session.Settled) (passed : session.Reconciled) :
    session.pass.1 ≠ .commitFailed := by
  intro failed
  have refused := passed.failed failed
  rw [settled.unrefused] at refused
  cases refused

variable {image : Dict InterfaceRow} {ports : Dict PortRow} {subsystems : Dict SubsystemRow}

theorem reconciled (settled : session.Settled)
    (consistent : session.Consistent (fun _ => False) image ports subsystems)
    (passed : session.Reconciled)
    (listed : ∀ name, session.pass.2.manager.registry.Listed name) :
    session.pass.2.Settled := by
  have wellFormed := consistent.outstanding_wellFormed
  have tracks := consistent.readied_tracks
  constructor
  · intro name
    have here := listed name
    rw [passed.manager] at here ⊢
    exact Manager.reconcile_current tracks wellFormed here
      (Or.inr ⟨settled.current name, settled.listed name⟩)
  · exact listed
  · intro name interface found
    rw [passed.manager] at found
    obtain ⟨row, before, derived, _, _, _, outcome, _⟩ :=
      Manager.reconcile_settled tracks wellFormed found
    have arbiter : session.pass.2.manager.arbiter = session.manager.arbiter :=
      congrArg (fun config : Config => Arbiter.standard config.arbiter.requireHwReady)
        passed.config
    rw [arbiter, outcome]
    exact Settlement.arbitrated_arbitrated _ derived
  · exact passed.refusal settled.unrefused

theorem consistent_reconciled (settled : session.Settled)
    (consistent : session.Consistent (fun _ => False) image ports subsystems)
    (passed : session.Reconciled) :
    session.pass.2.Consistent (fun _ => False)
      (Store.applyUpdates (Change.applyAll image session.outstanding.interfaces)
        session.reconciliation.2)
      session.store.ports session.store.subsystems := by
  have clean : (fun name => (session.pass.1 = .commitFailed ∧
        (session.reconciliation.2.under name).isEmpty = false) ∨
      (False ∧ ¬ Change.Touches session.outstanding.interfaces name)) =
      fun _ => False := by
    funext name
    apply eq_false
    rintro (⟨failed, _⟩ | ⟨never, _⟩)
    · exact settled.committed passed failed
    · exact never
  exact clean ▸ consistent.reconciled passed

theorem next (settled : session.Settled)
    (consistent : session.Consistent (fun _ => False) image ports subsystems)
    {step : Step} (keeps : step.KeepsNames) (commits : step.LetsCommit)
    (linked : step = .pass → session.pass.1.reconciled = true →
      session.pass.2.manager.registry.Linked) :
    (session.next step).Settled ∧ ∃ image ports subsystems,
      (session.next step).Consistent (fun _ => False) image ports subsystems := by
  cases step with
  | act action => exact ⟨settled.act commits, _, _, _, consistent.act keeps⟩
  | pass =>
      rcases pass_cases session with ⟨_, left⟩ | passed
      · rw [show session.next .pass = session.waited from left]
        exact ⟨settled.waited, _, _, _, consistent.waited⟩
      · have listed := (linked rfl passed.outcome).listed
        exact ⟨settled.reconciled consistent passed listed,
          _, _, _, settled.consistent_reconciled consistent passed⟩

theorem after (settled : session.Settled)
    (consistent : session.Consistent (fun _ => False) image ports subsystems)
    {steps : List Step} (keeps : ∀ step ∈ steps, step.KeepsNames)
    (commits : ∀ step ∈ steps, step.LetsCommit)
    (linked : ∀ earlier later, steps = earlier ++ .pass :: later →
      (session.after earlier).pass.1.reconciled = true →
      (session.after earlier).pass.2.manager.registry.Linked) :
    (session.after steps).Settled ∧ ∃ image ports subsystems,
      (session.after steps).Consistent (fun _ => False) image ports subsystems := by
  induction steps generalizing session image ports subsystems with
  | nil => exact ⟨settled, image, ports, subsystems, consistent⟩
  | cons step rest ih =>
      obtain ⟨keepsHere, keepsLater⟩ := List.forall_mem_cons.mp keeps
      obtain ⟨commitsHere, commitsLater⟩ := List.forall_mem_cons.mp commits
      have linkedHere : step = .pass → session.pass.1.reconciled = true →
          session.pass.2.manager.registry.Linked := by
        rintro rfl
        exact linked [] rest rfl
      obtain ⟨stays, _, _, _, follows⟩ :=
        settled.next consistent keepsHere commitsHere linkedHere
      apply ih stays follows keepsLater commitsLater
      intro earlier later split
      exact linked (step :: earlier) later (by rw [split, List.cons_append])

end Settled

end Session

end LinkReconciler
