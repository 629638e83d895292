import LinkReconciler.Proofs.SessionTables

/-!
The history of a run: one round for each pass that reconciled. A name is spoiled
when a write to it was refused and its row was not delivered again since. Runs from
an empty store keep the session consistent, with exactly the spoiled names excepted.
-/

namespace LinkReconciler

/-- What a pass that reconciled took in, what it had to write, and whether that
was refused. -/
structure Round where
  changes : List (Change InterfaceRow)
  transaction : Transaction
  refused : Bool

namespace Round

def Delivers (round : Round) (name : String) : Prop :=
  Change.Touches round.changes name

def Loses (round : Round) (name : String) : Prop :=
  round.refused = true ∧ (round.transaction.under name).isEmpty = false

end Round

/-- A write to the interface's row was lost in or after the last round that took in
a change of it. -/
def Spoiled (name : String) (rounds : List Round) : Prop :=
  ∃ earlier round later, rounds = earlier ++ round :: later ∧
    round.Loses name ∧ ∀ next ∈ later, ¬ next.Delivers name

theorem not_spoiled_nil (name : String) : ¬ Spoiled name [] := by
  rintro ⟨earlier, round, later, split, _⟩
  cases earlier <;> cases split

theorem spoiled_snoc (name : String) (rounds : List Round) (last : Round) :
    Spoiled name (rounds ++ [last]) ↔
      last.Loses name ∨ (Spoiled name rounds ∧ ¬ last.Delivers name) := by
  constructor
  · rintro ⟨earlier, round, later, split, loses, undelivered⟩
    rcases List.eq_nil_or_concat later with none | ⟨between, final, some⟩
    · rw [none] at split
      obtain ⟨_, same⟩ := List.append_inj' split rfl
      exact Or.inl (List.head_eq_of_cons_eq same ▸ loses)
    · rw [List.concat_eq_append] at some
      rw [some, ← List.cons_append, ← List.append_assoc] at split
      obtain ⟨front, same⟩ := List.append_inj' split rfl
      have own : last = final := List.head_eq_of_cons_eq same
      rw [some] at undelivered
      right
      constructor
      · exact ⟨earlier, round, between, front, loses,
          fun next member => undelivered next (List.mem_append_left _ member)⟩
      · rw [own]
        exact undelivered final (List.mem_append_right _ (List.mem_singleton_self _))
  · rintro (loses | ⟨⟨earlier, round, later, split, loses, undelivered⟩, absent⟩)
    · exact ⟨rounds, last, [], rfl, loses, fun _ none => (List.not_mem_nil none).elim⟩
    · refine ⟨earlier, round, later ++ [last], ?_, loses, ?_⟩
      · rw [split, List.append_assoc, List.cons_append]
      · intro next member
        rcases List.mem_append.mp member with before | final
        · exact undelivered next before
        · exact List.mem_singleton.mp final ▸ absent

namespace Session

def round (session : Session) : Round where
  changes := session.outstanding.interfaces
  transaction := session.reconciliation.2
  refused := session.pass.1 = .commitFailed

def rounds (session : Session) : List Step → List Round
  | [] => []
  | .act action :: rest => (session.next (.act action)).rounds rest
  | .pass :: rest =>
      (if session.pass.1.reconciled then [session.round] else []) ++
        (session.next .pass).rounds rest

theorem loses_round_iff (session : Session) (name : String) :
    session.round.Loses name ↔ session.pass.1 = .commitFailed ∧
      (session.reconciliation.2.under name).isEmpty = false := by
  unfold Round.Loses round
  rw [decide_eq_true_iff]

theorem rounds_append (session : Session) (steps more : List Step) :
    session.rounds (steps ++ more) =
      session.rounds steps ++ (session.after steps).rounds more := by
  induction steps generalizing session with
  | nil => rfl
  | cons step rest ih =>
      cases step with
      | act action => exact ih (session.next (.act action))
      | pass =>
          have tail := ih (session.next .pass)
          simp only [List.cons_append, rounds, List.append_assoc, tail]
          rfl

theorem rounds_snoc_pass (session : Session) (steps : List Step)
    (reconciles : (session.after steps).pass.1.reconciled = true) :
    session.rounds (steps ++ [.pass]) =
      session.rounds steps ++ [(session.after steps).round] := by
  rw [rounds_append]
  simp only [rounds, reconciles, if_true, List.append_nil]

/-- What client actions, passes that only wait and passes that reconcile all keep,
with the round of the latter added to the history, is kept by a whole run. -/
theorem rounds_induction {motive : Session → List Round → Prop}
    (act : ∀ session past action, (Step.act action).KeepsNames →
      motive session past → motive (session.act action).2 past)
    (waited : ∀ session past, motive session past → motive session.waited past)
    (reconciled : ∀ session past, session.Reconciled →
      motive session past → motive session.pass.2 (past ++ [session.round]))
    {session : Session} {past : List Round} (holds : motive session past)
    {steps : List Step} (keeps : ∀ step ∈ steps, step.KeepsNames) :
    motive (session.after steps) (past ++ session.rounds steps) := by
  induction steps generalizing session past with
  | nil =>
      rw [show past ++ session.rounds [] = past from List.append_nil past]
      exact holds
  | cons step rest ih =>
      obtain ⟨keepsHere, keepsLater⟩ := List.forall_mem_cons.mp keeps
      cases step with
      | act action => exact ih (act session past action keepsHere holds) keepsLater
      | pass =>
          simp only [rounds, ← List.append_assoc]
          refine ih ?_ keepsLater
          rcases pass_cases session with ⟨waits, left⟩ | passed
          · simp only [waits, Bool.false_eq_true, if_false, List.append_nil]
            rw [show session.next .pass = session.waited from left]
            exact waited session past holds
          · simp only [passed.outcome, if_true]
            exact reconciled session past passed holds

theorem run_induction {motive : Session → List Round → Prop}
    (act : ∀ session past action, (Step.act action).KeepsNames →
      motive session past → motive (session.act action).2 past)
    (waited : ∀ session past, motive session past → motive session.waited past)
    (reconciled : ∀ session past, session.Reconciled →
      motive session past → motive session.pass.2 (past ++ [session.round]))
    {config : Config} (begins : motive (start config) []) {steps : List Step}
    (keeps : ∀ step ∈ steps, step.KeepsNames) :
    motive ((start config).after steps) ((start config).rounds steps) :=
  rounds_induction act waited reconciled begins keeps

theorem Consistent.reconciled_snoc {session : Session} {past : List Round}
    {image : Dict InterfaceRow} {ports : Dict PortRow} {subsystems : Dict SubsystemRow}
    (consistent : session.Consistent (fun name => Spoiled name past) image ports subsystems)
    (passed : session.Reconciled) :
    session.pass.2.Consistent (fun name => Spoiled name (past ++ [session.round]))
      (Store.applyUpdates (Change.applyAll image session.outstanding.interfaces)
        session.reconciliation.2)
      session.store.ports session.store.subsystems := by
  have history : (fun name => Spoiled name (past ++ [session.round])) =
      fun name => (session.pass.1 = .commitFailed ∧
          (session.reconciliation.2.under name).isEmpty = false) ∨
        (Spoiled name past ∧ ¬ Change.Touches session.outstanding.interfaces name) := by
    funext name
    simp only [spoiled_snoc, loses_round_iff]
    rfl
  rw [history]
  exact consistent.reconciled passed

theorem start_consistent_nil (config : Config) :
    (start config).Consistent (fun name => Spoiled name []) ∅ ∅ ∅ := by
  have fresh : (fun _ => False) = fun name => Spoiled name [] := by
    funext name
    exact (eq_false (not_spoiled_nil name)).symm
  exact fresh ▸ start_consistent config

theorem consistent_of_run (config : Config) {steps : List Step}
    (keeps : ∀ step ∈ steps, step.KeepsNames) :
    ∃ image ports subsystems, ((start config).after steps).Consistent
      (fun name => Spoiled name ((start config).rounds steps)) image ports subsystems := by
  refine run_induction (motive := fun session past =>
    ∃ image ports subsystems, session.Consistent (fun name => Spoiled name past)
      image ports subsystems) ?_ ?_ ?_ ⟨_, _, _, start_consistent_nil config⟩ keeps
  · rintro session past action keepsHere ⟨_, _, _, consistent⟩
    exact ⟨_, _, _, consistent.act keepsHere⟩
  · rintro session past ⟨_, _, _, consistent⟩
    exact ⟨_, _, _, consistent.waited⟩
  · rintro session past passed ⟨_, _, _, consistent⟩
    exact ⟨_, _, _, consistent.reconciled_snoc passed⟩

theorem config_after (session : Session) (steps : List Step) :
    (session.after steps).manager.config = session.manager.config := by
  induction steps generalizing session with
  | nil => rfl
  | cons step rest ih =>
      refine (ih (session.next step)).trans ?_
      cases step with
      | act action => exact congrArg Manager.config (manager_act session action)
      | pass =>
          rcases pass_cases session with ⟨_, left⟩ | passed
          · exact congrArg (·.manager.config) left
          · exact passed.config

end Session

end LinkReconciler
