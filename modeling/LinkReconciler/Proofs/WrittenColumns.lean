import LinkReconciler.Proofs.Rounds

/-!
The written columns. The store and the registry agree on them for every interface
that is not spoiled, and delivering its row once more repairs a spoiled one.
-/

namespace LinkReconciler

namespace Session

def CarriesColumns (session : Session) (name : String) (interface : Interface) : Prop :=
  ∃ row, session.store.interfaces.get? name = some row ∧
    row.error = interface.error ∧ row.hwConfig = interface.hwConfig ∧
    row.forwarding = interface.forwarding

theorem Consistent.carriesColumns {session : Session} {spoiled : String → Prop}
    {image : Dict InterfaceRow} {ports : Dict PortRow} {subsystems : Dict SubsystemRow}
    (consistent : session.Consistent spoiled image ports subsystems)
    (deferred : session.manager.deferred = {}) (pending : session.store.pending = {})
    {name : String} (clean : ¬ spoiled name) {interface : Interface}
    (found : session.manager.registry.interface? name = some interface) :
    session.CarriesColumns name interface := by
  have exact := consistent.interfaces.exact name (Or.inr clean)
  rw [deferred, pending] at exact
  have same : image.get? name = session.store.interfaces.get? name := exact
  obtain ⟨row, present, recorded⟩ := consistent.tracks.records.row_of_interface found
  have view {α : Type} (field : Interface → α) := congrArg field recorded
  exact ⟨row, same ▸ present, (view (·.error)).symm, (view (·.hwConfig)).symm,
    (view (·.forwarding)).symm⟩

theorem Consistent.carriesColumns_of_pass {session : Session} {past : List Round}
    {image : Dict InterfaceRow} {ports : Dict PortRow} {subsystems : Dict SubsystemRow}
    (consistent : session.Consistent (fun name => Spoiled name past) image ports subsystems)
    (passed : session.Reconciled) {name : String}
    (clean : ¬ Spoiled name (past ++ [session.round]) ∨
      (session.round.Delivers name ∧ session.pass.1 ≠ .commitFailed))
    {interface : Interface}
    (found : session.pass.2.manager.registry.interface? name = some interface) :
    session.pass.2.CarriesColumns name interface := by
  apply (consistent.reconciled passed).carriesColumns passed.deferred passed.pending _ found
  rw [spoiled_snoc, loses_round_iff] at clean
  rintro (⟨failed, writes⟩ | ⟨spoils, undelivered⟩)
  · rcases clean with unspoiled | ⟨_, committed⟩
    · exact unspoiled (Or.inl ⟨failed, writes⟩)
    · exact committed failed
  · rcases clean with unspoiled | ⟨delivered, _⟩
    · exact unspoiled (Or.inr ⟨spoils, undelivered⟩)
    · exact undelivered delivered

/-- Right after a pass that reconciled, whatever was refused before, the stored row
of a registered interface carries its columns if the interface is not spoiled; and
in any case if the pass took in a change of the row and its commit went through. -/
theorem written_columns_agree (config : Config) (steps : List Step)
    (keeps : ∀ step ∈ steps, step.KeepsNames)
    (reconciles : ((start config).after steps).pass.1.reconciled = true) :
    let session := (start config).after steps
    ∀ name interface,
      session.pass.2.manager.registry.interface? name = some interface →
      (¬ Spoiled name ((start config).rounds (steps ++ [.pass])) →
        session.pass.2.CarriesColumns name interface) ∧
      (session.round.Delivers name → session.pass.1 ≠ .commitFailed →
        session.pass.2.CarriesColumns name interface) := by
  intro session name interface found
  have passed := (reconciled_iff _).mp reconciles
  obtain ⟨image, ports, subsystems, consistent⟩ := consistent_of_run config keeps
  rw [rounds_snoc_pass _ _ reconciles]
  constructor
  · intro clean
    exact consistent.carriesColumns_of_pass passed (Or.inl clean) found
  · intro delivered committed
    exact consistent.carriesColumns_of_pass passed (Or.inr ⟨delivered, committed⟩) found

/-- A commit is refused, and the row is delivered once more. -/
def putAgain : List Step :=
  [.act (.setGeneration 1), .act (.putInterface { name := "1" }),
    .act (.refuseNextCommit "constraint violation"), .pass,
    .act (.putInterface { name := "1" })]

theorem columns_putAgain :
    let session := (start {}).after putAgain
    ((start {}).after (putAgain.take 3)).pass.1 = .commitFailed ∧
      (session.store.interfaces.get? "1").map (·.error) = some none ∧
      session.pass.1 = .committed 1 ∧
      ∃ interface, session.pass.2.manager.registry.interface? "1" = some interface ∧
        interface.error = some "admin_down" ∧
        session.pass.2.CarriesColumns "1" interface := by
  have agree := written_columns_agree {} putAgain
    (by simp [putAgain, Step.KeepsNames]) (by decide +kernel)
  have delivers : ((start {}).after putAgain).round.Delivers "1" := by
    unfold Round.Delivers Change.Touches
    decide +kernel
  have committed : ((start {}).after putAgain).pass.1 = .committed 1 := by decide +kernel
  have down : (((start {}).after putAgain).pass.2.manager.registry.interface? "1").map
      (·.error) = some (some "admin_down") := by decide +kernel
  obtain ⟨interface, found, error⟩ := Option.map_eq_some_iff.mp down
  have carries := (agree "1" interface found).2 delivers (committed ▸ nofun)
  exact ⟨by decide +kernel, by decide +kernel, committed, interface, found, error, carries⟩

end Session

end LinkReconciler
