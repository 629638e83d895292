import LinkReconciler.Forwarding.Arbiter
import LinkReconciler.Proofs.Lookup

/-!
A chain of layers under arbitration. The states in which the layers end up follow from
the signals of the protocols alone, and the forwarding column from these states: who
owned a layer before is forgotten, whether the owner was remembered or read back from
the column. This holds for every chain, with the gate or without.
-/

namespace LinkReconciler

/-! ## One layer -/

namespace Protocol

variable {protocol : Protocol} {interface : Interface}

theorem act_of_block (asks : protocol.signal interface = .block) (state : LayerState) :
    protocol.act interface state = (true, .blockedBy protocol.id) := by
  -- There is one protocol id, so an owner that keeps the layer is this protocol as well.
  unfold act
  rw [asks]

theorem act_of_forward (forwards : protocol.signal interface = .forward)
    (state : LayerState) : (protocol.act interface state).1 = false := by
  unfold act
  rw [forwards]
  dsimp only
  split <;> rfl

end Protocol

namespace Layer

def Asks (interface : Interface) (layer : Layer) : Prop :=
  ∃ protocol ∈ layer.protocols, protocol.signal interface = .block

/-- The state that the protocols of a layer alone bring it to: the first of them that
asks to block owns it. -/
def verdict (interface : Interface) (layer : Layer) : LayerState :=
  match layer.protocols.find? fun protocol => protocol.signal interface = .block with
  | some protocol => .blockedBy protocol.id
  | none => .clear

theorem runProtocols_eq_verdict (interface : Interface) (layer : Layer)
    (state : LayerState) :
    runProtocols interface layer.protocols state = layer.verdict interface := by
  unfold verdict
  induction layer.protocols generalizing state with
  | nil => rfl
  | cons protocol rest ih =>
      unfold runProtocols
      cases asked : protocol.signal interface with
      | block => simp [Protocol.act_of_block asked, asked]
      | forward =>
          have passes := Protocol.act_of_forward asked state
          generalize protocol.act interface state = outcome at passes
          obtain ⟨_, after⟩ := outcome
          cases passes
          simpa [asked] using ih after

theorem asks_iff_find? (interface : Interface) (layer : Layer) :
    layer.Asks interface ↔ (layer.protocols.find? fun protocol =>
      protocol.signal interface = .block).isSome = true := by
  simp [Asks, List.find?_isSome]

theorem blocked_verdict (interface : Interface) (layer : Layer) :
    (layer.verdict interface).blocked = true ↔ layer.Asks interface := by
  rw [asks_iff_find?]
  unfold verdict
  cases layer.protocols.find? _ <;> simp [LayerState.blockedBy, LayerState.clear]

theorem owner_verdict (interface : Interface) (layer : Layer) :
    (layer.verdict interface).owner.isSome = true ↔ layer.Asks interface := by
  rw [asks_iff_find?]
  unfold verdict
  cases layer.protocols.find? _ <;> simp [LayerState.blockedBy, LayerState.clear]

def entry? (state : LayerState) : Option String :=
  if state.blocked && state.owner.isNone then none
  else some (if state.blocked then "false" else "true")

theorem get?_write (layer : Layer) (state : LayerState) (column : ColumnMap)
    (key : String) :
    (layer.write state column).get? key =
      if key = LayerId.aggregation.forwardingKey then entry? state
      else if key = LayerId.aggregation.reasonKey then state.owner.map ProtocolId.word
      else column.get? key := by
  have aggregation : layer.id = .aggregation := by
    cases layer.id
    rfl
  have apart : LayerId.aggregation.forwardingKey ≠ LayerId.aggregation.reasonKey := by
    decide
  obtain ⟨owner, blocked⟩ := state
  unfold write entry?
  rw [aggregation]
  cases owner <;> cases blocked <;>
    simp only [Dict.get?_insert, Dict.get?_erase, Bool.false_eq_true, if_true, if_false] <;>
    grind

theorem write_eq (layer other : Layer) : layer.write = other.write := by
  have same : layer.id = other.id := by
    cases layer.id
    cases other.id
    rfl
  unfold write
  rw [same]

theorem write_write (layer : Layer) (state earlier : LayerState) (column : ColumnMap) :
    layer.write state (layer.write earlier column) = layer.write state column := by
  ext key : 1
  simp only [get?_write]
  grind

end Layer

namespace Arbiter

/-! ## The states of a chain -/

def standingOver (arbiter : Arbiter) (interface : Interface) (below : Bool)
    (layer : Layer) : LayerState :=
  if below || arbiter.holdsBack interface then .blockedUnowned
  else layer.verdict interface

def standings (arbiter : Arbiter) (interface : Interface) :
    Bool → List Layer → List LayerState
  | _, [] => []
  | below, layer :: rest =>
      let state := arbiter.standingOver interface below layer
      state :: standings arbiter interface state.blocked rest

theorem length_standings (arbiter : Arbiter) (interface : Interface) (below : Bool)
    (layers : List Layer) :
    (arbiter.standings interface below layers).length = layers.length := by
  induction layers generalizing below with
  | nil => rfl
  | cons layer rest ih => simp [standings, ih]

/-- A forwarding column after the states of a chain are written to it; the last of them
is the one that shows. -/
def overwrite (states : List LayerState) (column : ColumnMap) : ColumnMap :=
  match states.getLast? with
  | some state => Layer.write ⟨.aggregation, []⟩ state column
  | none => column

theorem overwrite_cons (layer : Layer) (state : LayerState) (rest : List LayerState)
    (column : ColumnMap) :
    overwrite rest (layer.write state column) = overwrite (state :: rest) column := by
  rw [layer.write_eq ⟨.aggregation, []⟩]
  unfold overwrite
  rw [List.getLast?_cons]
  cases rest.getLast? with
  | none => rfl
  | some last => exact Layer.write_write _ last state column

theorem runLayers_eq (arbiter : Arbiter) (interface : Interface) (layers : List Layer)
    (before : List LayerState) (fits : before.length = layers.length) (below : Bool)
    (column : ColumnMap) :
    arbiter.runLayers interface below (layers.zip before) column =
      (arbiter.standings interface below layers,
        overwrite (arbiter.standings interface below layers) column) := by
  induction layers generalizing before below column with
  | nil => rfl
  | cons layer rest ih =>
      obtain _ | ⟨state, others⟩ := before
      · cases fits
      · simp only [List.zip_cons_cons, runLayers, standings, standingOver,
          Layer.runProtocols_eq_verdict]
        rw [ih others (Nat.succ.inj fits), overwrite_cons]

def stamp (state : LayerState) (column : ColumnMap) : ColumnMap :=
  (Layer.write ⟨.aggregation, []⟩ state column).insert "forwarding"
    (if state.blocked then "false" else "true")

/-- A forwarding column after arbitration, given the outermost state of the chain if it
has any layers. -/
def leave (outermost : Option LayerState) (column : ColumnMap) : ColumnMap :=
  match outermost with
  | some state => stamp state column
  | none => column.insert "forwarding" "true"

/-- What arbitration leaves, whatever states it started from. -/
theorem arbitrate_eq (arbiter : Arbiter) (interface : Interface) :
    let states := arbiter.standings (withoutLayers interface) false arbiter.layers
    arbiter.arbitrate interface = (states, leave states.getLast? interface.forwarding) := by
  intro states
  have fits : (if interface.layers.length = arbiter.layers.length then interface.layers
      else arbiter.restore interface.forwarding).length = arbiter.layers.length := by
    by_cases kept : interface.layers.length = arbiter.layers.length
    · rw [if_pos kept, kept]
    · rw [if_neg kept]
      exact List.length_map ..
  have shown : (overwrite states interface.forwarding).insert "forwarding"
      (if outermostBlocked states then "false" else "true") =
        leave states.getLast? interface.forwarding := by
    unfold overwrite outermostBlocked
    cases states.getLast? <;> rfl
  unfold arbitrate
  simp only [runLayers_eq arbiter (withoutLayers interface) arbiter.layers _ fits]
  rw [← shown]

/-! ## States and signals -/

/-- The states of a chain follow from the signals: a layer is blocked while the
interface is out of service or shut by the gate, and where a layer up to it asks to
block; it is owned where it is the first to ask. -/
structure FollowSignals (arbiter : Arbiter) (interface : Interface)
    (states : List LayerState) : Prop where
  each : states.length = arbiter.layers.length
  blocked : ∀ i state, states[i]? = some state →
    (state.blocked = true ↔ interface.oper.enabled = false ∨
      (arbiter.gate = true ∧ interface.hwReady = false) ∨
      ∃ layer ∈ arbiter.layers.take (i + 1), layer.Asks interface)
  owned : ∀ i state, states[i]? = some state →
    (state.owner.isSome = true ↔ interface.oper.enabled = true ∧
      (arbiter.gate = true → interface.hwReady = true) ∧
      (∀ layer ∈ arbiter.layers.take i, ¬ layer.Asks interface) ∧
      ∃ layer, arbiter.layers[i]? = some layer ∧ layer.Asks interface)

section Standings
variable (arbiter : Arbiter) (interface : Interface)

theorem holdsBack_iff : arbiter.holdsBack interface = true ↔
    interface.oper.enabled = false ∨ (arbiter.gate = true ∧ interface.hwReady = false) := by
  simp [holdsBack]

theorem blocked_standingOver (below : Bool) (layer : Layer) :
    (arbiter.standingOver interface below layer).blocked = true ↔
      below = true ∨ arbiter.holdsBack interface = true ∨ layer.Asks interface := by
  unfold standingOver
  cases below <;> cases arbiter.holdsBack interface <;>
    simp [LayerState.blockedUnowned, Layer.blocked_verdict]

theorem owner_standingOver (below : Bool) (layer : Layer) :
    (arbiter.standingOver interface below layer).owner.isSome = true ↔
      ¬ below = true ∧ ¬ arbiter.holdsBack interface = true ∧ layer.Asks interface := by
  unfold standingOver
  cases below <;> cases arbiter.holdsBack interface <;>
    simp [LayerState.blockedUnowned, Layer.owner_verdict]

theorem blocked_standings (below : Bool) (layers : List Layer) (i : Nat)
    {state : LayerState}
    (here : (arbiter.standings interface below layers)[i]? = some state) :
    state.blocked = true ↔ below = true ∨ arbiter.holdsBack interface = true ∨
      ∃ layer ∈ layers.take (i + 1), layer.Asks interface := by
  induction layers generalizing below i with
  | nil => cases here
  | cons layer rest ih =>
      simp only [standings] at here
      cases i with
      | zero =>
          cases here
          simpa using arbiter.blocked_standingOver interface below layer
      | succ i =>
          rw [ih _ i here, blocked_standingOver, List.take_succ_cons]
          simp only [List.mem_cons, exists_eq_or_imp]
          grind

theorem owner_standings (below : Bool) (layers : List Layer) (i : Nat)
    {state : LayerState}
    (here : (arbiter.standings interface below layers)[i]? = some state) :
    state.owner.isSome = true ↔ ¬ below = true ∧ ¬ arbiter.holdsBack interface = true ∧
      (∀ layer ∈ layers.take i, ¬ layer.Asks interface) ∧
      ∃ layer, layers[i]? = some layer ∧ layer.Asks interface := by
  induction layers generalizing below i with
  | nil => cases here
  | cons layer rest ih =>
      simp only [standings] at here
      cases i with
      | zero =>
          cases here
          simpa using arbiter.owner_standingOver interface below layer
      | succ i =>
          -- Once a layer is blocked, the ones outward of it have no owner.
          rw [ih _ i here, blocked_standingOver, List.take_succ_cons]
          simp only [List.mem_cons, forall_eq_or_imp, List.getElem?_cons_succ]
          grind

theorem blocked_of_owned (below : Bool) (layers : List Layer) {state : LayerState}
    (member : state ∈ arbiter.standings interface below layers)
    (owned : state.owner.isSome = true) : state.blocked = true := by
  obtain ⟨i, here⟩ := List.mem_iff_getElem?.mp member
  obtain ⟨_, _, _, layer, present, asks⟩ :=
    (arbiter.owner_standings interface below layers i here).mp owned
  have within : (layers.take (i + 1))[i]? = some layer := by
    rwa [List.getElem?_take_of_lt (Nat.lt_succ_self i)]
  exact (arbiter.blocked_standings interface below layers i here).mpr
    (Or.inr (Or.inr ⟨layer, List.mem_of_getElem? within, asks⟩))

theorem standings_followSignals :
    arbiter.FollowSignals interface (arbiter.standings interface false arbiter.layers) where
  each := arbiter.length_standings interface false arbiter.layers
  blocked i state here := by
    rw [arbiter.blocked_standings interface false arbiter.layers i here, holdsBack_iff]
    simp only [Bool.false_eq_true, false_or, or_assoc]
  owned i state here := by
    rw [arbiter.owner_standings interface false arbiter.layers i here, holdsBack_iff]
    simp [and_assoc]

end Standings

/-! ## The column -/

def writtenKeys : List String :=
  ["forwarding", LayerId.aggregation.forwardingKey, LayerId.aggregation.reasonKey]

/-- A column shows the outermost state of a chain, and otherwise what it held before. -/
structure Shows (before : ColumnMap) (outermost : Option LayerState) (after : ColumnMap) :
    Prop where
  closed : after.get? "forwarding" = some "false" ↔
    ∃ state, outermost = some state ∧ state.blocked = true
  opened : after.get? "forwarding" = some "true" ↔
    ∀ state, outermost = some state → state.blocked = false
  owned : ∀ state owner, outermost = some state → state.owner = some owner →
    after.get? LayerId.aggregation.forwardingKey = some "false" ∧
      after.get? LayerId.aggregation.reasonKey = some owner.word
  unowned : ∀ state, outermost = some state → state.owner = none → state.blocked = true →
    after.get? LayerId.aggregation.forwardingKey = none ∧
      after.get? LayerId.aggregation.reasonKey = none
  clear : ∀ state, outermost = some state → state.blocked = false →
    after.get? LayerId.aggregation.forwardingKey = some "true" ∧
      after.get? LayerId.aggregation.reasonKey = none
  others : ∀ key, key ≠ "forwarding" → (outermost = none ∨ key ∉ writtenKeys) →
    after.get? key = before.get? key

theorem get?_stamp (state : LayerState) (column : ColumnMap) (key : String) :
    (stamp state column).get? key =
      if key = "forwarding" then some (if state.blocked then "false" else "true")
      else if key = LayerId.aggregation.forwardingKey then Layer.entry? state
      else if key = LayerId.aggregation.reasonKey then state.owner.map ProtocolId.word
      else column.get? key := by
  unfold stamp
  rw [Dict.get?_insert, Layer.get?_write]
  simp only [eq_comm]

theorem leave_shows (before : ColumnMap) {outermost : Option LayerState}
    (ownedBlocked : ∀ state, outermost = some state → state.owner.isSome = true →
      state.blocked = true) :
    Shows before outermost (leave outermost before) := by
  have ownKeys : LayerId.aggregation.forwardingKey ≠ "forwarding" ∧
      LayerId.aggregation.reasonKey ≠ "forwarding" ∧
      LayerId.aggregation.reasonKey ≠ LayerId.aggregation.forwardingKey := by
    decide
  obtain ⟨ownForwarding, ownReason, apart⟩ := ownKeys
  cases outermost with
  | none =>
      constructor
      case others => exact fun key other _ => Dict.get?_insert_ne _ _ (Ne.symm other)
      all_goals simp [leave, Dict.get?_insert]
  | some state =>
      have blocks := ownedBlocked state rfl
      have forwarding : (leave (some state) before).get? LayerId.aggregation.forwardingKey =
          Layer.entry? state := by
        simp [leave, get?_stamp, ownForwarding]
      have reason : (leave (some state) before).get? LayerId.aggregation.reasonKey =
          state.owner.map ProtocolId.word := by
        simp [leave, get?_stamp, ownReason, apart]
      constructor
      case closed => simp [leave, get?_stamp]
      case opened => simp [leave, get?_stamp]
      case owned =>
        rintro _ owner ⟨⟩ owns
        rw [forwarding, reason]
        simp [Layer.entry?, owns, blocks (by simp [owns])]
      case unowned =>
        rintro _ ⟨⟩ free blocked
        rw [forwarding, reason]
        simp [Layer.entry?, free, blocked]
      case clear =>
        rintro _ ⟨⟩ opened
        have free : state.owner = none := by
          rw [← Option.not_isSome_iff_eq_none]
          exact fun owns => Bool.false_ne_true (opened.symm.trans (blocks owns))
        rw [forwarding, reason]
        simp [Layer.entry?, free, opened]
      case others =>
        intro key other unwritten
        have elsewhere := unwritten.resolve_left nofun
        simp only [writtenKeys, List.mem_cons, List.not_mem_nil, or_false, not_or] at elsewhere
        simp [leave, get?_stamp, elsewhere]

/-! ## Signals alone -/

structure Alike (arbiter : Arbiter) (one other : Interface) : Prop where
  enabled : other.oper.enabled = one.oper.enabled
  hwReady : other.hwReady = one.hwReady
  signals : ∀ layer ∈ arbiter.layers, ∀ protocol ∈ layer.protocols,
    protocol.signal other = protocol.signal one

theorem Alike.verdict {arbiter : Arbiter} {one other : Interface}
    (alike : arbiter.Alike one other) {layer : Layer} (member : layer ∈ arbiter.layers) :
    layer.verdict other = layer.verdict one := by
  have signals : layer.protocols.filter (fun protocol => protocol.signal other = .block) =
      layer.protocols.filter fun protocol => protocol.signal one = .block :=
    List.filter_congr fun protocol among => by rw [alike.signals layer member protocol among]
  unfold Layer.verdict
  rw [← List.head?_filter, signals, List.head?_filter]

theorem Alike.standings {arbiter : Arbiter} {one other : Interface}
    (alike : arbiter.Alike one other) (below : Bool) {layers : List Layer}
    (within : layers ⊆ arbiter.layers) :
    arbiter.standings other below layers = arbiter.standings one below layers := by
  have holds : arbiter.holdsBack other = arbiter.holdsBack one := by
    unfold holdsBack
    rw [alike.enabled, alike.hwReady]
  induction layers generalizing below with
  | nil => rfl
  | cons layer rest ih =>
      rw [List.cons_subset] at within
      have first : arbiter.standingOver other below layer =
          arbiter.standingOver one below layer := by
        unfold standingOver
        rw [holds, alike.verdict within.1]
      change arbiter.standingOver other below layer :: _ =
        arbiter.standingOver one below layer :: _
      rw [first, ih _ within.2]

/-- What arbitration leaves goes by the signals and by nothing that was there before:
not by the states of the layers, and by the forwarding column only for the keys that no
layer is written under. -/
theorem arbitration_forgets (arbiter : Arbiter) (interface : Interface) :
    let outcome := arbiter.arbitrate interface
    arbiter.FollowSignals (withoutLayers interface) outcome.1 ∧
    Shows interface.forwarding outcome.1.getLast? outcome.2 ∧
    (∀ layers, arbiter.arbitrate { interface with layers } = outcome) ∧
    ∀ other, arbiter.Alike (withoutLayers interface) (withoutLayers other) →
      (arbiter.arbitrate other).1 = outcome.1 ∧
      (arbiter.layers ≠ [] → ∀ key ∈ writtenKeys,
        (arbiter.arbitrate other).2.get? key = outcome.2.get? key) := by
  intro outcome
  let states := arbiter.standings (withoutLayers interface) false arbiter.layers
  have left : outcome = (states, leave states.getLast? interface.forwarding) :=
    arbitrate_eq arbiter interface
  rw [left]
  refine ⟨arbiter.standings_followSignals _, leave_shows _ ?_, fun layers => ?_, ?_⟩
  · intro state outermost
    exact arbiter.blocked_of_owned _ false arbiter.layers (List.mem_of_getLast? outermost)
  · exact arbitrate_eq arbiter { interface with layers }
  · intro other alike
    have same : arbiter.standings (withoutLayers other) false arbiter.layers = states :=
      alike.standings false (List.Subset.refl _)
    rw [arbitrate_eq arbiter other, same]
    refine ⟨rfl, fun nonempty key written => ?_⟩
    have present : states ≠ [] := by
      rw [← List.length_pos_iff, length_standings]
      exact List.length_pos_iff.mpr nonempty
    rw [List.getLast?_eq_some_getLast present]
    simp only [leave, get?_stamp]
    simp only [writtenKeys, List.mem_cons, List.not_mem_nil, or_false] at written
    grind

end Arbiter

end LinkReconciler
