import LinkReconciler.Interface.Entity
import LinkReconciler.Proofs.TableImage
import LinkReconciler.Table.Store

/-!
Transactions name by name: what they write to a row, what that makes of the table,
and the update that takes one state of an interface to another.
-/

namespace LinkReconciler

namespace RowUpdate

theorem apply_of_isEmpty {update : RowUpdate} (empty : update.isEmpty = true)
    (row : InterfaceRow) : update.apply row = row := by
  obtain ⟨error, hwConfig, forwarding⟩ := update
  simp only [isEmpty, Bool.and_eq_true, Option.isNone_iff_eq_none] at empty
  obtain ⟨⟨rfl, rfl⟩, rfl⟩ := empty
  rfl

def between (before after : Interface) : RowUpdate where
  error := if after.error ≠ before.error then some after.error else none
  hwConfig := if after.hwConfig ≠ before.hwConfig then some after.hwConfig else none
  forwarding :=
    if after.forwarding ≠ before.forwarding then some after.forwarding else none

theorem between_self (interface : Interface) : between interface interface = {} := by
  simp [between]

theorem between_isEmpty_iff (before after : Interface) :
    (between before after).isEmpty = true ↔ after.error = before.error ∧
      after.hwConfig = before.hwConfig ∧ after.forwarding = before.forwarding := by
  have none_iff {α : Type} (changed : Prop) [Decidable changed] (value : α) :
      (if changed then some value else none) = none ↔ ¬ changed := by
    by_cases hit : changed <;> simp [hit]
  simp only [isEmpty, between, Bool.and_eq_true, Option.isNone_iff_eq_none, none_iff,
    Decidable.not_not, and_assoc]

theorem changed_eq_some_iff {α : Type} [DecidableEq α] (before after value : α) :
    (if after ≠ before then some after else none) = some value ↔
      after = value ∧ before ≠ value := by
  by_cases same : after = before
  · simp +contextual [same]
  · simp only [ne_eq, same, not_false_eq_true, if_true, Option.some.injEq]
    exact ⟨fun written => ⟨written, written ▸ Ne.symm same⟩, And.left⟩

theorem error_between_eq_some_iff (before after : Interface) (error : Option String) :
    (between before after).error = some error ↔
      after.error = error ∧ before.error ≠ error :=
  changed_eq_some_iff before.error after.error error

theorem hwConfig_between_eq_some_iff (before after : Interface) (config : ColumnMap) :
    (between before after).hwConfig = some config ↔
      after.hwConfig = config ∧ before.hwConfig ≠ config :=
  changed_eq_some_iff before.hwConfig after.hwConfig config

theorem forwarding_between_eq_some_iff (before after : Interface) (column : ColumnMap) :
    (between before after).forwarding = some column ↔
      after.forwarding = column ∧ before.forwarding ≠ column :=
  changed_eq_some_iff before.forwarding after.forwarding column

/-- Over a row with the columns from before, the difference gives the row the
columns from after. -/
theorem apply_between {before after : Interface} {row : InterfaceRow}
    (error : row.error = before.error) (hwConfig : row.hwConfig = before.hwConfig)
    (forwarding : row.forwarding = before.forwarding) :
    (between before after).apply row =
      { row with
        error := after.error
        hwConfig := after.hwConfig
        forwarding := after.forwarding } := by
  have chosen {α : Type} [DecidableEq α] (old new kept : α) (same : kept = old) :
      (if new ≠ old then some new else none).getD kept = new := by
    by_cases hit : new = old <;> simp [hit, same]
  unfold apply between
  rw [chosen _ _ _ error, chosen _ _ _ hwConfig, chosen _ _ _ forwarding]

theorem between_of_writes {before after : Interface}
    (forwarding : after.forwarding = before.forwarding) :
    let config : RowUpdate :=
      if decide (after.hwConfig ≠ before.hwConfig) = true then
        RowUpdate.write {} (.hwConfig after.hwConfig)
      else {}
    (if decide (after.error ≠ before.error) = true then config.write (.error after.error)
      else config) = between before after := by
  unfold between
  rw [forwarding]
  by_cases config : after.hwConfig = before.hwConfig <;>
    by_cases error : after.error = before.error <;>
    simp [config, error, write]

end RowUpdate

namespace Transaction

def under (transaction : Transaction) (name : String) : RowUpdate :=
  (transaction.get? name).getD {}

theorem under_write (transaction : Transaction) (name : String) (column : ColumnWrite)
    (other : String) :
    (transaction.write name column).under other =
      if name = other then (transaction.under other).write column
      else transaction.under other := by
  unfold under get? write
  rw [Dict.get?_insert]
  by_cases hit : name = other
  · subst hit
    simp [get?]
  · simp [hit]

theorem under_writeIf (transaction : Transaction) (changed : Bool) (name : String)
    (column : ColumnWrite) (other : String) :
    (transaction.writeIf changed name column).under other =
      if name = other then
        if changed then (transaction.under other).write column else transaction.under other
      else transaction.under other := by
  unfold writeIf
  cases changed with
  | false => simp
  | true => simpa using under_write transaction name column other

theorem isEmpty_iff (transaction : Transaction) :
    transaction.isEmpty = true ↔ ∀ name, (transaction.under name).isEmpty = true := by
  unfold isEmpty
  rw [List.all_eq_true]
  constructor
  · intro all name
    unfold under
    cases found : transaction.get? name with
    | none => rfl
    | some update =>
        exact all update ((Dict.mem_values_iff _ update).mpr ⟨name, found⟩)
  · intro each update member
    obtain ⟨name, found⟩ := (Dict.mem_values_iff _ update).mp member
    have here := each name
    unfold under get? at here
    rwa [found] at here

/-! ## Entries -/

/-- Every entry writes at least one column. -/
def Terse (transaction : Transaction) : Prop :=
  ∀ name update, transaction.get? name = some update → update.isEmpty = false

theorem empty_terse : (∅ : Transaction).Terse :=
  fun _ _ absent => nomatch absent

theorem write_terse {transaction : Transaction} (terse : transaction.Terse) (name : String)
    (column : ColumnWrite) : (transaction.write name column).Terse := by
  intro other update found
  unfold get? write at found
  rw [Dict.get?_insert] at found
  split at found
  · cases found
    cases column <;> simp [RowUpdate.write, RowUpdate.isEmpty]
  · exact terse other update found

theorem writeIf_terse {transaction : Transaction} (terse : transaction.Terse)
    (changed : Bool) (name : String) (column : ColumnWrite) :
    (transaction.writeIf changed name column).Terse := by
  unfold writeIf
  cases changed with
  | false => exact terse
  | true => exact write_terse terse name column

theorem Terse.get?_eq {transaction : Transaction} (terse : transaction.Terse)
    (name : String) :
    transaction.get? name =
      if (transaction.under name).isEmpty then none else some (transaction.under name) := by
  unfold under
  cases found : transaction.get? name with
  | none => rfl
  | some update =>
      have writes : update.isEmpty = false := terse name update found
      simp [writes]

theorem Terse.ext {left right : Transaction} (leftTerse : left.Terse)
    (rightTerse : right.Terse) (same : ∀ name, left.under name = right.under name) :
    left = right := by
  have updates : left.updates = right.updates := by
    ext name : 1
    show left.get? name = right.get? name
    rw [leftTerse.get?_eq, rightTerse.get?_eq, same]
  calc left = ⟨left.updates⟩ := rfl
    _ = right := by rw [updates]

end Transaction

namespace Store

theorem get?_foldl_modify (entries : List (String × RowUpdate))
    (sorted : entries.Pairwise fun left right => left.1 < right.1)
    (rows : Dict InterfaceRow) (name : String) :
    (entries.foldl (fun rows entry => rows.modify entry.1 entry.2.apply) rows).get? name =
      (rows.get? name).map ((Dict.find? name entries).getD {}).apply := by
  induction entries generalizing rows with
  | nil =>
      have nothing : (fun row : InterfaceRow => RowUpdate.apply {} row) = id := rfl
      simp [Dict.find?, nothing]
  | cons head rest ih =>
      obtain ⟨key, update⟩ := head
      rw [List.pairwise_cons] at sorted
      rw [List.foldl_cons, ih sorted.2, Dict.get?_modify]
      by_cases hit : key = name
      · subst hit
        have later : Dict.find? key rest = none := Dict.find?_eq_none fun entry member same =>
          String.lt_irrefl _ (same ▸ sorted.1 entry member)
        rw [if_pos rfl, later]
        simp only [Dict.find?, if_true, Option.map_map]
        rfl
      · simp only [if_neg hit, Dict.find?]

theorem get?_applyUpdates (rows : Dict InterfaceRow) (transaction : Transaction)
    (name : String) :
    (applyUpdates rows transaction).get? name =
      (rows.get? name).map (transaction.under name).apply :=
  get?_foldl_modify transaction.updates.entries transaction.updates.sorted rows name

theorem applyUpdates_keyed {rows : Dict InterfaceRow} (keyed : Keyed rows)
    (transaction : Transaction) : Keyed (applyUpdates rows transaction) := by
  intro name row present
  rw [get?_applyUpdates] at present
  obtain ⟨old, was, rfl⟩ := Option.map_eq_some_iff.mp present
  exact keyed name old was

theorem applyUpdates_of_isEmpty (rows : Dict InterfaceRow) {transaction : Transaction}
    (empty : transaction.isEmpty = true) : applyUpdates rows transaction = rows := by
  ext name : 1
  have nothing : (transaction.under name).apply = id :=
    funext (RowUpdate.apply_of_isEmpty ((transaction.isEmpty_iff).mp empty name))
  rw [get?_applyUpdates, nothing, Option.map_id, id]

end Store

end LinkReconciler
