import LinkReconciler.Proofs.ChangeFold

/-!
Images of a table. A table is keyed when every row stands under its own name. An
image follows a table when the changes on their way, those set aside and then those
not yet taken, turn the one into the other; that survives every change a client
makes and every time the changes are taken.
-/

namespace LinkReconciler

variable {ρ : Type} [Named ρ]

def Keyed (image : Dict ρ) : Prop :=
  ∀ name row, image.get? name = some row → Named.name row = name

theorem keyed_iff_entries (image : Dict ρ) :
    Keyed image ↔ ∀ entry ∈ image.entries, Named.name entry.2 = entry.1 := by
  simp only [Keyed, Dict.get?_eq_some_iff, Prod.forall]

instance (image : Dict ρ) : Decidable (Keyed image) :=
  decidable_of_iff _ (keyed_iff_entries image).symm

omit [Named ρ] in
def eraseAll (image : Dict ρ) (names : List String) : Dict ρ :=
  names.foldl Dict.erase image

def putAll (image : Dict ρ) (rows : List ρ) : Dict ρ :=
  rows.foldl (fun image row => image.insert (Named.name row) row) image

omit [Named ρ] in
theorem get?_eraseAll (image : Dict ρ) (names : List String) (name : String) :
    (eraseAll image names).get? name =
      if name ∈ names then none else image.get? name := by
  unfold eraseAll
  induction names generalizing image with
  | nil => simp
  | cons head rest ih =>
      rw [List.foldl_cons, ih, Dict.get?_erase]
      by_cases later : name ∈ rest
      · simp [later]
      · by_cases hit : head = name
        · simp [hit]
        · simp [later, hit, Ne.symm hit]

def lastNamed? (rows : List ρ) (name : String) : Option ρ :=
  (rows.filter fun row => Named.name row = name).getLast?

theorem lastNamed?_cons (head : ρ) (rest : List ρ) (name : String) :
    lastNamed? (head :: rest) name =
      (lastNamed? rest name).or (if Named.name head = name then some head else none) := by
  unfold lastNamed?
  by_cases own : Named.name head = name
  · rw [List.filter_cons_of_pos (by simpa using own), List.getLast?_cons, if_pos own]
    cases (rest.filter fun row => Named.name row = name).getLast? <;> rfl
  · rw [List.filter_cons_of_neg (by simpa using own), if_neg own, Option.or_none]

theorem get?_putAll (image : Dict ρ) (rows : List ρ) (name : String) :
    (putAll image rows).get? name = (lastNamed? rows name).or (image.get? name) := by
  unfold putAll
  induction rows generalizing image with
  | nil => rfl
  | cons head rest ih =>
      rw [List.foldl_cons, ih, Dict.get?_insert, lastNamed?_cons, Option.or_assoc]
      by_cases own : Named.name head = name
      · rw [if_pos own, if_pos own, Option.some_or]
      · rw [if_neg own, if_neg own, Option.none_or]

theorem putAll_eq_foldl (image : Dict ρ) (rows : List ρ) :
    putAll image rows = (rows.map fun row => (Named.name row, row)).foldl
      (fun dict pair => dict.insert pair.1 pair.2) image := by
  rw [List.foldl_map]
  rfl

theorem get?_putAll_of_not_mem (image : Dict ρ) (rows : List ρ)
    {name : String} (absent : name ∉ rows.map Named.name) :
    (putAll image rows).get? name = image.get? name := by
  rw [putAll_eq_foldl, Dict.get?_foldl_insert_of_not_mem]
  rwa [List.map_map]

theorem get?_putAll_of_mem (image : Dict ρ) {rows : List ρ}
    (distinct : (rows.map Named.name).Nodup) {row : ρ} (member : row ∈ rows) :
    (putAll image rows).get? (Named.name row) = some row := by
  rw [putAll_eq_foldl]
  apply Dict.get?_foldl_insert_of_mem
  · rwa [List.map_map]
  · exact List.mem_map_of_mem member

theorem putAll_values {table : Dict ρ} (keyed : Keyed table) :
    putAll ∅ table.values = table := by
  have keys := Dict.values_map_eq_keys table Named.name keyed
  ext name : 1
  cases found : table.get? name with
  | some row =>
      have named := keyed name row found
      subst named
      apply get?_putAll_of_mem
      · rw [keys]
        exact Dict.keys_nodup table
      · exact (Dict.mem_values_iff table row).mpr ⟨_, found⟩
  | none =>
      rw [get?_putAll_of_not_mem]
      · rfl
      · intro member
        rw [keys, Dict.mem_keys_iff, Dict.contains_iff] at member
        obtain ⟨row, present⟩ := member
        cases found.symm.trans present

/-! ## Keyed tables -/

theorem insert_keyed {image : Dict ρ} (keyed : Keyed image) (row : ρ) :
    Keyed (image.insert (Named.name row) row) := by
  intro name other present
  rw [Dict.get?_insert] at present
  by_cases hit : Named.name row = name
  · rw [if_pos hit] at present
    exact Option.some.inj present ▸ hit
  · exact keyed name other (by simpa [hit] using present)

theorem eraseAll_keyed {image : Dict ρ} (keyed : Keyed image)
    (names : List String) : Keyed (eraseAll image names) := by
  intro name row present
  rw [get?_eraseAll] at present
  by_cases gone : name ∈ names
  · simp [gone] at present
  · exact keyed name row (by simpa [gone] using present)

theorem putAll_keyed {image : Dict ρ} (keyed : Keyed image) (rows : List ρ) :
    Keyed (putAll image rows) := by
  unfold putAll
  induction rows generalizing image with
  | nil => exact keyed
  | cons head rest ih => exact ih (insert_keyed keyed head)

theorem apply_keyed {image : Dict ρ} (keyed : Keyed image) {change : Change ρ}
    (proper : change.Proper) : Keyed (change.apply image) := by
  cases proper with
  | put row => exact insert_keyed keyed row
  | deleted key => exact eraseAll_keyed keyed [key]

theorem applyAll_keyed {image : Dict ρ} (keyed : Keyed image)
    {changes : List (Change ρ)} (proper : ∀ change ∈ changes, change.Proper) :
    Keyed (Change.applyAll image changes) := by
  unfold Change.applyAll
  induction changes generalizing image with
  | nil => exact keyed
  | cons change rest ih =>
      obtain ⟨head, tail⟩ := List.forall_mem_cons.mp proper
      exact ih (apply_keyed keyed head) tail

/-- Where a change of a name is among well-formed changes, they leave the same row
whatever was stored before. -/
theorem get?_applyAll_of_touched {changes : List (Change ρ)}
    (wellFormed : Change.WellFormed changes) {name : String}
    (touched : Change.Touches changes name) (image other : Dict ρ) :
    (Change.applyAll image changes).get? name =
      (Change.applyAll other changes).get? name := by
  rw [Change.get?_applyAll, Change.get?_applyAll]
  rw [Change.touches_iff_ofKey] at touched
  have folded := wellFormed name
  generalize Change.ofKey name changes = history at touched folded
  cases folded with
  | untouched => exact absurd rfl touched
  | deleted => rfl
  | put row named => rfl
  | replaced row named => rfl

theorem map_get?_applyAll_congr {α : Type} {view : ρ → α} {changes : List (Change ρ)}
    (wellFormed : Change.WellFormed changes) {image other : Dict ρ} {name : String}
    (alike : (image.get? name).map view = (other.get? name).map view) :
    ((Change.applyAll image changes).get? name).map view =
      ((Change.applyAll other changes).get? name).map view := by
  by_cases touched : Change.Touches changes name
  · rw [get?_applyAll_of_touched wellFormed touched image other]
  · rw [Change.get?_applyAll_of_untouched touched, Change.get?_applyAll_of_untouched touched,
      alike]

/-! ## Changes on their way -/

namespace ChangeQueue

def combined (older newer : ChangeQueue ρ) : List (Change ρ) :=
  (older.pushAll newer.drained).drained

section Combined
variable {older newer : ChangeQueue ρ} (olderSound : older.Sound) (newerSound : newer.Sound)
include olderSound newerSound

theorem applyAll_combined (image : Dict ρ) :
    Change.applyAll image (combined older newer) =
      Change.applyAll (Change.applyAll image older.drained) newer.drained :=
  applyAll_drained_pushAll olderSound (drained_wellFormed newerSound).proper image

theorem applyAll_combined_push {change : Change ρ} (proper : change.Proper)
    (image : Dict ρ) :
    Change.applyAll image (combined older (newer.push change)) =
      change.apply (Change.applyAll image (combined older newer)) := by
  rw [applyAll_combined olderSound (push_sound newerSound proper),
    applyAll_drained_push newerSound.filed proper.complete, applyAll_combined olderSound newerSound]

theorem touches_combined_push {change : Change ρ} (proper : change.Proper)
    (name : String) :
    Change.Touches (combined older (newer.push change)) name ↔
      change.key = name ∨ Change.Touches (combined older newer) name := by
  have pushed := push_sound newerSound proper
  unfold combined
  rw [touches_drained_pushAll olderSound (drained_wellFormed pushed).proper,
    touches_drained_push newerSound proper,
    touches_drained_pushAll olderSound (drained_wellFormed newerSound).proper]
  exact or_assoc

theorem reached_push_iff {α : Type} {view : ρ → α} {change : Change ρ}
    (proper : change.Proper) {image table : Dict ρ} {name : String} :
    ((Change.applyAll image (combined older (newer.push change))).get? name).map view =
        ((change.apply table).get? name).map view ↔
      change.key = name ∨
        ((Change.applyAll image (combined older newer)).get? name).map view =
          (table.get? name).map view := by
  rw [applyAll_combined_push olderSound newerSound proper]
  exact proper.complete.alike_iff _ table name

end Combined

def Puts (queue : ChangeQueue ρ) : Prop :=
  ∀ key, ∀ change ∈ queue.under key, ∃ row, change = .ofRow row

theorem push_puts {queue : ChangeQueue ρ} (sound : queue.Sound) (puts : queue.Puts)
    (row : ρ) : (queue.push (.ofRow row)).Puts := by
  intro key change member
  rw [under_push] at member
  by_cases hit : (Change.ofRow row).key = key
  · rw [if_pos hit] at member
    subst hit
    have kept := puts (Change.ofRow row).key
    have folded := sound (Change.ofRow row).key
    generalize queue.under (Change.ofRow row).key = queued at member folded kept
    -- A queue of rows only holds no deletion, so only the first two shapes can be.
    cases folded with
    | untouched => exact ⟨row, List.mem_singleton.mp member⟩
    | put old named => exact ⟨row, List.mem_singleton.mp member⟩
    | deleted =>
        obtain ⟨other, same⟩ := kept _ List.mem_cons_self
        have op : Operation.del = Operation.set := congrArg Change.op same
        cases op
    | replaced old named =>
        obtain ⟨other, same⟩ := kept _ List.mem_cons_self
        have op : Operation.del = Operation.set := congrArg Change.op same
        cases op
  · rw [if_neg hit] at member
    exact puts key change member

theorem drained_puts {queue : ChangeQueue ρ} (sound : queue.Sound) (puts : queue.Puts) :
    ∀ change ∈ queue.drained, ∃ row, change = .ofRow row := by
  intro change member
  apply puts change.key
  rw [← ofKey_drained sound.filed]
  exact (Change.mem_ofKey_iff change.key _ change).mpr ⟨member, rfl⟩

theorem pushAll_puts {queue : ChangeQueue ρ} (sound : queue.Sound) (puts : queue.Puts)
    (changes : List (Change ρ)) (rows : ∀ change ∈ changes, ∃ row, change = .ofRow row) :
    (queue.pushAll changes).Puts := by
  unfold pushAll
  induction changes generalizing queue with
  | nil => exact puts
  | cons change rest ih =>
      obtain ⟨⟨row, rfl⟩, tail⟩ := List.forall_mem_cons.mp rows
      exact ih (push_sound sound (.put row)) (push_puts sound puts row) tail

end ChangeQueue

/-! ## Reaching a table -/

/-- Up to a view of the rows, changes turn the image into the table at all but some
names. -/
def ReachesBut {α : Type} (view : ρ → α) (excepted : String → Prop)
    (image table : Dict ρ) (changes : List (Change ρ)) : Prop :=
  ∀ name, ¬ excepted name →
    ((Change.applyAll image changes).get? name).map view = (table.get? name).map view

namespace ReachesBut

variable {α : Type} {view : ρ → α} {excepted : String → Prop} {image table : Dict ρ}

omit [Named ρ] in
theorem mono {others : String → Prop} {changes : List (Change ρ)}
    (reaches : ReachesBut view excepted image table changes)
    (wider : ∀ name, excepted name → others name) :
    ReachesBut view others image table changes :=
  fun name unexcepted => reaches name fun excepts => unexcepted (wider name excepts)

theorem changed {older newer : ChangeQueue ρ} (olderSound : older.Sound)
    (newerSound : newer.Sound)
    (reaches : ReachesBut view excepted image table (ChangeQueue.combined older newer))
    {change : Change ρ} (proper : change.Proper) :
    ReachesBut view (fun name => excepted name ∧ change.key ≠ name) image
      (change.apply table) (ChangeQueue.combined older (newer.push change)) := by
  intro name unexcepted
  apply (ChangeQueue.reached_push_iff olderSound newerSound proper).mpr
  by_cases own : change.key = name
  · exact Or.inl own
  · exact Or.inr (reaches name fun excepts => unexcepted ⟨excepts, own⟩)

end ReachesBut

/-! ## Following a table -/

inductive Fed (table : Dict ρ) (queue : ChangeQueue ρ) :
    Dict ρ → ChangeQueue ρ → Prop where
  | kept : Fed table queue table queue
  | changed (change : Change ρ) (proper : change.Proper) :
      Fed table queue (change.apply table) (queue.push change)

theorem Fed.keyed {table after : Dict ρ} {queue queued : ChangeQueue ρ}
    (fed : Fed table queue after queued) (keyed : Keyed table) : Keyed after := by
  cases fed with
  | kept => exact keyed
  | changed change proper => exact apply_keyed keyed proper

theorem Fed.sound {table after : Dict ρ} {queue queued : ChangeQueue ρ}
    (fed : Fed table queue after queued) (sound : queue.Sound) : queued.Sound := by
  cases fed with
  | kept => exact sound
  | changed change proper => exact ChangeQueue.push_sound sound proper

open ChangeQueue in
/-- The changes on their way turn the image into the table. -/
structure Follows (image table : Dict ρ) (older newer : ChangeQueue ρ) : Prop where
  olderSound : older.Sound
  newerSound : newer.Sound
  reaches : Change.applyAll image (combined older newer) = table

namespace Follows

variable {image table : Dict ρ} {older newer : ChangeQueue ρ}

theorem fed (follows : Follows image table older newer) {after : Dict ρ}
    {queued : ChangeQueue ρ} (fed : Fed table newer after queued) :
    Follows image after older queued := by
  cases fed with
  | kept => exact follows
  | changed change proper =>
      exact ⟨follows.olderSound, ChangeQueue.push_sound follows.newerSound proper,
        (ChangeQueue.applyAll_combined_push follows.olderSound follows.newerSound proper image).trans
          (congrArg change.apply follows.reaches)⟩

theorem taken (follows : Follows image table older newer) :
    Follows image table (older.pushAll newer.drained) ∅ :=
  ⟨ChangeQueue.pushAll_sound follows.olderSound
      (ChangeQueue.drained_wellFormed follows.newerSound).proper,
    ChangeQueue.empty_sound, follows.reaches⟩

theorem refl (table : Dict ρ) : Follows table table ∅ ∅ :=
  ⟨ChangeQueue.empty_sound, ChangeQueue.empty_sound, rfl⟩

end Follows

end LinkReconciler
