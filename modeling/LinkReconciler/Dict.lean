/-!
Finite maps from names to values, held as a list of entries in the order of the
keys. Since a key occurs once and the order is fixed, two maps with the same
look-ups are equal (`Dict.ext_get?`), and every traversal is in key order.
-/

namespace LinkReconciler

/-- A finite map from names to values whose entries stand in key order. -/
structure Dict (β : Type) where
  entries : List (String × β)
  sorted : entries.Pairwise fun left right => left.1 < right.1
deriving DecidableEq

namespace Dict

variable {β γ : Type}

/-! ## Entry lists -/

def find? (key : String) : List (String × β) → Option β
  | [] => none
  | (name, value) :: rest => if name = key then some value else find? key rest

def insertEntry (key : String) (value : β) :
    List (String × β) → List (String × β)
  | [] => [(key, value)]
  | (name, old) :: rest =>
      if key < name then (key, value) :: (name, old) :: rest
      else if key = name then (key, value) :: rest
      else (name, old) :: insertEntry key value rest

def eraseEntry (key : String) (entries : List (String × β)) :
    List (String × β) :=
  entries.filter fun entry => entry.1 ≠ key

theorem key_mem_insertEntry {key : String} {value : β} {entry : String × β}
    {entries : List (String × β)}
    (member : entry ∈ insertEntry key value entries) :
    entry = (key, value) ∨ entry ∈ entries := by
  induction entries with
  | nil => simpa [insertEntry] using member
  | cons head rest ih =>
      obtain ⟨name, old⟩ := head
      unfold insertEntry at member
      split at member
      · simpa using member
      · split at member
        · rcases List.mem_cons.mp member with same | tail
          · exact Or.inl same
          · exact Or.inr (List.mem_cons_of_mem _ tail)
        · rcases List.mem_cons.mp member with same | tail
          · exact Or.inr (same ▸ List.mem_cons_self)
          · exact (ih tail).imp_right (List.mem_cons_of_mem _)

theorem insertEntry_sorted (key : String) (value : β)
    {entries : List (String × β)}
    (sorted : entries.Pairwise fun left right => left.1 < right.1) :
    (insertEntry key value entries).Pairwise
      fun left right => left.1 < right.1 := by
  induction entries with
  | nil => simp [insertEntry]
  | cons head rest ih =>
      obtain ⟨name, old⟩ := head
      rw [List.pairwise_cons] at sorted
      unfold insertEntry
      split
      next before =>
        refine List.pairwise_cons.mpr ⟨?_, List.pairwise_cons.mpr sorted⟩
        intro entry member
        rcases List.mem_cons.mp member with same | tail
        · exact same ▸ before
        · exact String.lt_trans before (sorted.1 entry tail)
      next notBefore =>
        split
        next same =>
          subst same
          exact List.pairwise_cons.mpr ⟨sorted.1, sorted.2⟩
        next differs =>
          refine List.pairwise_cons.mpr ⟨?_, ih sorted.2⟩
          intro entry member
          rcases key_mem_insertEntry member with same | tail
          · subst same
            rcases Classical.em (name < key) with after | notAfter
            · exact after
            · exact absurd (String.le_antisymm (String.not_lt.mp notAfter)
                (String.not_lt.mp notBefore)) differs
          · exact sorted.1 entry tail

theorem find?_insertEntry (key other : String) (value : β)
    (entries : List (String × β)) :
    find? other (insertEntry key value entries) =
      if key = other then some value else find? other entries := by
  induction entries with
  | nil => simp [insertEntry, find?]
  | cons head rest ih =>
      obtain ⟨name, old⟩ := head
      unfold insertEntry
      split
      · simp [find?]
      · split
        next same =>
          subst same
          by_cases hit : key = other <;> simp [find?, hit]
        next differs =>
          simp only [find?, ih]
          by_cases hit : name = other
          · have miss : key ≠ other := fun same => differs (same.trans hit.symm)
            simp [hit, miss]
          · simp [hit]

theorem find?_eraseEntry (key other : String) (entries : List (String × β)) :
    find? other (eraseEntry key entries) =
      if key = other then none else find? other entries := by
  induction entries with
  | nil => simp [eraseEntry, find?]
  | cons head rest ih =>
      obtain ⟨name, value⟩ := head
      unfold eraseEntry at ih ⊢
      by_cases drop : name = key
      · subst drop
        rw [List.filter_cons_of_neg (by simp), ih]
        by_cases hit : name = other <;> simp [find?, hit]
      · rw [List.filter_cons_of_pos (by simpa using drop)]
        simp only [find?, ih]
        by_cases hit : name = other
        · have miss : key ≠ other := fun same => drop (hit.trans same.symm)
          simp [hit, miss]
        · simp [hit]

theorem find?_eq_none {key : String} {entries : List (String × β)}
    (fresh : ∀ entry ∈ entries, entry.1 ≠ key) :
    find? key entries = none := by
  induction entries with
  | nil => rfl
  | cons head rest ih =>
      have miss := fresh head List.mem_cons_self
      simp only [find?, miss, if_false]
      exact ih fun entry member => fresh entry (List.mem_cons_of_mem _ member)

theorem find?_eq_some_iff {key : String} {value : β}
    {entries : List (String × β)}
    (sorted : entries.Pairwise fun left right => left.1 < right.1) :
    find? key entries = some value ↔ (key, value) ∈ entries := by
  induction entries with
  | nil => simp [find?]
  | cons head rest ih =>
      obtain ⟨name, old⟩ := head
      rw [List.pairwise_cons] at sorted
      simp only [find?]
      by_cases hit : name = key
      · subst hit
        have fresh : ∀ other, (name, other) ∉ rest := fun other member =>
          String.lt_irrefl _ (sorted.1 (name, other) member)
        simp [fresh, eq_comm]
      · have miss : ¬ key = name := fun same => hit same.symm
        simp [hit, miss, ih sorted.2]

theorem entries_ext {left right : List (String × β)}
    (leftSorted : left.Pairwise fun a b => a.1 < b.1)
    (rightSorted : right.Pairwise fun a b => a.1 < b.1)
    (same : ∀ key, find? key left = find? key right) : left = right := by
  have asymmetric : ∀ a b : String × β, a ∈ left → b ∈ right →
      a.1 < b.1 → b.1 < a.1 → a = b :=
    fun a b _ _ before after => absurd after (String.lt_asymm before)
  have distinct : ∀ {entries : List (String × β)},
      entries.Pairwise (fun a b => a.1 < b.1) → entries.Nodup := by
    intro entries sorted
    refine List.Pairwise.imp ?_ sorted
    rintro a b before same
    subst same
    exact String.lt_irrefl _ before
  refine List.Perm.eq_of_pairwise asymmetric leftSorted rightSorted ?_
  refine (List.perm_ext_iff_of_nodup (distinct leftSorted) (distinct rightSorted)).mpr ?_
  rintro ⟨key, value⟩
  rw [← find?_eq_some_iff leftSorted, ← find?_eq_some_iff rightSorted, same]

/-! ## Maps -/

def empty : Dict β := ⟨[], List.Pairwise.nil⟩

instance : EmptyCollection (Dict β) := ⟨empty⟩
instance : Inhabited (Dict β) := ⟨empty⟩

def get? (dict : Dict β) (key : String) : Option β :=
  find? key dict.entries

def contains (dict : Dict β) (key : String) : Bool :=
  (dict.get? key).isSome

def insert (dict : Dict β) (key : String) (value : β) : Dict β :=
  ⟨insertEntry key value dict.entries, insertEntry_sorted key value dict.sorted⟩

def erase (dict : Dict β) (key : String) : Dict β :=
  ⟨eraseEntry key dict.entries, dict.sorted.filter _⟩

def modify (dict : Dict β) (key : String) (change : β → β) : Dict β :=
  match dict.get? key with
  | some value => dict.insert key (change value)
  | none => dict

def mapValues (dict : Dict β) (change : β → γ) : Dict γ :=
  ⟨dict.entries.map fun entry => (entry.1, change entry.2),
    List.pairwise_map.mpr dict.sorted⟩

def size (dict : Dict β) : Nat :=
  dict.entries.length

def isEmpty (dict : Dict β) : Bool :=
  dict.entries.isEmpty

def keys (dict : Dict β) : List String :=
  dict.entries.map (·.1)

def values (dict : Dict β) : List β :=
  dict.entries.map (·.2)

/-- The later of two pairs with one key wins. -/
def ofList (pairs : List (String × β)) : Dict β :=
  pairs.foldl (fun dict pair => dict.insert pair.1 pair.2) ∅

@[ext]
theorem ext_get? {left right : Dict β}
    (same : ∀ key, left.get? key = right.get? key) : left = right := by
  obtain ⟨leftEntries, leftSorted⟩ := left
  obtain ⟨rightEntries, rightSorted⟩ := right
  have entries := entries_ext leftSorted rightSorted same
  subst entries
  rfl

@[simp]
theorem get?_empty (key : String) : (∅ : Dict β).get? key = none := rfl

theorem get?_insert (dict : Dict β) (key other : String) (value : β) :
    (dict.insert key value).get? other =
      if key = other then some value else dict.get? other :=
  find?_insertEntry key other value dict.entries

theorem get?_erase (dict : Dict β) (key other : String) :
    (dict.erase key).get? other =
      if key = other then none else dict.get? other :=
  find?_eraseEntry key other dict.entries

theorem get?_modify (dict : Dict β) (key other : String) (change : β → β) :
    (dict.modify key change).get? other =
      if key = other then (dict.get? other).map change else dict.get? other := by
  unfold modify
  by_cases hit : key = other
  · subst hit
    cases found : dict.get? key <;> simp [get?_insert, found]
  · cases dict.get? key <;> simp [get?_insert, hit]

theorem get?_mapValues (dict : Dict β) (change : β → γ) (key : String) :
    (dict.mapValues change).get? key = (dict.get? key).map change := by
  obtain ⟨entries, sorted⟩ := dict
  show find? key (entries.map _) = (find? key entries).map change
  clear sorted
  induction entries with
  | nil => rfl
  | cons head rest ih =>
      by_cases hit : head.1 = key <;> simp [find?, hit, ih]

theorem get?_eq_some_iff (dict : Dict β) (key : String) (value : β) :
    dict.get? key = some value ↔ (key, value) ∈ dict.entries :=
  find?_eq_some_iff dict.sorted

theorem mem_keys_iff (dict : Dict β) (key : String) :
    key ∈ dict.keys ↔ dict.contains key = true := by
  simp only [keys, List.mem_map, Prod.exists, exists_and_right,
    exists_eq_right, contains, Option.isSome_iff_exists, get?_eq_some_iff]

end Dict

abbrev ColumnMap := Dict String

end LinkReconciler
