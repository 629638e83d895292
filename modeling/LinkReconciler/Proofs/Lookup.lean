import LinkReconciler.Dict.NameSet

/-!
Looking things up after the operations on finite maps: presence, the values and
their keys, and folds that visit each key once.
-/

namespace LinkReconciler

namespace Dict

variable {β γ : Type}

theorem contains_iff (dict : Dict β) (key : String) :
    dict.contains key = true ↔ ∃ value, dict.get? key = some value :=
  Option.isSome_iff_exists

theorem get?_insert_self (dict : Dict β) (key : String) (value : β) :
    (dict.insert key value).get? key = some value := by
  simp [get?_insert]

theorem get?_insert_ne (dict : Dict β) {key other : String} (value : β)
    (differs : key ≠ other) :
    (dict.insert key value).get? other = dict.get? other := by
  simp [get?_insert, differs]

theorem get?_foldl_insert_of_not_mem (pairs : List (String × β)) {key : String}
    (absent : key ∉ pairs.map (·.1)) (dict : Dict β) :
    (pairs.foldl (fun dict pair => dict.insert pair.1 pair.2) dict).get? key =
      dict.get? key := by
  induction pairs generalizing dict with
  | nil => rfl
  | cons pair rest ih =>
      rw [List.map_cons, List.mem_cons, not_or] at absent
      rw [List.foldl_cons, ih absent.2, get?_insert_ne _ _ (Ne.symm absent.1)]

theorem get?_foldl_insert_of_mem {pairs : List (String × β)}
    (distinct : (pairs.map (·.1)).Nodup) {key : String} {value : β}
    (member : (key, value) ∈ pairs) (dict : Dict β) :
    (pairs.foldl (fun dict pair => dict.insert pair.1 pair.2) dict).get? key = some value := by
  induction pairs generalizing dict with
  | nil => exact absurd member List.not_mem_nil
  | cons pair rest ih =>
      obtain ⟨fresh, tail⟩ := List.nodup_cons.mp distinct
      rw [List.foldl_cons]
      rcases List.mem_cons.mp member with rfl | later
      · rw [get?_foldl_insert_of_not_mem rest fresh, get?_insert_self]
      · exact ih tail later _

theorem get?_ofList_of_mem {pairs : List (String × β)} (distinct : (pairs.map (·.1)).Nodup)
    {key : String} {value : β} (member : (key, value) ∈ pairs) :
    (ofList pairs).get? key = some value :=
  get?_foldl_insert_of_mem distinct member ∅

theorem contains_ofList (pairs : List (String × β)) (key : String) :
    (ofList pairs).contains key = true ↔ key ∈ pairs.map (·.1) := by
  have folded (dict : Dict β) :
      (pairs.foldl (fun dict pair => dict.insert pair.1 pair.2) dict).contains key = true ↔
        key ∈ pairs.map (·.1) ∨ dict.contains key = true := by
    induction pairs generalizing dict with
    | nil => simp
    | cons pair rest ih =>
        rw [List.foldl_cons, ih, List.map_cons, List.mem_cons]
        by_cases own : pair.1 = key
        · simp [contains, get?_insert, own]
        · simp [contains, get?_insert, own, Ne.symm own]
  exact (folded ∅).trans (or_iff_left Bool.false_ne_true)

theorem length_flatten_insertEntry (key : String) (value : List β)
    {entries : List (String × List β)}
    (sorted : entries.Pairwise fun left right => left.1 < right.1) :
    ((insertEntry key value entries).map (·.2)).flatten.length +
        ((find? key entries).getD []).length =
      value.length + (entries.map (·.2)).flatten.length := by
  induction entries with
  | nil => simp [insertEntry, find?]
  | cons head rest ih =>
      obtain ⟨name, old⟩ := head
      rw [List.pairwise_cons] at sorted
      have tail := ih sorted.2
      unfold insertEntry
      split
      next before =>
        have absent : find? key ((name, old) :: rest) = none := by
          refine find?_eq_none fun entry member => ?_
          rcases List.mem_cons.mp member with same | later
          · exact same ▸ (String.ne_of_lt before).symm
          · exact (String.ne_of_lt (String.lt_trans before (sorted.1 entry later))).symm
        simp [absent]
      next =>
        split
        next same =>
          subst same
          simp [find?]
          omega
        next differs =>
          simp [find?, Ne.symm differs] at tail ⊢
          omega

theorem keys_nodup (dict : Dict β) : dict.keys.Nodup := by
  refine List.pairwise_map.mpr (dict.sorted.imp ?_)
  intro left right before same
  rw [same] at before
  exact String.lt_irrefl _ before

theorem keys_mapValues (dict : Dict β) (change : β → γ) :
    (dict.mapValues change).keys = dict.keys :=
  List.map_map ..

theorem mapValues_insert (dict : Dict β) (key : String) (value : β) (change : β → γ) :
    (dict.insert key value).mapValues change = (dict.mapValues change).insert key (change value) := by
  ext other : 1
  rw [get?_mapValues, get?_insert, get?_insert, get?_mapValues]
  by_cases own : key = other
  · rw [if_pos own, if_pos own, Option.map_some]
  · rw [if_neg own, if_neg own]

theorem mem_values_iff (dict : Dict β) (value : β) :
    value ∈ dict.values ↔ ∃ key, dict.get? key = some value := by
  simp only [values, List.mem_map, get?_eq_some_iff]
  constructor
  · rintro ⟨⟨key, found⟩, member, rfl⟩
    exact ⟨key, member⟩
  · rintro ⟨key, member⟩
    exact ⟨(key, value), member, rfl⟩

theorem values_map_eq_keys (dict : Dict β) (name : β → String)
    (keyed : ∀ key value, dict.get? key = some value → name value = key) :
    dict.values.map name = dict.keys := by
  simp only [values, keys, List.map_map]
  refine List.map_congr_left ?_
  rintro ⟨key, value⟩ member
  exact keyed key value ((get?_eq_some_iff dict key value).mpr member)

end Dict

namespace NameSet

theorem contains_erase (names : NameSet) (name other : String) :
    (names.erase name).contains other =
      (decide (name ≠ other) && names.contains other) := by
  simp only [Dict.contains, Dict.get?_erase]
  by_cases hit : name = other <;> simp [hit]

theorem contains_addAll_iff (names : NameSet) (more : List String) (name : String) :
    (names.addAll more).contains name = true ↔
      name ∈ more ∨ names.contains name = true := by
  rw [contains_addAll, Bool.or_eq_true, List.contains_iff_mem]

end NameSet

end LinkReconciler
