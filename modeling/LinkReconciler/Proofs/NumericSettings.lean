import LinkReconciler.Interface.Mtu
import LinkReconciler.Interface.SpeedList
import Mathlib.Data.List.Forall2

/-!
Sizes and speed lists as they are written and read back. What is read is what the numerals
write as natural numbers of any size, held against the limits, and everything else is
invalid. A speed list that is short enough reads as it was written, and only lists that are
short enough are read at all.
-/

namespace LinkReconciler

namespace Numeral

/-- A text writes a number in decimal: it has ASCII digits only, at least one of them, and
counts up to the number, however long it is. -/
structure Writes (text : List Char) (number : Nat) : Prop where
  filled : text ≠ []
  digits : ∀ digit ∈ text, digit.isDigit = true
  counted : Nat.ofDigitChars 10 text 0 = number

theorem value?_eq_some_iff (text : List Char) (number : Nat) :
    value? text = some number ↔ Writes text number := by
  have written : isNumeral text = true ↔ text ≠ [] ∧ ∀ digit ∈ text, digit.isDigit = true := by
    simp [isNumeral]
  unfold value?
  rw [Option.ite_none_right_eq_some, Option.some.injEq, written]
  constructor
  · rintro ⟨⟨filled, digits⟩, counted⟩
    exact ⟨filled, digits, counted⟩
  · rintro ⟨filled, digits, counted⟩
    exact ⟨⟨filled, digits⟩, counted⟩

theorem word?_eq_some_iff (digits : List Char) (number : UInt32) :
    word? digits = some number ↔ value? digits = some number.toNat := by
  rw [word?_eq]
  cases value? digits with
  | none => simp
  | some value =>
      by_cases fits : value < UInt32.size
      · simp only [Option.bind_some, if_pos fits, Option.some.injEq]
        constructor
        · rintro rfl
          exact (UInt32.toNat_ofNat_of_lt' fits).symm
        · rintro rfl
          exact UInt32.ofNat_toNat
      · have other : value ≠ number.toNat := fun same => fits (same ▸ number.toNat_lt_size)
        simp [fits, other]

theorem word?_eq_some_iff_writes (text : List Char) (word : UInt32) :
    word? text = some word ↔ Writes text word.toNat :=
  (word?_eq_some_iff text word).trans (value?_eq_some_iff text word.toNat)

theorem word?_eq_none_iff (text : List Char) :
    word? text = none ↔ ¬ ∃ number < UInt32.size, Writes text number := by
  rw [Option.eq_none_iff_forall_ne_some]
  constructor
  · rintro refused ⟨number, fits, writes⟩
    refine refused (UInt32.ofNat number) ((word?_eq_some_iff_writes text _).mpr ?_)
    rwa [UInt32.toNat_ofNat_of_lt' fits]
  · intro absent word isRead
    exact absent ⟨word.toNat, word.toNat_lt_size, (word?_eq_some_iff_writes text word).mp isRead⟩

end Numeral

namespace Mtu

theorem read_eq_value_iff (text : String) (limit bytes : UInt32) :
    read text limit = .value bytes ↔
      Numeral.value? text.toList = some bytes.toNat ∧ least ≤ bytes ∧ bytes ≤ limit := by
  rw [← Numeral.word?_eq_some_iff, read]
  cases Numeral.word? text.toList with
  | none => simp
  | some number =>
      by_cases within : least ≤ number ∧ number ≤ limit
      · simp only [if_pos within, value.injEq, Option.some.injEq]
        exact ⟨fun same => ⟨same, same ▸ within⟩, And.left⟩
      · simp only [if_neg within, reduceCtorEq, Option.some.injEq, false_iff]
        rintro ⟨rfl, inside⟩
        exact within inside

theorem read_ne_unset (text : String) (limit : UInt32) : read text limit ≠ .unset := by
  unfold read
  split
  · split <;> exact nofun
  · exact nofun

theorem read_eq_value_iff_writes (text : String) (limit bytes : UInt32) :
    read text limit = .value bytes ↔ Numeral.Writes text.toList bytes.toNat ∧
      576 ≤ bytes.toNat ∧ bytes.toNat ≤ limit.toNat := by
  rw [read_eq_value_iff, Numeral.value?_eq_some_iff]
  exact Iff.rfl

theorem read_eq_invalid_iff (text : String) (limit : UInt32) :
    read text limit = .invalid ↔ ¬ ∃ number, Numeral.Writes text.toList number ∧
      576 ≤ number ∧ number ≤ limit.toNat := by
  constructor
  · rintro isInvalid ⟨number, writes, least, most⟩
    have same : (UInt32.ofNat number).toNat = number :=
      UInt32.toNat_ofNat_of_lt' (Nat.lt_of_le_of_lt most limit.toNat_lt_size)
    have isRead := (read_eq_value_iff_writes text limit (.ofNat number)).mpr
      ⟨same.symm ▸ writes, same.symm ▸ least, same.symm ▸ most⟩
    exact absurd (isInvalid.symm.trans isRead) nofun
  · intro absent
    cases size : read text limit with
    | unset => exact absurd size (read_ne_unset text limit)
    | invalid => rfl
    | value bytes =>
        exact absurd ⟨bytes.toNat, (read_eq_value_iff_writes text limit bytes).mp size⟩ absent

theorem read_text (bytes limit : UInt32) :
    read (value bytes).text limit =
      if least ≤ bytes ∧ bytes ≤ limit then .value bytes else .invalid := by
  rw [read, text, Numeral.word?_ofWord]

/-- A size is read exactly where the text writes a number, of any length, from the least
size to the limit, and any other text is invalid. A size that was read is written as a text
that reads as that size under every limit that admits it, and under no other. -/
theorem read_never_wraps (text : String) (limit : UInt32) :
    (∀ bytes, read text limit = .value bytes ↔ Numeral.Writes text.toList bytes.toNat ∧
      576 ≤ bytes.toNat ∧ bytes.toNat ≤ limit.toNat) ∧
    (read text limit = .invalid ↔ ¬ ∃ number, Numeral.Writes text.toList number ∧
      576 ≤ number ∧ number ≤ limit.toNat) ∧
    ∀ bytes, read text limit = .value bytes → ∀ other,
      read (value bytes).text other = if bytes ≤ other then .value bytes else .invalid := by
  refine ⟨read_eq_value_iff_writes text limit, read_eq_invalid_iff text limit, ?_⟩
  intro bytes isRead other
  have admitted : least ≤ bytes := ((read_eq_value_iff text limit bytes).mp isRead).2.1
  rw [read_text]
  simp only [admitted, true_and]

theorem paddedStandard_read :
    read "0001500" 9000 = .value 1500 ∧ read (value 1500).text 1500 = .value 1500 ∧
      read (value 1500).text 1499 = .invalid := by
  have isRead : read "0001500" 9000 = .value 1500 := by decide
  have written := (read_never_wraps "0001500" 9000).2.2 1500 isRead
  exact ⟨isRead, written 1500, written 1499⟩

-- Modulo the range of a word this numeral would be the standard size.
example : read "4294968796" 9000 = .invalid := by decide

end Mtu

namespace SpeedList

theorem fields_eq_splitOn (text : List Char) : fields text = text.splitOn ',' := by
  induction text with
  | nil => rfl
  | cons c rest ih =>
      have split : (c :: rest).splitOn ',' =
          if (c == ',') = true then [] :: rest.splitOn ','
          else List.modifyHead (List.cons c) (rest.splitOn ',') :=
        List.splitOnP_cons_eq_if_modifyHead c rest
      rw [split, fields, ih]
      by_cases comma : c = ','
      · simp [comma]
      · cases others : rest.splitOn ',' with
        | nil => exact absurd others (List.splitOn_ne_nil ',' rest)
        | cons field others => simp [comma]

theorem tokens_intercalate {texts : List (List Char)}
    (whole : ∀ field ∈ texts, ',' ∉ field) (filled : ∀ field ∈ texts, field ≠ []) :
    tokens ([','].intercalate texts) = texts := by
  unfold tokens
  cases texts with
  | nil => rfl
  | cons first rest =>
      rw [fields_eq_splitOn, List.splitOn_intercalate ',' whole (List.cons_ne_nil _ _)]
      refine List.filter_eq_self.mpr fun field member => ?_
      simpa using filled field member

theorem readTokens_eq_some_iff (room : Nat) (texts : List (List Char))
    (speeds : List Speed) :
    readTokens room texts = some speeds ↔
      texts.length ≤ room ∧ texts.map Numeral.word? = speeds.map some := by
  induction texts generalizing room speeds with
  | nil => cases speeds <;> simp [readTokens]
  | cons token rest ih =>
      cases room with
      | zero => simp [readTokens]
      | succ room =>
          cases speeds with
          | nil => cases word : Numeral.word? token <;> simp [readTokens, word]
          | cons speed others =>
              have tail := ih room others
              cases word : Numeral.word? token with
              | none => simp [readTokens, word]
              | some number => simp [readTokens, word, tail, and_left_comm]

theorem readTokens_eq_none_iff (room : Nat) (texts : List (List Char)) :
    readTokens room texts = none ↔
      room < texts.length ∨ ∃ token ∈ texts, Numeral.word? token = none := by
  induction texts generalizing room with
  | nil => simp [readTokens]
  | cons token rest ih =>
      cases room with
      | zero => simp [readTokens]
      | succ room => cases word : Numeral.word? token <;> simp [readTokens, word, ih]

theorem read_eq_valid_iff (text : String) (speeds : List Speed) :
    read text = .valid speeds ↔
      (tokens text.toList).length ≤ maxEntries ∧
        (tokens text.toList).map Numeral.word? = speeds.map some := by
  rw [← readTokens_eq_some_iff, read]
  cases readTokens maxEntries (tokens text.toList) <;> simp

theorem length_le_of_read {text : String} {speeds : List Speed}
    (isRead : read text = .valid speeds) : speeds.length ≤ maxEntries := by
  obtain ⟨few, words⟩ := (read_eq_valid_iff text speeds).mp isRead
  have same := congrArg List.length words
  rw [List.length_map, List.length_map] at same
  exact same ▸ few

theorem ofWord_unbroken (number : UInt32) :
    ',' ∉ (Numeral.ofWord number).toList ∧ (Numeral.ofWord number).toList ≠ [] := by
  constructor
  · intro comma
    rw [Numeral.ofWord, String.toList_ofList] at comma
    exact absurd (Nat.isDigit_of_mem_toDigits (by decide) (by decide) comma) (by decide)
  · simp [Numeral.ofWord, Nat.toDigits_ne_nil]

theorem read_text {speeds : List Speed} (few : speeds.length ≤ maxEntries) :
    read (text (.valid speeds)) = .valid speeds := by
  have found : tokens (text (.valid speeds)).toList =
      speeds.map fun speed => (Numeral.ofWord speed).toList := by
    rw [text, String.toList_intercalate, List.map_map]
    apply tokens_intercalate
    · intro field member
      obtain ⟨speed, _, rfl⟩ := List.mem_map.mp member
      exact (ofWord_unbroken speed).1
    · intro field member
      obtain ⟨speed, _, rfl⟩ := List.mem_map.mp member
      exact (ofWord_unbroken speed).2
  rw [read_eq_valid_iff, found, List.length_map, List.map_map]
  refine ⟨few, List.map_congr_left fun speed _ => ?_⟩
  exact Numeral.word?_ofWord speed

theorem restrict_eq_valid_iff (user hardware : SpeedList) (speeds : List Speed) :
    user.restrict hardware = .valid speeds ↔
      user = .valid speeds ∧
        (speeds = [] ∨ speeds.length ≤ hardware.length ∧ speeds ⊆ hardware.speeds) := by
  cases user with
  | invalid => simp [restrict]
  | valid given =>
      cases given with
      | nil =>
          simp only [restrict, valid.injEq]
          exact ⟨fun same => ⟨same, Or.inl same.symm⟩, And.left⟩
      | cons first rest =>
          by_cases admitted : (first :: rest).length ≤ hardware.length ∧
              first :: rest ⊆ hardware.speeds
          · simp only [restrict, if_pos admitted, valid.injEq]
            exact ⟨fun same => ⟨same, Or.inr (same ▸ admitted)⟩, And.left⟩
          · simp only [restrict, if_neg admitted, reduceCtorEq, valid.injEq, false_iff]
            rintro ⟨rfl, empty | inside⟩
            · cases empty
            · exact admitted inside

/-! ## The grammar of written lists -/

def entries (text : String) : List (List Char) :=
  (text.toList.splitOn ',').filter (· ≠ [])

theorem tokens_eq_entries (text : String) : tokens text.toList = entries text := by
  rw [tokens, fields_eq_splitOn, entries]
  refine List.filter_congr fun field _ => ?_
  cases field <;> rfl

/-- A written list has at most ten entries, and each writes a number of 32 bits. -/
structure Written (text : String) : Prop where
  few : (entries text).length ≤ 10
  numerals : ∀ entry ∈ entries text, ∃ number < UInt32.size, Numeral.Writes entry number

theorem read_eq_valid_iff_writes (text : String) (speeds : List Speed) :
    read text = .valid speeds ↔ (entries text).length ≤ 10 ∧
      List.Forall₂ Numeral.Writes (entries text) (speeds.map UInt32.toNat) := by
  rw [read_eq_valid_iff, tokens_eq_entries, ← List.forall₂_eq_eq_eq,
    List.forall₂_map_left_iff, List.forall₂_map_right_iff, List.forall₂_map_right_iff]
  simp only [Numeral.word?_eq_some_iff_writes]
  exact Iff.rfl

theorem read_eq_invalid_iff (text : String) : read text = .invalid ↔ ¬ Written text := by
  have refused : read text = .invalid ↔ readTokens maxEntries (tokens text.toList) = none := by
    rw [read]
    cases readTokens maxEntries (tokens text.toList) <;> simp
  rw [refused, readTokens_eq_none_iff, tokens_eq_entries]
  simp only [Numeral.word?_eq_none_iff]
  constructor
  · rintro (many | ⟨entry, member, absent⟩) written
    · exact absurd written.few (Nat.not_le.mpr many)
    · exact absent (written.numerals entry member)
  · intro unwritten
    rcases Nat.lt_or_ge maxEntries (entries text).length with many | few
    · exact Or.inl many
    · right
      by_contra numerals
      refine unwritten ⟨few, fun entry member => ?_⟩
      by_contra absent
      exact numerals ⟨entry, member, absent⟩

theorem read_text_iff (list : SpeedList) :
    read list.text = list ↔ list.length ≤ maxEntries := by
  cases list with
  | invalid => decide
  | valid speeds => exact ⟨length_le_of_read, read_text⟩

/-- Reading accepts exactly the written lists, as the numbers that their entries write, in
order; every other text is invalid. The lists of at most ten entries, and `invalid`, are
those that come back from their text. Of a user's text, held against hardware, something is
left exactly where it was read as a list that is not empty, not longer than the hardware's
and contained in it, and then it is that list. -/
theorem codec_exact :
    (∀ text speeds, read text = .valid speeds ↔ (entries text).length ≤ 10 ∧
      List.Forall₂ Numeral.Writes (entries text) (speeds.map UInt32.toNat)) ∧
    (∀ text, read text = .invalid ↔ ¬ Written text) ∧
    (∀ list : SpeedList, read list.text = list ↔ list.length ≤ 10) ∧
    ∀ (text : String) (hardware : SpeedList) (speeds : List Speed),
      (read text).restrict hardware = .valid speeds ∧ speeds ≠ [] ↔
        read text = .valid speeds ∧ speeds ≠ [] ∧
          speeds.length ≤ hardware.length ∧ speeds ⊆ hardware.speeds := by
  refine ⟨read_eq_valid_iff_writes, read_eq_invalid_iff, read_text_iff, ?_⟩
  intro text hardware speeds
  rw [restrict_eq_valid_iff, and_assoc]
  refine and_congr_right fun _ => ⟨?_, ?_⟩
  · rintro ⟨empty | admitted, filled⟩
    · exact absurd empty filled
    · exact ⟨filled, admitted⟩
  · rintro ⟨filled, admitted⟩
    exact ⟨Or.inr admitted, filled⟩

-- Empty fields and leading zeros are read, and the eleventh entry is one too many.
example : read ",0100,,40000," = .valid [100, 40000] ∧
    read "1,1,1,1,1,1,1,1,1,1,1" = .invalid := by decide

end SpeedList

end LinkReconciler
