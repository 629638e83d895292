import LinkReconciler.Text.Numeral

/-!
Lists of link speeds in Mb/s, written with commas between them. A list that
could not be read, or was refused, is kept as the value `invalid`.
-/

namespace LinkReconciler

abbrev Speed := UInt32

inductive SpeedList where
  | valid (speeds : List Speed)
  | invalid
deriving DecidableEq, Repr

namespace SpeedList

def maxEntries : Nat := 10

def speeds? : SpeedList → Option (List Speed)
  | valid speeds => some speeds
  | invalid => none

def speeds (list : SpeedList) : List Speed :=
  list.speeds?.getD []

def isInvalid (list : SpeedList) : Bool :=
  list = invalid

def isEmpty (list : SpeedList) : Bool :=
  list = valid []

def length (list : SpeedList) : Nat :=
  list.speeds.length

def first? (list : SpeedList) : Option Speed :=
  list.speeds.head?

def highest? (list : SpeedList) : Option Speed :=
  list.speeds.max?

/-! ## Written lists -/

def fields : List Char → List (List Char)
  | [] => [[]]
  | c :: rest =>
      if c = ',' then [] :: fields rest
      else match fields rest with
        | [] => [[c]]
        | field :: others => (c :: field) :: others

/-- The texts between the commas that are not empty. -/
def tokens (text : List Char) : List (List Char) :=
  (fields text).filter fun field => !field.isEmpty

/-- Reads at most `room` numerals. -/
def readTokens : Nat → List (List Char) → Option (List Speed)
  | _, [] => some []
  | 0, _ :: _ => none
  | room + 1, token :: rest =>
      match Numeral.word? token with
      | some speed => (readTokens room rest).map (speed :: ·)
      | none => none

def read (text : String) : SpeedList :=
  match readTokens maxEntries (tokens text.toList) with
  | some speeds => valid speeds
  | none => invalid

def text : SpeedList → String
  | valid speeds => ",".intercalate (speeds.map Numeral.ofWord)
  | invalid => "invalid"

/-- Holds a user's list against the speeds of the hardware: it may not be longer
and may name no other speed. An empty list is accepted as it is. -/
def restrict (user hardware : SpeedList) : SpeedList :=
  match user with
  | invalid => invalid
  | valid [] => valid []
  | valid speeds =>
      if speeds.length ≤ hardware.length ∧ speeds ⊆ hardware.speeds then valid speeds
      else invalid

end SpeedList

end LinkReconciler
