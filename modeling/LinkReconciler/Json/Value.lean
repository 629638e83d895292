/-!
JSON texts. A text is first cut into tokens and the tokens are then read as one
value. Objects keep their members in order, repeated keys included; what a
repetition means is for the reader of the value to say.
-/

namespace LinkReconciler

/-- The content of a written text, or nothing where an escape stands for half of a
surrogate pair: such a text is well written but has no characters. -/
abbrev JsonText := Option String

inductive Json where
  | null
  | bool (value : Bool)
  | integer (value : Int)
  /-- A number with a fraction or an exponent, or a negative zero. -/
  | decimal
  | text (content : JsonText)
  | array (elements : List Json)
  | object (members : List (JsonText × Json))

namespace Json

/-! ## Tokens -/

inductive Token where
  | openArray
  | closeArray
  | openObject
  | closeObject
  | comma
  | colon
  | null
  | bool (value : Bool)
  | integer (value : Int)
  | decimal
  | text (content : JsonText)
deriving DecidableEq

def isBlank (c : Char) : Bool :=
  c = ' ' || c = '\n' || c = '\t' || c = '\r'

def isBare (c : Char) : Bool :=
  c.isAlphanum || c = '+' || c = '-' || c = '.'

def punctuation? (c : Char) : Option Token :=
  if c = '[' then some .openArray
  else if c = ']' then some .closeArray
  else if c = '{' then some .openObject
  else if c = '}' then some .closeObject
  else if c = ',' then some .comma
  else if c = ':' then some .colon
  else none

def characters? : List Nat → Option (List Char)
  | [] => some []
  | high :: low :: rest =>
      if 0xD800 ≤ high ∧ high < 0xDC00 ∧ 0xDC00 ≤ low ∧ low < 0xE000 then
        (characters? rest).map
          (Char.ofNat (0x10000 + (high - 0xD800) * 0x400 + (low - 0xDC00)) :: ·)
      else if 0xD800 ≤ high ∧ high < 0xE000 then none
      else (characters? (low :: rest)).map (Char.ofNat high :: ·)
  | [unit] =>
      if 0xD800 ≤ unit ∧ unit < 0xE000 then none else some [Char.ofNat unit]

/-- Digits that start no number by a superfluous zero. -/
def isWhole (digits : List Char) : Bool :=
  match digits with
  | [] => false
  | ['0'] => true
  | first :: rest => first.isDigit && first ≠ '0' && rest.all Char.isDigit

def isExponent : List Char → Bool
  | [] => true
  | mark :: rest =>
      let digits := match rest with
        | '+' :: digits => digits
        | '-' :: digits => digits
        | digits => digits
      (mark = 'e' || mark = 'E') && !digits.isEmpty && digits.all Char.isDigit

def isTail : List Char → Bool
  | '.' :: rest =>
      let digits := rest.takeWhile Char.isDigit
      !digits.isEmpty && isExponent (rest.drop digits.length)
  | rest => isExponent rest

def number? (run : List Char) : Option Token :=
  let (negative, unsigned) := match run with
    | '-' :: rest => (true, rest)
    | rest => (false, rest)
  let digits := unsigned.takeWhile Char.isDigit
  let tail := unsigned.drop digits.length
  if isWhole digits && isTail tail then
    let size : Nat := Nat.ofDigitChars 10 digits 0
    if !tail.isEmpty || (negative && size = 0) then some .decimal
    else some (.integer (if negative then -(size : Int) else size))
  else none

def bareToken? (run : List Char) : Option Token :=
  match String.ofList run with
  | "null" => some .null
  | "true" => some (.bool true)
  | "false" => some (.bool false)
  | _ => number? run

/-- Where a scan stands. Runs are gathered backwards. -/
inductive Mode where
  | between
  | bare (run : List Char)
  | quoted (units : List Nat)
  | escaped (units : List Nat)
  | hex (units : List Nat) (missing : Nat) (sofar : Nat)

def start? (c : Char) : Option (List Token × Mode) :=
  if isBlank c then some ([], .between)
  else if c = '"' then some ([], .quoted [])
  else if isBare c then some ([], .bare [c])
  else (punctuation? c).map fun token => ([token], .between)

def hexDigit? (c : Char) : Option Nat :=
  if c.isDigit then some (c.toNat - '0'.toNat)
  else if 'a' ≤ c ∧ c ≤ 'f' then some (c.toNat - 'a'.toNat + 10)
  else if 'A' ≤ c ∧ c ≤ 'F' then some (c.toNat - 'A'.toNat + 10)
  else none

def escape? (c : Char) : Option Char :=
  if c = '"' ∨ c = '\\' ∨ c = '/' then some c
  else if c = 'b' then some '\x08'
  else if c = 'f' then some '\x0c'
  else if c = 'n' then some '\n'
  else if c = 'r' then some '\r'
  else if c = 't' then some '\t'
  else none

/-- One character of a scan: the tokens it completes and where it leads. -/
def advance? (mode : Mode) (c : Char) : Option (List Token × Mode) :=
  match mode with
  | .between => start? c
  | .bare run =>
      if isBare c then some ([], .bare (c :: run))
      -- The character that ends a run belongs to what follows it.
      else (bareToken? run.reverse).bind fun token =>
        (start? c).map fun (tokens, mode) => (token :: tokens, mode)
  | .quoted units =>
      if c = '"' then
        some ([.text ((characters? units.reverse).map String.ofList)], .between)
      else if c = '\\' then some ([], .escaped units)
      else if c < ' ' then none
      else some ([], .quoted (c.toNat :: units))
  | .escaped units =>
      if c = 'u' then some ([], .hex units 4 0)
      else (escape? c).map fun plain => ([], .quoted (plain.toNat :: units))
  | .hex units missing sofar =>
      (hexDigit? c).map fun digit =>
        let number := 16 * sofar + digit
        if missing ≤ 1 then ([], .quoted (number :: units))
        else ([], .hex units (missing - 1) number)

def scan : Mode → List Char → Option (List Token)
  | .between, [] => some []
  | .bare run, [] => (bareToken? run.reverse).map fun token => [token]
  | _, [] => none
  | mode, c :: rest =>
      match advance? mode c with
      | some (tokens, next) => (scan next rest).map (tokens ++ ·)
      | none => none

/-! ## Values -/

mutual

/-- Reads one value from the front of the tokens. The fuel bounds the number of
steps and is more than enough where it exceeds twice the number of tokens. -/
def readValue : Nat → List Token → Option (Json × List Token)
  | fuel + 1, token :: rest =>
      match token with
      | .null => some (.null, rest)
      | .bool value => some (.bool value, rest)
      | .integer value => some (.integer value, rest)
      | .decimal => some (.decimal, rest)
      | .text content => some (.text content, rest)
      | .openArray =>
          match rest with
          | .closeArray :: rest => some (.array [], rest)
          | rest =>
              (readElements fuel rest).map fun (elements, rest) =>
                (.array elements, rest)
      | .openObject =>
          match rest with
          | .closeObject :: rest => some (.object [], rest)
          | rest =>
              (readMembers fuel rest).map fun (members, rest) =>
                (.object members, rest)
      | _ => none
  | _, _ => none

def readElements : Nat → List Token → Option (List Json × List Token)
  | fuel + 1, tokens =>
      match readValue fuel tokens with
      | some (value, .comma :: rest) =>
          (readElements fuel rest).map fun (others, rest) =>
            (value :: others, rest)
      | some (value, .closeArray :: rest) => some ([value], rest)
      | _ => none
  | 0, _ => none

def readMembers :
    Nat → List Token → Option (List (JsonText × Json) × List Token)
  | fuel + 1, .text key :: .colon :: tokens =>
      match readValue fuel tokens with
      | some (value, .comma :: rest) =>
          (readMembers fuel rest).map fun (others, rest) =>
            ((key, value) :: others, rest)
      | some (value, .closeObject :: rest) => some ([(key, value)], rest)
      | _ => none
  | _, _ => none

end

def read? (text : String) : Option Json :=
  match scan .between text.toList with
  | some tokens =>
      match readValue (2 * tokens.length + 1) tokens with
      | some (value, []) => some value
      | _ => none
  | none => none

end Json

end LinkReconciler
