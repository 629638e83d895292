import LinkReconciler.Text.DoubleRange

/-!
Configuration texts made of tables and of keys with simple values (quoted texts,
whole numbers, decimals, truth values), one statement a line. A text is read into
statements, and the statements build up a tree of tables. A key or a table that is
defined twice makes the whole text unreadable, and so does a number out of range.
-/

namespace LinkReconciler.Toml

inductive Value where
  | text (content : String)
  | integer (value : Int)
  | decimal
  | bool (value : Bool)
deriving DecidableEq, Repr

inductive Statement where
  | table (path : List String)
  | assign (path : List String) (value : Value)
deriving DecidableEq, Repr

/-! ## Characters -/

def isBlank (c : Char) : Bool :=
  c = ' ' || c = '\t'

def skipBlanks (cs : List Char) : List Char :=
  cs.dropWhile isBlank

def isPlain (c : Char) : Bool :=
  c = '\t' || (' ' ≤ c && c ≠ '\x7f')

def isBareKey (c : Char) : Bool :=
  c.isAlphanum || c = '_' || c = '-'

/-- The lines of a text. A line ends at a line feed, a carriage return before
which belongs to the end. -/
def lines : List Char → List (List Char)
  | [] => [[]]
  | '\n' :: rest => [] :: lines rest
  | '\r' :: '\n' :: rest => [] :: lines rest
  | c :: rest =>
      match lines rest with
      | [] => [[c]]
      | line :: others => (c :: line) :: others

/-! ## Quoted texts -/

def hexDigit? (c : Char) : Option Nat :=
  if c.isDigit then some (c.toNat - '0'.toNat)
  else if 'a' ≤ c ∧ c ≤ 'f' then some (c.toNat - 'a'.toNat + 10)
  else if 'A' ≤ c ∧ c ≤ 'F' then some (c.toNat - 'A'.toNat + 10)
  else none

def scalar? (code : Nat) : Option Char :=
  if code.isValidChar then some (Char.ofNat code) else none

def escape? (c : Char) : Option Char :=
  if c = '"' ∨ c = '\\' then some c
  else if c = 'b' then some '\x08'
  else if c = 'e' then some '\x1b'
  else if c = 't' then some '\t'
  else if c = 'n' then some '\n'
  else if c = 'f' then some '\x0c'
  else if c = 'r' then some '\r'
  else none

inductive Mode where
  | plain
  | escaped
  | code (missing : Nat) (sofar : Nat)

def readBasic : Mode → List Char → Option (List Char × List Char)
  | _, [] => none
  | .plain, c :: rest =>
      if c = '"' then some ([], rest)
      else if c = '\\' then readBasic .escaped rest
      else if isPlain c then
        (readBasic .plain rest).map fun (text, rest) => (c :: text, rest)
      else none
  | .escaped, c :: rest =>
      if c = 'x' then readBasic (.code 2 0) rest
      else if c = 'u' then readBasic (.code 4 0) rest
      else if c = 'U' then readBasic (.code 8 0) rest
      else
        match escape? c with
        | some plain =>
            (readBasic .plain rest).map fun (text, rest) => (plain :: text, rest)
        | none => none
  | .code missing sofar, c :: rest =>
      match hexDigit? c with
      | some digit =>
          if missing ≤ 1 then
            match scalar? (16 * sofar + digit) with
            | some plain =>
                (readBasic .plain rest).map fun (text, rest) =>
                  (plain :: text, rest)
            | none => none
          else readBasic (.code (missing - 1) (16 * sofar + digit)) rest
      | none => none

def readLiteral (cs : List Char) : Option (List Char × List Char) :=
  let text := cs.takeWhile fun c => c ≠ '\'' && isPlain c
  match cs.drop text.length with
  | '\'' :: rest => some (text, rest)
  | _ => none

/-! ## Keys -/

def readPart : List Char → Option (String × List Char)
  | '"' :: rest =>
      (readBasic .plain rest).map fun (text, rest) => (String.ofList text, rest)
  | '\'' :: rest =>
      (readLiteral rest).map fun (text, rest) => (String.ofList text, rest)
  | cs =>
      let run := cs.takeWhile isBareKey
      if run.isEmpty then none
      else some (String.ofList run, cs.drop run.length)

def readKeyParts : Nat → List Char → Option (List String × List Char)
  | 0, _ => none
  | room + 1, cs =>
      match readPart (skipBlanks cs) with
      | some (part, rest) =>
          match skipBlanks rest with
          | '.' :: rest =>
              (readKeyParts room rest).map fun (parts, rest) =>
                (part :: parts, rest)
          | rest => some ([part], rest)
      | none => none

def maxKeyParts : Nat := 80

def readKey (cs : List Char) : Option (List String × List Char) :=
  readKeyParts maxKeyParts cs

/-! ## Numbers -/

def digits? (isDigit : Char → Bool) : List Char → Option (List Char)
  | [] => none
  | [c] => if isDigit c then some [c] else none
  | c :: '_' :: rest =>
      if isDigit c then (digits? isDigit rest).map (c :: ·) else none
  | c :: rest =>
      if isDigit c then (digits? isDigit rest).map (c :: ·) else none

def ofDigits (base : Nat) (digits : List Char) : Nat :=
  digits.foldl (fun number c => base * number + (hexDigit? c).getD 0) 0

def isBinary (c : Char) : Bool := c = '0' || c = '1'

def isOctal (c : Char) : Bool := '0' ≤ c && c ≤ '7'

def isHex (c : Char) : Bool := (hexDigit? c).isSome

/-- Decimal digits that do not start with a superfluous zero. -/
def whole? (run : List Char) : Option (List Char) :=
  (digits? Char.isDigit run).bind fun digits =>
    match digits with
    | '0' :: _ :: _ => none
    | digits => some digits

def natural? (run : List Char) : Option Nat :=
  match run with
  | '0' :: 'x' :: rest => (digits? isHex rest).map (ofDigits 16)
  | '0' :: 'o' :: rest => (digits? isOctal rest).map (ofDigits 8)
  | '0' :: 'b' :: rest => (digits? isBinary rest).map (ofDigits 2)
  | run => (whole? run).map (ofDigits 10)

def unsignedBase (run : List Char) : Bool :=
  match run with
  | '0' :: mark :: _ => mark ≠ 'x' && mark ≠ 'o' && mark ≠ 'b'
  | _ => true

def integer? (run : List Char) : Option Int :=
  match run with
  | '+' :: rest =>
      if unsignedBase rest then (natural? rest).map fun n => (n : Int) else none
  | '-' :: rest =>
      if unsignedBase rest then (natural? rest).map fun n => -(n : Int) else none
  | rest => (natural? rest).map fun n => (n : Int)

def unsigned (run : List Char) : List Char :=
  match run with
  | '+' :: rest => rest
  | '-' :: rest => rest
  | rest => rest

def exponent? (run : List Char) : Option Int :=
  match run with
  | [] => some 0
  | mark :: rest =>
      if mark = 'e' || mark = 'E' then
        (digits? Char.isDigit (unsigned rest)).map fun digits =>
          let size : Int := Nat.ofDigitChars 10 digits 0
          if rest.head? = some '-' then -size else size
      else none

/-- The digits of an unsigned number that may have a fraction and an exponent, and
the power of ten they are to be taken times. -/
def scientific? (run : List Char) : Option (List Char × Int) :=
  let isPart := fun c : Char => c.isDigit || c = '_'
  let whole := run.takeWhile isPart
  match run.drop whole.length with
  | '.' :: rest =>
      let fraction := rest.takeWhile isPart
      match whole? whole, digits? Char.isDigit fraction,
          exponent? (rest.drop fraction.length) with
      | some whole, some fraction, some exponent =>
          some (whole ++ fraction, exponent - fraction.length)
      | _, _, _ => none
  | tail =>
      match whole? whole, exponent? tail with
      | some whole, some exponent => some (whole, exponent)
      | _, _ => none

def isDecimal (run : List Char) : Bool :=
  let size := unsigned run
  size = ['i', 'n', 'f'] || size = ['n', 'a', 'n'] ||
    match scientific? size with
    | some (digits, exponent) => DoubleRange.holds digits exponent
    | none => false

/-- Whole numbers go up to 128 bits. -/
def inRange (value : Int) : Bool :=
  let half : Nat := 1 <<< 127
  value < half + half && -half ≤ value

def bareValue? (run : List Char) : Option Value :=
  if run = ['t', 'r', 'u', 'e'] then some (.bool true)
  else if run = ['f', 'a', 'l', 's', 'e'] then some (.bool false)
  else
    match integer? run with
    | some value => if inRange value then some (.integer value) else none
    | none => if isDecimal run then some .decimal else none

/-! ## Statements -/

def isBareValue (c : Char) : Bool :=
  c.isAlphanum || c = '_' || c = '-' || c = '+' || c = '.'

def readValue : List Char → Option (Value × List Char)
  | '"' :: rest =>
      (readBasic .plain rest).map fun (text, rest) =>
        (.text (String.ofList text), rest)
  | '\'' :: rest =>
      (readLiteral rest).map fun (text, rest) =>
        (.text (String.ofList text), rest)
  | cs =>
      let run := cs.takeWhile isBareValue
      (bareValue? run).map fun value => (value, cs.drop run.length)

def isEnd (cs : List Char) : Bool :=
  match skipBlanks cs with
  | [] => true
  | c :: rest => c = '#' && rest.all isPlain

def readLine (line : List Char) : Option (List Statement) :=
  if isEnd line then some []
  else
    match skipBlanks line with
    | '[' :: rest =>
        match readKey rest with
        | some (path, ']' :: rest) =>
            if isEnd rest then some [.table path] else none
        | _ => none
    | rest =>
        match readKey rest with
        | some (path, '=' :: rest) =>
            match readValue (skipBlanks rest) with
            | some (value, rest) =>
                if isEnd rest then some [.assign path value] else none
            | none => none
        | _ => none

def statements? (text : String) : Option (List Statement) :=
  let cs := match text.toList with
    | '\ufeff' :: rest => rest
    | cs => cs
  ((lines cs).mapM readLine).map List.flatten

/-! ## Tables -/

/-- How a table came to be: on the way to another, by its own header, or by a key
with dots. Only the first kind may still get a header. -/
inductive Origin where
  | implied
  | header
  | dotted
deriving DecidableEq, Repr

inductive Node where
  | value (value : Value)
  | table (origin : Origin) (entries : List (String × Node))

abbrev Entries := List (String × Node)

def put (entries : Entries) (key : String) (node : Node) : Entries :=
  match entries with
  | [] => [(key, node)]
  | (name, old) :: rest =>
      if name = key then (key, node) :: rest else (name, old) :: put rest key node

def openTable : List String → Entries → Option Entries
  | [], _ => none
  | [key], entries =>
      match entries.lookup key with
      | none => some (put entries key (.table .header []))
      | some (.table .implied inner) =>
          some (put entries key (.table .header inner))
      | some _ => none
  | key :: rest, entries =>
      match entries.lookup key with
      | none =>
          (openTable rest []).map fun inner =>
            put entries key (.table .implied inner)
      | some (.table origin inner) =>
          (openTable rest inner).map fun inner =>
            put entries key (.table origin inner)
      | some (.value _) => none

/-- Gives a key of the open table its value. A key with dots may lead through a
table that is only implied, but adds nothing to that table itself. -/
def assign (value : Value) : List String → Entries → Option Entries
  | [], _ => none
  | [key], entries =>
      match entries.lookup key with
      | none => some (put entries key (.value value))
      | some _ => none
  | key :: rest, entries =>
      match entries.lookup key with
      | none =>
          (assign value rest []).map fun inner =>
            put entries key (.table .dotted inner)
      | some (.table .dotted inner) =>
          (assign value rest inner).map fun inner =>
            put entries key (.table .dotted inner)
      | some (.table .implied inner) =>
          if rest.length = 1 then none
          else
            (assign value rest inner).map fun inner =>
              put entries key (.table .implied inner)
      -- A table with a header of its own takes no keys from outside.
      | some (.table .header _) => none
      | some (.value _) => none

def within (change : Entries → Option Entries) :
    List String → Entries → Option Entries
  | [], entries => change entries
  | key :: rest, entries =>
      match entries.lookup key with
      | some (.table origin inner) =>
          (within change rest inner).map fun inner =>
            put entries key (.table origin inner)
      | _ => none

def build : List String → List Statement → Entries → Option Entries
  | _, [], entries => some entries
  | _, .table path :: rest, entries =>
      (openTable path entries).bind (build path rest)
  | current, .assign path value :: rest, entries =>
      (within (assign value path) current entries).bind (build current rest)

def read? (text : String) : Option Entries :=
  (statements? text).bind fun statements => build [] statements []

end LinkReconciler.Toml
