import LinkReconciler.Text.Numeral

/-!
The largest frame an interface carries.
-/

namespace LinkReconciler

inductive Mtu where
  | unset
  | value (bytes : UInt32)
  | invalid
deriving DecidableEq, Repr

namespace Mtu

def least : UInt32 := 576

def standard : UInt32 := 1500

def read (text : String) (limit : UInt32) : Mtu :=
  match Numeral.word? text.toList with
  | some bytes => if least ≤ bytes ∧ bytes ≤ limit then value bytes else invalid
  | none => invalid

/-- The size in effect: an unset size becomes the standard one. -/
def inEffect : Mtu → Mtu
  | unset => value standard
  | mtu => mtu

def value? : Mtu → Option UInt32
  | value bytes => some bytes
  | _ => none

def isInvalid (mtu : Mtu) : Bool :=
  mtu = invalid

def text : Mtu → String
  | unset => "unset"
  | value bytes => Numeral.ofWord bytes
  | invalid => "invalid"

end Mtu

end LinkReconciler
