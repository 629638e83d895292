/-!
Hexadecimal numbers with a leading `0x`, filled with zeros to a least number of
digits.
-/

namespace LinkReconciler.Hexadecimal

def fill (least : Nat) (digits : List Char) : List Char :=
  List.replicate (least - digits.length) '0' ++ digits

def write (least : Nat) (number : Nat) : String :=
  String.ofList ('0' :: 'x' :: fill least (Nat.toDigits 16 number))

end LinkReconciler.Hexadecimal
