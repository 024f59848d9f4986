import Mathlib.Algebra.Order.Ring.Int

/-!
# Texts

A text is the list of its characters.  `decimal` writes a number and `readNat` reads one below a
bound; `utf8` are the bytes of a string.
-/

namespace Argmin

abbrev Text := List Char

instance : Coe String Text := ⟨String.toList⟩

namespace Text

/-- The decimal numeral of a number. -/
def decimal (n : Nat) : Text := Nat.toDigits 10 n

/-- Read a decimal numeral below `bound`.  One leading plus sign is accepted. -/
def readNat (bound : Nat) (t : Text) : Option Nat :=
  let digits := match t with
    | '+' :: rest => rest
    | _ => t
  if digits ≠ [] ∧ digits.all Char.isDigit then
    let n := Nat.ofDigitChars 10 digits 0
    if n < bound then some n else none
  else none

/-- The bytes of a string. -/
def utf8 (s : String) : List UInt8 := s.toByteArray.data.toList

end Text

end Argmin
