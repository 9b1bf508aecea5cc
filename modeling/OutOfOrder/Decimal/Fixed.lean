import OutOfOrder.Decimal.Binary

/-!
# A fixed number of decimal places

The exact value of a double, rounded to so many places; a value half way between two goes to the
even one.
-/

namespace OutOfOrder.Decimal

/-- The quotient rounded to the nearest whole number, a half to the even neighbour. -/
def roundDiv (num den : Nat) : Nat :=
  let q := num / den
  let twice := 2 * (num % den)
  if twice < den ∨ twice = den ∧ q % 2 = 0 then q else q + 1

/-- A whole number of units in the last of so many places. -/
def placesText (places n : Nat) : String :=
  let digits := (Nat.toDigits 10 n).leftpad (places + 1) '0'
  let whole := digits.length - places
  String.ofList (digits.take whole) ++ "." ++ String.ofList (digits.drop whole)

/-- A finite double to a positive number of places. -/
def fixed (places : Nat) (x : Float) : String :=
  let b := Binary.ofFloat x
  let (num, den) := b.scaled places
  b.sign ++ placesText places (roundDiv num den)

end OutOfOrder.Decimal
