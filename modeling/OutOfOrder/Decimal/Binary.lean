/-!
# Doubles as exact numbers

A finite double is a sign and a magnitude `mantissa * 2 ^ exponent`, read off its 64 bits. Decimal
text is then a matter of natural numbers.
-/

namespace OutOfOrder.Decimal

structure Binary where
  negative : Bool
  mantissa : Nat
  exponent : Int
deriving DecidableEq

namespace Binary

/-- The leading one of a mantissa, which has 53 bits with it. The bits of a double leave it out. -/
def leadingOne : Nat := 1 <<< 52

/-- The number in the bits of a finite double. Below the normal range the exponent stops falling
and the mantissa has no leading one. -/
def ofBits (bits : Nat) : Binary :=
  let fraction := bits % leadingOne
  let scale := bits / leadingOne % 2048
  let negative := (bits >>> 63) % 2 == 1
  if scale = 0 then ⟨negative, fraction, -1074⟩
  else ⟨negative, fraction + leadingOne, (scale : Int) - 1075⟩

def ofFloat (x : Float) : Binary := ofBits x.toBits.toNat

/-- The magnitude times `10 ^ shift` as a fraction, which need not be in lowest terms. -/
def scaled (b : Binary) (shift : Int) : Nat × Nat :=
  ((b.mantissa <<< b.exponent.toNat) * Nat.pow 10 shift.toNat,
    (1 <<< (-b.exponent).toNat) * Nat.pow 10 (-shift).toNat)

def sign (b : Binary) : String := if b.negative then "-" else ""

end Binary

end OutOfOrder.Decimal
