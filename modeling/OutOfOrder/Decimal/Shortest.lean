import OutOfOrder.Decimal.Binary

/-!
# Shortest decimal text of a double

The fewest digits that no other double is nearer to, and among those the ones nearest to the value.
The doubles nearest to a number are found by the interval half way to both neighbours; its ends
belong to it when the mantissa is even.
-/

namespace OutOfOrder.Decimal

/-- Four times a magnitude and the ends of its interval, in units of a quarter of its last bit. -/
structure Interval where
  low : Nat
  value : Nat
  high : Nat
  closed : Bool
  exponent : Int

/-- The step down is half as wide below a power of two. -/
def Binary.interval (b : Binary) : Interval :=
  let down := if b.mantissa = leadingOne ∧ -1074 < b.exponent then 1 else 2
  ⟨4 * b.mantissa - down, 4 * b.mantissa, 4 * b.mantissa + 2, b.mantissa % 2 = 0, b.exponent - 2⟩

/-- Digits and the power of ten of the last one. -/
structure Digits where
  number : Nat
  power : Int

/-- Whether `n * 10 ^ power` lies in the interval. -/
def Interval.contains (i : Interval) (n : Nat) (power : Int) : Bool :=
  let left := (n <<< (-i.exponent).toNat) * Nat.pow 10 power.toNat
  let unit := (1 <<< i.exponent.toNat) * Nat.pow 10 (-power).toNat
  if i.closed then i.low * unit ≤ left && left ≤ i.high * unit
  else i.low * unit < left && left < i.high * unit

/-- The neighbour of the value on the grid of multiples of `10 ^ power` that lies in the interval,
the nearer one if both do, and the even one if both are as near. -/
def Interval.onGrid? (i : Interval) (power : Int) : Option Digits :=
  let num := (i.value <<< i.exponent.toNat) * Nat.pow 10 (-power).toNat
  let den := (1 <<< (-i.exponent).toNat) * Nat.pow 10 power.toNat
  let below := num / den
  let twice := 2 * (num % den)
  let nearBelow := twice < den || twice == den && below % 2 == 0
  match i.contains below power, i.contains (below + 1) power with
  | false, false => none
  | true, false => some ⟨below, power⟩
  | false, true => some ⟨below + 1, power⟩
  | true, true => some ⟨if nearBelow then below else below + 1, power⟩

/-- Tries ever finer grids, the coarsest of them first. -/
def Interval.search (i : Interval) (power : Int) : Nat → Digits
  | 0 => ⟨0, 0⟩
  | tries + 1 => (i.onGrid? power).getD (i.search (power - 1) tries)

/-- The shortest digits of a positive magnitude. No double reaches `10 ^ 309`, and none needs a
grid finer than `10 ^ -342`. -/
def Binary.shortest (b : Binary) : Digits := b.interval.search 309 660

/-! ## Text -/

/-- Where positional writing ends: a point is set for values below `10 ^ 16` and not below
`10 ^ -5`; other values carry a signed exponent. -/
def Digits.text (d : Digits) : String :=
  let digits := Nat.toDigits 10 d.number
  let point := digits.length + d.power
  let text := String.ofList
  if 0 ≤ d.power ∧ point ≤ 16 then text (digits ++ List.replicate d.power.toNat '0') ++ ".0"
  else if 0 < point ∧ point ≤ 16 then
    text (digits.take point.toNat) ++ "." ++ text (digits.drop point.toNat)
  else if -5 < point ∧ point ≤ 0 then
    "0." ++ text (List.replicate (-point).toNat '0' ++ digits)
  else
    let fraction := if digits.length ≤ 1 then "" else "." ++ text (digits.drop 1)
    let exponent := point - 1
    text (digits.take 1) ++ fraction ++ "e" ++ (if 0 ≤ exponent then "+" else "") ++
      toString exponent

def shortest (x : Float) : String :=
  let b := Binary.ofFloat x
  b.sign ++ if b.mantissa = 0 then "0.0" else b.shortest.text

end OutOfOrder.Decimal
