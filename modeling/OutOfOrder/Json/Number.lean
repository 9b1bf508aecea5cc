import OutOfOrder.Json.Reader

/-!
# Numbers in JSON text

A number without point and exponent is an integer as long as it fits a 64-bit word, signed or not;
all others are doubles, and so is minus zero. The double is found from the digits that fit an
unsigned word, times or divided by a power of ten.
-/

namespace OutOfOrder.Json

/-- A number as it is written. -/
structure Numeral where
  negative : Bool
  whole : List Nat
  fraction : Option (List Nat)
  exponent : Option (Bool × List Nat)

namespace Reader

def digits : Reader (List Nat) := do
  let text ← get
  set (text.dropWhile Char.isDigit)
  return (text.takeWhile Char.isDigit).map fun c => c.toNat - '0'.toNat

/-- At least one digit. What a text that ends here lacks depends on the place. -/
def someDigits (atEnd : Fault) : Reader (List Nat) := do
  match ← digits, ← peek with
  | [], none => fault atEnd
  | [], some _ => fault .invalidNumber
  | ds, _ => return ds

/-- A number. A zero at the front stands alone. -/
def numeral (atEnd : Fault) : Reader Numeral := do
  let negative ← accept (· == '-')
  let whole ← someDigits atEnd
  if whole.head? = some 0 ∧ whole ≠ [0] then fault .invalidNumber
  let fraction ←
    if ← accept (· == '.') then some <$> someDigits atEnd else pure none
  let exponent ←
    if ← accept (fun c => c == 'e' || c == 'E') then
      let down ← accept (· == '-')
      if !down then discard <| accept (· == '+')
      pure (some (down, ← someDigits atEnd))
    else pure none
  return ⟨negative, whole, fraction, exponent⟩

end Reader

/-! ## Values -/

inductive Number
  | integer (n : Int)
  | real (x : Float)

def Number.found : Number → Found
  | integer n => .integer n
  | real x => .real x

namespace Numeral

def ofDigits (ds : List Nat) : Nat := ds.foldl (fun n d => n * 10 + d) 0

/-- Appends digits to a number as long as it fits 64 bits, and counts those left over. -/
def appendDigits (n : Nat) : List Nat → Nat × Nat
  | [] => (n, 0)
  | d :: ds => if n * 10 + d < UInt64.size then appendDigits (n * 10 + d) ds else (n, ds.length + 1)

/-- A double times a power of ten, or nothing if it grows too large. The largest power of ten is
the 308th, so a smaller power than its inverse is taken in turns. -/
def scale (x : Float) (power : Int) : Option Float :=
  if power.natAbs ≤ 308 then
    let step := Float.ofScientific 1 false power.natAbs
    if 0 ≤ power then
      if (x * step).isInf then none else some (x * step)
    else some (x / step)
  else if x == 0 then some x
  else if 0 ≤ power then none
  else scale (x / Float.ofScientific 1 false 308) (power + 308)
termination_by power.natAbs

/-- A power that does not fit a signed 32-bit word leaves nothing of the digits, or too much. -/
def scaleFar (n : Nat) (down : Bool) : Option Float := if n ≠ 0 ∧ !down then none else some 0

def magnitude (t : Numeral) : Option Float :=
  let (n, dropped) := appendDigits 0 t.whole
  let fraction := t.fraction.getD []
  let (n, unread) := appendDigits n fraction
  let shift : Int := dropped - (fraction.length - unread : Nat)
  match t.exponent with
  | none => scale n.toUInt64.toFloat shift
  | some (down, ds) =>
    let power : Int := ofDigits ds
    if Int32.maxValue.toInt < power then scaleFar n down
    else scale n.toUInt64.toFloat (if down then shift - power else shift + power)

def value (t : Numeral) : Option Number :=
  let n : Int := ofDigits t.whole
  let fits := if t.negative then 0 < n ∧ Int64.minValue.toInt ≤ -n else n < UInt64.size
  if t.fraction.isNone ∧ t.exponent.isNone ∧ fits then
    some (.integer (if t.negative then -n else n))
  else t.magnitude.map fun x => .real (if t.negative then -x else x)

end Numeral

/-- A number with its value. -/
def Reader.number : Reader Number := do
  match (← numeral .endInValue).value with
  | some n => return n
  | none => fault .numberOutOfRange

end OutOfOrder.Json
