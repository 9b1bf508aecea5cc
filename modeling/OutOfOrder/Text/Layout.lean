/-!
# Laying text out

Columns of a fixed width, and hexadecimal numbers with a least number of digits.
-/

namespace OutOfOrder.Text

/-- Fills up with blanks on the right. -/
def padRight (width : Nat) (s : String) : String := String.ofList (s.toList.rightpad width ' ')

/-- Fills up with blanks on the left. -/
def padLeft (width : Nat) (s : String) : String := String.ofList (s.toList.leftpad width ' ')

/-- A number in hexadecimal, with at least `width` digits. -/
def hex (width n : Nat) : String :=
  "0x" ++ String.ofList ((Nat.toDigits 16 n).leftpad width '0')

/-- Lines, each closed by a line feed. -/
def lines (ls : List String) : String := String.join (ls.map (· ++ "\n"))

end OutOfOrder.Text
