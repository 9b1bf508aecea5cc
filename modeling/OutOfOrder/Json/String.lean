import OutOfOrder.Json.Reader

/-!
# Strings in JSON text

Escapes name a UTF-16 unit by four hexadecimal digits, and a character beyond the first plane by
two of them. Where the string is read for its contents, the units must pair up; where it is only
passed over, they need not.
-/

namespace OutOfOrder.Json.Reader

def hexDigit? (c : Char) : Option Nat :=
  if c.isDigit then some (c.toNat - '0'.toNat)
  else if 'a' ≤ c ∧ c ≤ 'f' then some (c.toNat - 'a'.toNat + 10)
  else if 'A' ≤ c ∧ c ≤ 'F' then some (c.toNat - 'A'.toNat + 10)
  else none

/-- Four hexadecimal digits. A text with fewer than four bytes left has ended too early. -/
def unit : Reader Nat := do
  let text ← get
  match (text.take 4).mapM hexDigit? with
  | some [a, b, c, d] =>
    set (text.drop 4)
    return ((a * 16 + b) * 16 + c) * 16 + d
  | _ =>
    if (String.ofList (text.take 4)).utf8ByteSize < 4 then fault .endInString else fault .invalidEscape

def isLeading (n : Nat) : Bool := 0xD800 ≤ n && n < 0xDC00

def isTrailing (n : Nat) : Bool := 0xDC00 ≤ n && n < 0xE000

def pair (leading trailing : Nat) : Char :=
  Char.ofNat (0x10000 + (leading - 0xD800) * 0x400 + (trailing - 0xDC00))

/-- One character of the escape that has to go on here. -/
def escapeGoesOn (c : Char) : Reader Unit := do
  match ← take with
  | none => fault .endInString
  | some d => if d ≠ c then fault .endOfEscape

/-- The character named by the units of an escape, after `\u`. -/
def paired : Reader Char := do
  let n ← unit
  if isTrailing n then fault .loneSurrogate
  if isLeading n then
    escapeGoesOn '\\'
    escapeGoesOn 'u'
    let m ← unit
    if isTrailing m then return pair n m
    fault .loneSurrogate
  return Char.ofNat n

/-- An escape after its backslash. -/
def escape (strict : Bool) : Reader Char := do
  match ← take with
  | none => fault .endInString
  | some '"' => return '"'
  | some '\\' => return '\\'
  | some '/' => return '/'
  | some 'b' => return '\x08'
  | some 'f' => return '\x0c'
  | some 'n' => return '\n'
  | some 'r' => return '\r'
  | some 't' => return '\t'
  | some 'u' => if strict then paired else return Char.ofNat (← unit)
  | some _ => fault .invalidEscape

/-- The rest of a string, after the characters read before, the latest of which comes first. -/
def stringFrom (strict : Bool) (before : List Char) : Nat → Reader String
  | 0 => fault .endInString
  | turns + 1 => do
    match ← take with
    | none => fault .endInString
    | some '"' => return String.ofList before.reverse
    | some '\\' => stringFrom strict ((← escape strict) :: before) turns
    | some c =>
      if c.toNat < 0x20 then fault .controlCharacter
      else stringFrom strict (c :: before) turns

/-- A string, from its opening quote on. -/
def string (strict : Bool) : Reader String := do
  advance
  stringFrom strict [] (← turns)

end OutOfOrder.Json.Reader
