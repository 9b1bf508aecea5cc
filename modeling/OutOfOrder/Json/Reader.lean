import OutOfOrder.Json.Error

/-!
# Reading JSON text

A reader takes characters off the front of the text. It also knows a bound on the turns that any
loop can make while each turn takes a character. This module has what every shape is made of:
blanks, words, and the marks that open, part and close arrays and objects.
-/

namespace OutOfOrder.Json

abbrev Reader := ReaderT Nat (StateT (List Char) (Except Error))

def fault {α : Type} (f : Fault) : Reader α := throw (.fault f)

def mismatch {α : Type} (m : Mismatch) : Reader α := throw (.mismatch m)

namespace Reader

variable {α : Type}

def peek : Reader (Option Char) := return (← get).head?

def advance : Reader Unit := modify List.tail

/-- The next character, taken off. -/
def take : Reader (Option Char) := do
  let c ← peek
  advance
  return c

/-- Takes the next character off if it passes the test. -/
def accept (test : Char → Bool) : Reader Bool := do
  let ok := (← peek).any test
  if ok then advance
  return ok

/-- A blank is a space, a tab, a line feed or a carriage return. -/
def isBlank (c : Char) : Bool := c == ' ' || c == '\t' || c == '\n' || c == '\r'

/-- The next character after blanks. -/
def next : Reader (Option Char) := do
  modify (·.dropWhile isBlank)
  peek

/-- As many turns of a loop as can take a character each, and one for the end. -/
def turns : Reader Nat := read

/-- The letters of a word, one after the other. -/
def word : List Char → Reader Unit
  | [] => return
  | c :: rest => do
    match ← take with
    | none => fault .endInValue
    | some d => if d = c then word rest else fault .expectedWord

/-! ## Arrays -/

/-- Whether an array goes on. Takes the comma off, but not the closing bracket. -/
def hasItem (first : Bool) : Reader Bool := do
  match ← next with
  | none => fault .endInArray
  | some ']' => return false
  | some c =>
    if first then return true
    if c ≠ ',' then fault .expectedArrayComma
    advance
    match ← next with
    | none => fault .endInValue
    | some ']' => fault .trailingComma
    | some _ => return true

/-- The closing bracket of an array of which nothing more is wanted. -/
def closeArray : Reader Unit := do
  match ← next with
  | none => fault .endInArray
  | some ']' => advance
  | some ',' =>
    advance
    if (← next) = some ']' then fault .trailingComma
    fault .trailingCharacters
  | some _ => fault .trailingCharacters

/-- The items from here on, after those read before, the latest of which comes first. -/
def itemsFrom (item : Reader α) (before : List α) : Nat → Reader (List α)
  | 0 => return before.reverse
  | turns + 1 => do
    let before := (← item) :: before
    if ← hasItem false then itemsFrom item before turns
    else
      closeArray
      return before.reverse

/-- The items of an array, after its opening bracket. -/
def items (item : Reader α) : Reader (List α) := do
  if ← hasItem true then itemsFrom item [] (← turns)
  else
    closeArray
    return []

/-! ## Objects -/

/-- Whether an object goes on. Takes the comma off, but neither the quote of the next key nor the
closing brace. -/
def hasKey (first : Bool) : Reader Bool := do
  match ← next with
  | none => fault .endInObject
  | some '\x7d' => return false
  | some c =>
    if first then
      if c = '"' then return true
      fault .keyNotString
    if c ≠ ',' then fault .expectedObjectComma
    advance
    match ← next with
    | none => fault .endInValue
    | some '"' => return true
    | some '\x7d' => fault .trailingComma
    | some _ => fault .keyNotString

def colon : Reader Unit := do
  match ← next with
  | none => fault .endInObject
  | some ':' => advance
  | some _ => fault .expectedColon

/-! ## Whole texts -/

/-- Reads a text to its end. -/
def document (r : Reader α) (text : String) : Except Error α :=
  let whole : Reader α := do
    let x ← r
    if (← next).isSome then fault .trailingCharacters
    return x
  (whole.run (text.length + 1)).run' text.toList

end Reader

end OutOfOrder.Json
