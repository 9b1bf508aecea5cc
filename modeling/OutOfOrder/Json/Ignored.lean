import OutOfOrder.Json.Number
import OutOfOrder.Json.String

/-!
# Passing over a value

A value that nobody asked for must still be sound JSON, but only in its form: numbers may have any
size, escapes need not pair up, and arrays and objects may be nested as deep as the text goes.
-/

namespace OutOfOrder.Json.Reader

/-- What is open around the place of reading, the innermost first. -/
inductive Enclosure
  | array
  | object
deriving DecidableEq

def Enclosure.closing : Enclosure → Char
  | array => ']'
  | object => '\x7d'

/-- A key with its colon. -/
def ignoreKey : Reader Unit := do
  match ← next with
  | none => fault .endInObject
  | some '"' =>
    discard <| string false
    colon
  | some _ => fault .keyNotString

/-- A value that is neither array nor object. -/
def ignoreScalar (c : Char) : Reader Unit := do
  match c with
  | 'n' => word "null".toList
  | 't' => word "true".toList
  | 'f' => word "false".toList
  | '"' => discard <| string false
  | c =>
    if c == '-' || c.isDigit then discard <| numeral .invalidNumber
    else fault .expectedValue

/-- Where the next turn goes on: before a value, just inside an opening mark, or after a value. -/
inductive Place
  | value
  | opened
  | after

def ignoreFrom (place : Place) (open_ : List Enclosure) : Nat → Reader Unit
  | 0 => return
  | turns + 1 => do
    match place, open_ with
    | .after, [] => return
    | .value, _ =>
      match ← next with
      | none => fault .endInValue
      | some '[' =>
        advance
        ignoreFrom .opened (.array :: open_) turns
      | some '\x7b' =>
        advance
        ignoreFrom .opened (.object :: open_) turns
      | some c =>
        ignoreScalar c
        ignoreFrom .after open_ turns
    | .opened, [] => return
    | place, e :: outer =>
      match ← next with
      | none => fault (if e = .array then .endInArray else .endInObject)
      | some c =>
        if c = e.closing then
          advance
          ignoreFrom .after outer turns
        else
          if place matches .after then
            if c ≠ ',' then
              fault (if e = .array then .expectedArrayComma else .expectedObjectComma)
            advance
          if e = .object then ignoreKey
          ignoreFrom .value open_ turns

/-- Passes over one value. Each character is met in at most two turns. -/
def ignored : Reader Unit := do ignoreFrom .value [] (2 * (← turns))

end OutOfOrder.Json.Reader
