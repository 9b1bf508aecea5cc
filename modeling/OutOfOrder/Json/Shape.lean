import OutOfOrder.Json.Ignored

/-!
# Reading values of a known shape

Each reader here asks for one kind of value and says what it found instead. A record may be written
as an object, with its fields in any order, or as an array of its fields in their own order, which
may stop early.
-/

namespace OutOfOrder.Json.Reader

variable {α σ : Type}

/-! ## Single values -/

/-- Reads as much of a value as it takes to say what it is. -/
def found : Reader Found := do
  match ← peek with
  | none => fault .endInValue
  | some 'n' =>
    word "null".toList
    return .null
  | some 't' =>
    word "true".toList
    return .boolean true
  | some 'f' =>
    word "false".toList
    return .boolean false
  | some '"' => return .string (← string true)
  | some '[' => return .array
  | some '\x7b' => return .object
  | some c =>
    if c == '-' || c.isDigit then return (← number).found
    else fault .expectedValue

def wrongType (expected : String) : Reader α := do
  let f ← found
  mismatch (.wrongType f expected)

/-- The next character, which has to be there. -/
def valueStart : Reader Char := do
  match ← next with
  | none => fault .endInValue
  | some c => return c

def boolean : Reader Bool := do
  match ← valueStart with
  | 't' =>
    word "true".toList
    return true
  | 'f' =>
    word "false".toList
    return false
  | _ => wrongType "a boolean"

/-- An integer from `low` to `high`. -/
def integer (type : String) (low high : Int) : Reader Int := do
  let c ← valueStart
  if c == '-' || c.isDigit then
    match ← number with
    | .integer n =>
      if low ≤ n ∧ n ≤ high then return n
      mismatch (.outOfRange n type)
    | .real x => mismatch (.wrongType (.real x) type)
  else wrongType type

/-- An unsigned integer of so many bits. -/
def unsigned (type : String) (bits : Nat) : Reader Nat :=
  Int.toNat <$> integer type 0 ((1 <<< bits) - 1 : Nat)

/-- A value that may be null instead. -/
def optional (r : Reader α) : Reader (Option α) := do
  if (← next) = some 'n' then
    word "null".toList
    return none
  some <$> r

def array (item : Reader α) : Reader (List α) := do
  match ← valueStart with
  | '[' =>
    advance
    items item
  | _ => wrongType "a sequence"

/-! ## Records -/

/-- A field, and what reading it does to the record so far. -/
structure Field (σ : Type) where
  name : String
  required : Bool
  read : σ → Reader σ

/-- A record may refuse fields that it does not know or pass over them. -/
structure Shape (σ : Type) where
  name : String
  fields : List (Field σ)
  strict : Bool

namespace Shape

/-- The fields that are left, from an array, after so many others. -/
def positional (shape : Shape σ) (s : σ) (count : Nat) : List (Field σ) → Reader σ
  | [] => do
    closeArray
    return s
  | f :: rest => do
    if ← hasItem (count = 0) then shape.positional (← f.read s) (count + 1) rest
    else if f.required then
      mismatch (.tooShort count shape.name shape.fields.length)
    else shape.positional s count rest

/-- The fields that are left, from an object, after those with the names seen. -/
def named (shape : Shape σ) (s : σ) (first : Bool) (seen : List String) : Nat → Reader σ
  | 0 => return s
  | turns + 1 => do
    if ← hasKey first then
      let key ← string true
      match shape.fields.find? (·.name = key) with
      | some f =>
        if key ∈ seen then mismatch (.duplicateField key)
        colon
        shape.named (← f.read s) false (key :: seen) turns
      | none =>
        if shape.strict then mismatch (.unknownField key (shape.fields.map (·.name)))
        colon
        ignored
        shape.named s false seen turns
    else
      match shape.fields.find? fun f => f.required && !seen.contains f.name with
      | some f => mismatch (.missingField f.name)
      | none =>
        advance
        return s

/-- Reads a record, starting from the values that its fields have when they are left out. -/
def read (shape : Shape σ) (s : σ) : Reader σ := do
  match ← valueStart with
  | '[' =>
    advance
    shape.positional s 0 shape.fields
  | '\x7b' =>
    advance
    shape.named s true [] (← turns)
  | _ => wrongType s!"struct {shape.name}"

end Shape

/-! ## Alternatives -/

/-- The key of an object that has to have one, after the opening brace. -/
def onlyKey : Reader String := do
  match ← next with
  | none => fault .endInObject
  | some '"' => string true
  | some '\x7d' => fault .expectedValue
  | some _ => fault .keyNotString

/-- An object with one key, which names the alternative. -/
def variant (alternatives : List (String × Reader α)) : Reader α := do
  let known := alternatives.map (·.1)
  match ← valueStart with
  | '\x7b' =>
    advance
    let key ← onlyKey
    match alternatives.lookup key with
    | none => mismatch (.unknownVariant key known)
    | some r =>
      colon
      let x ← r
      match ← next with
      | none => fault .endInObject
      | some '\x7d' =>
        advance
        return x
      | some _ => fault .expectedValue
  | '"' =>
    let key ← string true
    if key ∈ known then mismatch .bareVariant
    mismatch (.unknownVariant key known)
  | _ => fault .expectedValue

/-- What a value of any shape can be taken for. -/
inductive Scalar
  | integer (n : Int)
  | string (s : String)
  | other

/-- The members of an object, from here on. -/
def members (value : Reader α) (first : Bool) : Nat → Reader Unit
  | 0 => return
  | turns + 1 => do
    if ← hasKey first then
      discard <| string true
      colon
      discard value
      members value false turns
    else advance

/-- A value of any shape. Without a reader for what is nested in it, nothing may be. -/
def anyValueOf (nested : Option (Reader Scalar)) : Reader Scalar := do
  match ← valueStart, nested with
  | '[', some value =>
    advance
    discard <| items value
    return .other
  | '\x7b', some value =>
    advance
    members value true (← turns)
    return .other
  | '[', none | '\x7b', none => fault .tooDeep
  | _, _ =>
    match ← found with
    | .integer n => return .integer n
    | .string s => return .string s
    | _ => return .other

/-- A value of any shape, nested at most so deep. -/
def anyValue : Nat → Reader Scalar
  | 0 => anyValueOf none
  | depth + 1 => anyValueOf (some (anyValue depth))

end OutOfOrder.Json.Reader
