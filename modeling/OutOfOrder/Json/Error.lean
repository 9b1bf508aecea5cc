import OutOfOrder.Decimal.Shortest
import OutOfOrder.Text.Quoted

/-!
# Why a JSON text is refused

A `Fault` is a breach of the grammar, or an end of the text before its time. A `Mismatch` is sound
JSON of another shape than the one asked for. A text is read once from front to back, so whichever
comes first is reported.
-/

namespace OutOfOrder.Json

/-! ## Grammar -/

inductive Fault
  | endInArray
  | endInObject
  | endInString
  | endInValue
  | expectedColon
  | expectedArrayComma
  | expectedObjectComma
  | expectedWord
  | expectedValue
  | invalidEscape
  | invalidNumber
  | numberOutOfRange
  | controlCharacter
  | keyNotString
  | loneSurrogate
  | trailingComma
  | trailingCharacters
  | endOfEscape
  | tooDeep
deriving DecidableEq

namespace Fault

/-- The text ends where more has to come. -/
def isEnd : Fault → Bool
  | endInArray | endInObject | endInString | endInValue => true
  | _ => false

def message : Fault → String
  | endInArray => "EOF while parsing a list"
  | endInObject => "EOF while parsing an object"
  | endInString => "EOF while parsing a string"
  | endInValue => "EOF while parsing a value"
  | expectedColon => "expected `:`"
  | expectedArrayComma => "expected `,` or `]`"
  | expectedObjectComma => "expected `,` or `\x7d`"
  | expectedWord => "expected ident"
  | expectedValue => "expected value"
  | invalidEscape => "invalid escape"
  | invalidNumber => "invalid number"
  | numberOutOfRange => "number out of range"
  | controlCharacter => "control character (\\u0000-\\u001F) found while parsing a string"
  | keyNotString => "key must be a string"
  | loneSurrogate => "lone leading surrogate in hex escape"
  | trailingComma => "trailing comma"
  | trailingCharacters => "trailing characters"
  | endOfEscape => "unexpected end of hex escape"
  | tooDeep => "recursion limit exceeded"

end Fault

/-! ## Shape -/

/-- What stands in the text in the place of something else. -/
inductive Found
  | null
  | boolean (b : Bool)
  | integer (n : Int)
  | real (x : Float)
  | string (s : String)
  | array
  | object

def Found.text : Found → String
  | null => "null"
  | boolean b => s!"boolean `{b}`"
  | integer n => s!"integer `{n}`"
  | real x => s!"floating point `{Decimal.shortest x}`"
  | string s => s!"string {Text.quoted s}"
  | array => "sequence"
  | object => "map"

inductive Mismatch
  | wrongType (found : Found) (expected : String)
  | outOfRange (n : Int) (expected : String)
  | tooShort (length : Nat) (record : String) (fields : Nat)
  | unknownField (name : String) (known : List String)
  | duplicateField (name : String)
  | missingField (name : String)
  | unknownVariant (name : String) (known : List String)
  | bareVariant
  | noVariant (type : String)

/-- Names to choose from, in a sentence. -/
def choice : List String → String
  | [x] => s!"`{x}`"
  | [x, y] => s!"`{x}` or `{y}`"
  | names => "one of " ++ ", ".intercalate (names.map fun x => s!"`{x}`")

def Mismatch.message : Mismatch → String
  | wrongType found expected => s!"invalid type: {found.text}, expected {expected}"
  | outOfRange n expected => s!"invalid value: integer `{n}`, expected {expected}"
  | tooShort length record fields =>
    let plural := if fields = 1 then "" else "s"
    s!"invalid length {length}, expected struct {record} with {fields} element{plural}"
  | unknownField name known => s!"unknown field `{name}`, expected {choice known}"
  | duplicateField name => s!"duplicate field `{name}`"
  | missingField name => s!"missing field `{name}`"
  | unknownVariant name known => s!"unknown variant `{name}`, expected {choice known}"
  | bareVariant => "invalid type: unit variant, expected newtype variant"
  | noVariant type => s!"data did not match any variant of untagged enum {type}"

/-! ## Both -/

inductive Error
  | fault (f : Fault)
  | mismatch (m : Mismatch)

inductive Category
  | grammar
  | ending
  | shape
deriving DecidableEq

namespace Error

def category : Error → Category
  | fault f => if f.isEnd then .ending else .grammar
  | mismatch _ => .shape

def message : Error → String
  | fault f => f.message
  | mismatch m => m.message

end Error

end OutOfOrder.Json
