import OutOfOrder.File
import OutOfOrder.Json.Shape
import OutOfOrder.Program.Record

/-!
# Reading a program

A program text is an object with a list of records. No key may be there that means nothing.
-/

namespace OutOfOrder

open Json

/-- Texts are nested at most 127 deep, and three levels are open around an operation. -/
def WrittenOpcode.depth : Nat := 124

/-- An operation is an opcode word or a mnemonic. -/
def WrittenOpcode.read : Reader WrittenOpcode := do
  match ← Reader.anyValue depth with
  | .integer n =>
    if 0 ≤ n ∧ n < UInt32.size then return .word (UInt32.ofNat n.toNat)
    mismatch (.noVariant "OpSpec")
  | .string s => return .mnemonic s
  | .other => mismatch (.noVariant "OpSpec")

def WrittenOperand.read : Reader WrittenOperand :=
  Reader.variant
    [("value", return .value (.ofInt (← Reader.integer "i32" Int32.minValue.toInt Int32.maxValue.toInt))),
      ("wait", .wait <$> Reader.unsigned "u32" 32)]

namespace Record

/-- A record that says nothing yet. Its opcode has to be read. -/
def blank : Record := ⟨.word 0, none, ⟨none, none, none⟩⟩

def shape : Reader.Shape Record where
  name := "InstructionRecord"
  strict := true
  fields :=
    let operand := Reader.optional WrittenOperand.read
    [⟨"op", true, fun r => return { r with opcode := ← WrittenOpcode.read }⟩,
      ⟨"tag", false, fun r =>
        return { r with tag := ← Reader.optional (Reader.unsigned "u32" 32) }⟩,
      ⟨"a", false, fun r => return { r with operands := { r.operands with a := ← operand } }⟩,
      ⟨"b", false, fun r => return { r with operands := { r.operands with b := ← operand } }⟩,
      ⟨"f", false, fun r => return { r with operands := { r.operands with f := ← operand } }⟩]

/-- The list of records that a program text is made of. -/
def listShape : Reader.Shape (List Record) where
  name := "ProgramFile"
  strict := true
  fields := [⟨"instructions", true, fun _ => Reader.array (shape.read blank)⟩]

end Record

/-! ## From a text to a program -/

inductive ProgramError
  | unreadable (path : String) (error : FileError)
  | json (error : Json.Error)
  | record (error : RecordError)

def ProgramError.message : ProgramError → String
  | unreadable path error => s!"could not read program '{path}': {error.message}"
  | json error => "malformed program: " ++ error.message
  | record error => error.message

namespace Program

/-- Reads a program for a tag space. The whole text is read before the records are looked at. -/
def ofText (s : TagSpace) (text : String) : Except ProgramError Program :=
  match Reader.document (Record.listShape.read []) text with
  | .error e => .error (.json e)
  | .ok records => (ofRecords s records).mapError .record

def ofFile (s : TagSpace) (files : Files) (path : String) : Except ProgramError Program :=
  match files path with
  | .error e => .error (.unreadable path e)
  | .ok text => ofText s text

end Program

end OutOfOrder
