/-!
# Texts from files

A file is asked for by its path and gives its text, or the reason why there is none. Nothing here
looks at a disk: whoever runs a command hands in the files.
-/

namespace OutOfOrder

inductive FileError
  | missing
  | directory
  | notDirectory
  | nameTooLong
  | notText
deriving DecidableEq

def FileError.message : FileError → String
  | missing => "No such file or directory (os error 2)"
  | directory => "Is a directory (os error 21)"
  | notDirectory => "Not a directory (os error 20)"
  | nameTooLong => "File name too long (os error 36)"
  | notText => "stream did not contain valid UTF-8"

abbrev Files := String → Except FileError String

/-- Only what was read before is there. -/
def Files.among (texts : List (String × Except FileError String)) : Files := fun path =>
  (texts.lookup path).getD (.error .missing)

/-- The text in the bytes of a file. -/
def textOfBytes (bytes : ByteArray) : Except FileError String :=
  match String.fromUTF8? bytes with
  | some text => .ok text
  | none => .error .notText

end OutOfOrder
