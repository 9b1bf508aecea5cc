import OutOfOrder.File

/-!
# Paths in a directory

A directory that holds just some files, and where a path leads that starts in it. A path is taken
one name at a time, and only from a directory on: a dot stays, two dots lead to the directory above.
Of everything above, only directories are known.
-/

namespace OutOfOrder

/-- The texts of files by their names. -/
structure Directory where
  files : List (String × String)

namespace Directory

/-- What a path has led to so far. -/
inductive Place
  | here
  | above
  | file (text : String)
deriving DecidableEq

/-- The longest name of a file, in bytes. -/
def maxName : Nat := 255

/-- The longest path, in bytes. -/
def maxPath : Nat := 4095

/-- Where a name leads. An empty one, as between two slashes, stays as a dot does. -/
def follow (d : Directory) (name : String) : Place → Except FileError Place
  | .file _ => .error .notDirectory
  | place =>
    if name = "" ∨ name = "." then .ok place
    else if name = ".." then .ok .above
    else if maxName < name.utf8ByteSize then .error .nameTooLong
    else
      match place, d.files.lookup name with
      | .here, some text => .ok (.file text)
      | _, _ => .error .missing

/-- Follows a path. One that starts with a slash starts above. -/
def walk (d : Directory) (path : String) : Except FileError Place :=
  if path = "" then .error .missing
  else if maxPath < path.utf8ByteSize then .error .nameTooLong
  else
    (path.splitOn "/").foldlM (fun place name => d.follow name place)
      (if path.startsWith "/" then .above else .here)

/-- The text of the file that a path leads to. -/
def read (d : Directory) : Files := fun path => do
  match ← d.walk path with
  | .file text => return text
  | .here | .above => throw .directory

end Directory

end OutOfOrder
