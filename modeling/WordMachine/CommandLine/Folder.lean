/-!
# Folders of files

Files by name in one folder, and how a path leads to one of them.  A path is followed name by
name: an empty name and a dot stay where they are, two dots lead out of the folder, and only a
folder can be followed further.  Nothing is known of what lies outside, so no name is found there.
-/

namespace WordMachine.CommandLine

/-- Why the contents of a file cannot be had. -/
inductive FileFault
  /-- A name on the path is not there. -/
  | notFound
  /-- A file stands where the path goes on. -/
  | notDirectory
  /-- The path ends at a folder. -/
  | isDirectory
  /-- A name, or the path as a whole, is longer than any can be. -/
  | nameTooLong
  deriving DecidableEq

def FileFault.message : FileFault → String
  | notFound => "No such file or directory (os error 2)"
  | notDirectory => "Not a directory (os error 20)"
  | isDirectory => "Is a directory (os error 21)"
  | nameTooLong => "File name too long (os error 36)"

abbrev Folder := List (String × ByteArray)

/-- Where a path has led to. -/
inductive Spot
  | folder
  /-- Some folder outside. -/
  | outside
  | file (contents : ByteArray)

namespace Folder

def nameLimit : Nat := 255

def pathLimit : Nat := 4095

def contents? (folder : Folder) (name : String) : Option ByteArray :=
  (folder.find? (·.1 == name)).map Prod.snd

/-- Follows one name of a path. -/
def enter (folder : Folder) (spot : Spot) (name : String) : Except FileFault Spot :=
  match spot with
  | .file _ => .error .notDirectory
  | .folder | .outside =>
    if name = "" ∨ name = "." then .ok spot
    else if name = ".." then .ok .outside
    else if nameLimit < name.utf8ByteSize then .error .nameTooLong
    else
      match spot, folder.contents? name with
      | .folder, some contents => .ok (.file contents)
      | _, _ => .error .notFound

/-- Where a path leads to.  One that begins with a slash starts outside. -/
def follow (folder : Folder) (path : String) : Except FileFault Spot :=
  if path = "" then .error .notFound
  else if pathLimit < path.utf8ByteSize then .error .nameTooLong
  else
    let start := if path.startsWith "/" then Spot.outside else .folder
    (path.splitOn "/").foldlM folder.enter start

/-- The contents of the file that a path leads to. -/
def read (folder : Folder) (path : String) : Except FileFault ByteArray :=
  match folder.follow path with
  | .ok (.file contents) => .ok contents
  | .ok _ => .error .isDirectory
  | .error fault => .error fault

end Folder

end WordMachine.CommandLine
