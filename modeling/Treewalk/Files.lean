import Treewalk.Text

/-! Files under a working directory. A path is followed name by name: every name but the last
has to lead to a directory, and empty names and `.` stay where they are. Nothing outside of the
working directory can be reached but the directories around it. -/
namespace Treewalk

inductive FileError where
  | notFound
  | notADirectory
  | isADirectory
  | badName
  | nameTooLong
deriving DecidableEq

/-- The message names the attempt that failed: a directory can be opened but not read. -/
def FileError.message (path : Text) (e : FileError) : Text :=
  let report (attempt reason : String) : Text :=
    Text.ofString attempt ++ Text.ofString " " ++ path ++ Text.ofString ": " ++ Text.ofString reason
  match e with
  | .notFound => report "open" "no such file or directory"
  | .notADirectory => report "open" "not a directory"
  | .isADirectory => report "read" "is a directory"
  | .badName => report "open" "invalid argument"
  | .nameTooLong => report "open" "file name too long"

structure Files where
  entries : List (List Text × Text)

namespace Files

def split (path : Text) : List Text := path.splitOn (Text.ascii '/')

def stays (name : Text) : Bool := name = [] || name = [Text.ascii '.']

def ascends (name : Text) : Bool := name = Text.ofString ".."

def ofList (entries : List (Text × Text)) : Files :=
  ⟨entries.map fun e => ((split e.1).filter fun name => !stays name, e.2)⟩

def content? (f : Files) (names : List Text) : Option Text := f.entries.lookup names

/-- Directories are the working directory and those that hold a file. -/
def isDirectory (f : Files) (names : List Text) : Bool :=
  names = [] || f.entries.any fun e => names.isPrefixOf e.1 && names.length < e.1.length

inductive Place where
  | file (content : Text)
  | directory (names : List Text)
  | outside

def maxName : Nat := 255

def maxPath : Nat := 4095

def follow (f : Files) (place : Place) (name : Text) : Except FileError Place :=
  match place with
  | .file _ => .error .notADirectory
  | .outside =>
    if stays name || ascends name then .ok .outside
    else if maxName < name.length then .error .nameTooLong
    else .error .notFound
  | .directory names =>
    if stays name then .ok place
    else if ascends name then
      .ok (if names = [] then .outside else .directory names.dropLast)
    else if maxName < name.length then .error .nameTooLong
    else if f.isDirectory (names ++ [name]) then .ok (.directory (names ++ [name]))
    else
      match f.content? (names ++ [name]) with
      | some content => .ok (.file content)
      | none => .error .notFound

def start (path : Text) : Place :=
  if path.head? = some (Text.ascii '/') then .outside else .directory []

def read (f : Files) (path : Text) : Except FileError Text :=
  if 0 ∈ path then .error .badName
  else if path = [] then .error .notFound
  else if maxPath < path.length then .error .nameTooLong
  else do
    match ← (split path).foldlM f.follow (start path) with
    | .file content => .ok content
    | .directory _ | .outside => .error .isADirectory

end Files
end Treewalk
