import FormulaBook.Text.Quoted
import FormulaBook.Text.Utf8

/-!
# Files

The directories and files that a project consists of, as a map from paths.

* `Path`: a place among the directories, with `Path.resolve` and `Path.text`;
* `FileError`: why an operation on files fails;
* `Files`: the map, with reading, writing and the creation of directories;
* `Files.locate`: the place that a written path leads to when each part of it is looked up.
-/

namespace FormulaBook

/-- The names on the way to a file or directory, the outermost first. -/
abbrev Path := List String

namespace Path

/-- The path after one more part of a written path: an empty part and a single point change
nothing, and two points lead back to the directory around. -/
def step (path : Path) (part : String) : Path :=
  if part == "" || part == "." then path
  else if part == ".." then (if path.length ≤ 1 then path else path.dropLast)
  else path ++ [part]

/-- The path that a text with slashes denotes in the directory `current`. A slash at the front leads
to the outermost directory, whose name is empty. -/
def resolve (current : Path) (s : String) : Path :=
  match s.splitOn "/" with
  | "" :: part :: parts => (part :: parts).foldl step [""]
  | parts => parts.foldl step current

/-- The written form of a path. -/
def text (path : Path) : String := if path == [""] then "/" else "/".intercalate path

/-- The greatest number of octets in a name. -/
def nameLimit : Nat := 255

/-- Whether a name is too long for a file or directory. -/
def isTooLong (name : String) : Bool := nameLimit < (Text.octets name).length

end Path

/-- Why an operation on files fails. -/
inductive FileError where
  | missing (path : Path)
  | taken (path : Path)
  | notDirectory (path : Path)
  | isDirectory (path : Path)
  | nameTooLong (path : Path)
  deriving DecidableEq, Repr

/-- The text that a person sees. -/
def FileError.message : FileError → String
  | .missing path => "[Errno 2] No such file or directory: " ++ Text.quote path.text
  | .taken path => "[Errno 17] File exists: " ++ Text.quote path.text
  | .notDirectory path => "[Errno 20] Not a directory: " ++ Text.quote path.text
  | .isDirectory path => "[Errno 21] Is a directory: " ++ Text.quote path.text
  | .nameTooLong path => "[Errno 36] File name too long: " ++ Text.quote path.text

/-- What stands at a path. -/
inductive FileEntry where
  | directory
  | file (octets : List UInt8)
  deriving DecidableEq

/-- What stands at the paths that are in use. -/
structure Files where
  entries : List (Path × FileEntry) := []

namespace Files

/-- What stands at a path. -/
def get? (files : Files) (path : Path) : Option FileEntry := files.entries.lookup path

/-- Whether a path is in use. -/
def has (files : Files) (path : Path) : Bool := (files.get? path).isSome

/-- The files with an entry at a path, in the place of the one that is there. -/
def set (files : Files) (path : Path) (e : FileEntry) : Files :=
  ⟨(path, e) :: files.entries.filter (·.1 != path)⟩

/-- The place after one more part of a written path. The part is looked up in the place before it,
which must be a directory that is there. -/
def enter (files : Files) (place : Path) (part : String) : Except FileError Path :=
  match files.get? place with
  | none => .error (.missing place)
  | some (.file _) => .error (.notDirectory place)
  | some .directory =>
    if Path.isTooLong part then .error (.nameTooLong (place ++ [part])) else .ok (place.step part)

/-- The place that a written path leads to from the directory `current`, or from the outermost one
if a slash is at its front. What stands at the place itself is not looked at, except before a slash.
-/
def locate (files : Files) (current : Path) (s : String) : Except FileError Path :=
  match s.splitOn "/" with
  | [""] => .error (.missing current)
  | "" :: part :: parts => (part :: parts).foldlM files.enter [""]
  | parts => parts.foldlM files.enter current

/-- The octets of a file. -/
def read (files : Files) (path : Path) : Except FileError (List UInt8) :=
  match files.get? path with
  | some (.file octets) => .ok octets
  | some .directory => .error (.isDirectory path)
  | none => .error (.missing path)

/-- The files with a directory at a path and at every path on the way to it, of which `rest` are to
be looked at after `done`. -/
def makeDirectoryFrom (target done : Path) : List String → Files → Except FileError Files
  | [], files => .ok files
  | name :: rest, files =>
    let path := done ++ [name]
    match files.get? path with
    | some .directory => makeDirectoryFrom target path rest files
    | some (.file _) => .error (if rest.isEmpty then .taken target else .notDirectory target)
    | none =>
      if Path.isTooLong name then .error (.nameTooLong target)
      else makeDirectoryFrom target path rest (files.set path .directory)

/-- The files with a directory at a path, and with those on the way to it. -/
def makeDirectory (path : Path) (files : Files) : Except FileError Files :=
  makeDirectoryFrom path [] path files

/-- The files with a file in a directory that is there. -/
def write (path : Path) (octets : List UInt8) (files : Files) : Except FileError Files :=
  match files.get? path, files.get? path.dropLast with
  | some .directory, _ => .error (.isDirectory path)
  | _, some .directory =>
    if path.getLast?.any Path.isTooLong then .error (.nameTooLong path)
    else .ok (files.set path (.file octets))
  | _, some (.file _) => .error (.notDirectory path)
  | _, none => .error (.missing path)

/-- The files with octets at the end of a file, which is created if it is not there. -/
def append (path : Path) (octets : List UInt8) (files : Files) : Except FileError Files :=
  match files.get? path with
  | some (.file before) => files.write path (before ++ octets)
  | _ => files.write path octets

/-- The files without one of them. -/
def remove (path : Path) (files : Files) : Except FileError Files :=
  match files.get? path with
  | some (.file _) => .ok ⟨files.entries.filter (·.1 != path)⟩
  | some .directory => .error (.isDirectory path)
  | none => .error (.missing path)

end Files

end FormulaBook
