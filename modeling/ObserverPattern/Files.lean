/-!
# Files

A directory as the files below it, with their bytes. A directory inside it exists if a file lies in
it; of the directories above it nothing is known but that they exist.

* Paths are relative, with slashes between their parts; an empty part and a single dot stay where
  they are, two dots go back. Every part but the last has to lead into a directory.
* A path and each name in it are limited in length, and no path has a null character (`isPath`).
* `Files.read?` and `Files.write?` read and write a file, if its path allows it.
-/

namespace ObserverPattern

/-- The files of a directory, by the parts of their paths; two dots
lead to the directory above. -/
structure Files where
  entries : List (List String × ByteArray)

namespace Files

def maxPathSize : Nat := 4095

def maxNameSize : Nat := 255

def isPath (path : String) : Bool :=
  !path.startsWith "/" && !path.toList.contains '\x00' && path.utf8ByteSize ≤ maxPathSize

/-- Whether a path leads to the directory itself or to one above it. -/
def isAbove (path : List String) : Bool := path.all (· == "..")

def isDirectory (files : Files) (path : List String) : Bool :=
  isAbove path || files.entries.any fun (file, _) => path.isPrefixOf file && file != path

/-- Follows the parts of a path from a directory. -/
def follow (files : Files) (here : List String) : List String → Option (List String)
  | [] => some here
  | part :: rest =>
    if !files.isDirectory here then none
    else if part = "" ∨ part = "." then files.follow here rest
    else if part = ".." then
      files.follow (if isAbove here then here ++ [".."] else here.dropLast) rest
    else if maxNameSize < part.utf8ByteSize then none
    else files.follow (here ++ [part]) rest

def locate? (files : Files) (path : String) : Option (List String) :=
  if isPath path then files.follow [] (path.splitOn "/") else none

def read? (files : Files) (path : String) : Option ByteArray := do
  let path ← files.locate? path
  let (_, bytes) ← files.entries.find? (·.1 == path)
  some bytes

def put (files : Files) (path : List String) (bytes : ByteArray) : Files :=
  ⟨files.entries.filter (·.1 != path) ++ [(path, bytes)]⟩

def write? (files : Files) (path : String) (bytes : ByteArray) : Option Files := do
  let path ← files.locate? path
  if files.isDirectory path then none else some (files.put path bytes)

def ofList (files : List (String × ByteArray)) : Files :=
  files.foldl (fun fs (path, bytes) =>
    fs.put ((path.splitOn "/").filter fun part => part != "" && part != ".") bytes) ⟨[]⟩

end Files

end ObserverPattern
