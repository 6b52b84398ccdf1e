import ThreeAddress.Files.Path
import ThreeAddress.Text.Quoted
import ThreeAddress.Text.Utf8

/-!
# File trees

The directories and files below a working directory, as a value. Reading and writing follow a path
part by part through existing directories.
-/

namespace ThreeAddress

/-- What a path leads to. -/
inductive FileEntry where
  | directory
  | file (bytes : List UInt8)
  deriving DecidableEq

/-- Why a path cannot be read or written. -/
inductive FileFault where
  | missing
  | notDirectory
  | isDirectory
  | nameTooLong
  deriving DecidableEq, Repr

/-- The report of a fault at a path. -/
def FileFault.message (fault : FileFault) (p : Path) : String :=
  (match fault with
    | missing => "[Errno 2] No such file or directory: "
    | notDirectory => "[Errno 20] Not a directory: "
    | isDirectory => "[Errno 21] Is a directory: "
    | nameTooLong => "[Errno 36] File name too long: ") ++ Text.quoted p.text

/-- The entries of a tree by their places: the parts of a path, where double dots come first. -/
structure FileTree where
  entries : List (List String × FileEntry) := []

namespace FileTree

/-- Whether a place is a directory in every tree: the working directory, those above it, and the
root. -/
def isFixed (place : List String) : Bool :=
  place.all (· = "..") || (place.length = 1 && place.all Path.isRoot)

/-- What stands at a place. -/
def entry? (t : FileTree) (place : List String) : Option FileEntry :=
  if isFixed place then some .directory else t.entries.lookup place

/-- The place above a place. The root is above itself. -/
def parent (place : List String) : List String :=
  match place.getLast? with
  | none => [".."]
  | some last =>
    if last = ".." then place ++ [".."] else if Path.isRoot last then place else place.dropLast

/-- The greatest number of bytes of a part of a path. -/
def partLimit : Nat := 255

/-- The greatest number of bytes of a path. -/
def pathLimit : Nat := 4095

/-- The place that some parts lead to from a place on; all but the last part lead to directories. A
double dot leads to the place above. -/
def resolveFrom (t : FileTree) (place : List String) : List String → Except FileFault (List String)
  | [] => .ok place
  | part :: rest =>
    match t.entry? place with
    | none => .error .missing
    | some (.file _) => .error .notDirectory
    | some .directory =>
      if part = ".." then resolveFrom t (parent place) rest
      else if partLimit < part.utf8ByteSize then .error .nameTooLong
      else resolveFrom t (place ++ [part]) rest

/-- The place that a path leads to. -/
def resolve (t : FileTree) (p : Path) : Except FileFault (List String) :=
  if pathLimit < p.text.utf8ByteSize then .error .nameTooLong else t.resolveFrom [] p.parts

/-- The bytes of a file. -/
def read (t : FileTree) (p : Path) : Except FileFault (List UInt8) := do
  match t.entry? (← t.resolve p) with
  | none => .error .missing
  | some .directory => .error .isDirectory
  | some (.file bytes) => .ok bytes

/-- Sets an entry in a list of entries. -/
def setEntry (place : List String) (entry : FileEntry) :
    List (List String × FileEntry) → List (List String × FileEntry)
  | [] => [(place, entry)]
  | (p, e) :: rest =>
    if p = place then (place, entry) :: rest else (p, e) :: setEntry place entry rest

/-- The tree with the given entry at a place. -/
def set (t : FileTree) (place : List String) (entry : FileEntry) : FileTree :=
  ⟨setEntry place entry t.entries⟩

/-- Writes a file, a new one or over an old one. -/
def write (t : FileTree) (p : Path) (bytes : List UInt8) : Except FileFault FileTree := do
  let place ← t.resolve p
  match t.entry? place with
  | some .directory => .error .isDirectory
  | _ => .ok (t.set place (.file bytes))

/-- What the text of a path leads to, taken as it is: an empty text and one that is too long lead
nowhere, and a text that asks for a directory leads to no file. -/
def look (t : FileTree) (text : String) : Option FileEntry :=
  if text.isEmpty || pathLimit < text.utf8ByteSize then none
  else
    match t.resolve (.ofString text) with
    | .error _ => none
    | .ok place =>
      match t.entry? place with
      | some (.file bytes) => if Path.asksDirectory text then none else some (.file bytes)
      | entry => entry

/-- The files of the tree that another tree does not have with the same content. -/
def changesSince (t before : FileTree) : List (List String × List UInt8) :=
  t.entries.filterMap fun (place, entry) =>
    match entry with
    | .directory => none
    | .file bytes => if before.entry? place = some (.file bytes) then none else some (place, bytes)

end FileTree

end ThreeAddress
