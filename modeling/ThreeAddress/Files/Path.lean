/-!
# Paths

The names of files. A path is a sequence of parts; an absolute one starts with a root, which is `/`
or, if the text starts with exactly two slashes, `//`. Empty parts and single dots have no meaning
and are dropped.
-/

namespace ThreeAddress

/-- A path by its parts. -/
structure Path where
  parts : List String
  deriving DecidableEq, Repr

namespace Path

/-- The pieces of a text between slashes. -/
def pieces : List Char → List (List Char)
  | [] => [[]]
  | c :: rest =>
    if c = '/' then [] :: pieces rest
    else
      match pieces rest with
      | [] => [[c]]
      | first :: more => (c :: first) :: more

/-- Whether a part is the root of an absolute path. -/
def isRoot (part : String) : Bool := part = "/" || part = "//"

/-- The root that a text starts with. -/
def root? (text : List Char) : Option String :=
  match (text.takeWhile (· = '/')).length with
  | 0 => none
  | 2 => some "//"
  | _ => some "/"

/-- Whether a part of a path's text has no meaning. -/
def isIdle (part : String) : Bool := part = "" || part = "."

/-- The path that a text names. -/
def ofString (text : String) : Path :=
  let names := ((pieces text.toList).map String.ofList).filter fun part => !isIdle part
  ⟨(root? text.toList).toList ++ names⟩

/-- Whether a text names a directory by its form: it ends in a slash or in a single dot. -/
def asksDirectory (text : String) : Bool :=
  ((pieces text.toList).getLast?.map fun last => isIdle (String.ofList last)).getD false

/-- The text of a path; the empty path is a dot. -/
def text (p : Path) : String :=
  match p.parts with
  | [] => "."
  | first :: rest =>
    if isRoot first then first ++ "/".intercalate rest else "/".intercalate (first :: rest)

/-- The last part of a path. -/
def name (p : Path) : String := p.parts.getLast?.getD ""

/-- A file name without its suffix: what stands before the last dot, unless that dot is the first or
the last character. -/
def stem (name : List Char) : List Char :=
  let ending := name.reverse.takeWhile (· ≠ '.')
  let before := (name.reverse.dropWhile (· ≠ '.')).drop 1
  if ending.isEmpty || before.isEmpty then name else before.reverse

/-- The path with the suffix of its last part replaced. -/
def withSuffix (p : Path) (suffix : String) : Path :=
  ⟨p.parts.dropLast ++ [String.ofList (stem p.name.toList) ++ suffix]⟩

end Path

end ThreeAddress
