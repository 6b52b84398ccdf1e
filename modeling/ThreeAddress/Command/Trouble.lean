import ThreeAddress.Compilation
import ThreeAddress.Files.Tree

/-!
# Trouble

What can end a task that works on files: the program has a problem, a file cannot be read or
written, or a file is no text. Each has a report and an exit code.
-/

namespace ThreeAddress

/-- Why a task on files did not finish. -/
inductive Trouble where
  | failure (f : Failure)
  /-- There is no source file under the given name. -/
  | noSource (name : String)
  | fault (f : FileFault) (path : Path)
  | encoding (e : Text.Utf8Error)

/-- The kinds of trouble that an exit code tells apart. -/
inductive TroubleKind where
  | problem
  | access
  | internal
  deriving DecidableEq, Repr

/-- The exit code for a kind of trouble; zero stands for success. -/
def TroubleKind.exitCode : TroubleKind → Nat
  | problem => 1
  | access => 2
  | internal => 3

namespace Trouble

def kind : Trouble → TroubleKind
  | failure (.problem _) => .problem
  | failure (.unsupported ..) | failure .exhausted => .internal
  | noSource _ | fault .. | encoding _ => .access

/-- The report without a heading. -/
def message : Trouble → String
  | failure f => f.report
  | noSource name => "Source file not found: " ++ name
  | fault f path => f.message path
  | encoding e => e.message

/-- The report on the error channel. A problem of the program stands for itself. -/
def report (t : Trouble) : String :=
  match t.kind with
  | .problem => t.message
  | .access => "Error: " ++ t.message
  | .internal => "Internal error: " ++ t.message

end Trouble

/-- A task on files: it collects notices and may run into trouble. -/
abbrev Task := EStateM Trouble (List Notice)

namespace Task

/-- Work on a program as part of a task. -/
def ofWork {α : Type} (work : Work α) : Task α := fun notices =>
  match work notices with
  | .ok a notices => .ok a notices
  | .error e notices => .error (.failure e) notices

/-- Reads a source file. -/
def readSource (tree : FileTree) (path : Path) : Task String :=
  match tree.read path with
  | .error f => throw (.fault f path)
  | .ok bytes =>
    match Text.readText bytes with
    | .ok source => return source
    | .error e => throw (.encoding e)

/-- Writes a text file. -/
def writeFile (tree : FileTree) (path : Path) (text : String) : Task FileTree :=
  match tree.write path (Text.writeText text) with
  | .error f => throw (.fault f path)
  | .ok tree => return tree

/-- The outcome of a task, and its notices. -/
def run {α : Type} (task : Task α) : Except Trouble α × List Notice :=
  match task [] with
  | .ok a notices => (.ok a, notices)
  | .error e notices => (.error e, notices)

end Task

/-- Compiles a source file on a stack, with the default options, and writes the code if an output is
named. Gives the lines of the code and the tree afterwards. -/
def compileFileOn (stack : Stack) (tree : FileTree) (name output : String) :
    Task (List String × FileTree) := do
  let path := Path.ofString name
  match tree.resolve path with
  | .error .nameTooLong => throw (.fault .nameTooLong path)
  | .error _ => throw (.noSource name)
  | .ok place =>
    if (tree.entry? place).isNone then throw (.noSource name)
    else
      let source ← Task.readSource tree path
      let compilation ← Task.ofWork (compileOn stack {} source name)
      if output.isEmpty then return (compilation.lines, tree)
      else
        let tree ← Task.writeFile tree (.ofString output) (fileText compilation.lines)
        return (compilation.lines, tree)

/-- Compiles a source file with the default options and writes the code if an output is named. -/
def compileFile (tree : FileTree) (name output : String) : Task (List String × FileTree) :=
  compileFileOn none tree name output

end ThreeAddress
