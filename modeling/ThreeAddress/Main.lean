import ThreeAddress.Command.Run

/-!
# The program

Takes the files that the arguments name from the disk into a file tree, runs the command on it, and
puts what has changed back.
-/

namespace ThreeAddress.Command

/-- The paths that a run can touch. -/
def paths (arguments : List String) : List Path :=
  match Request.ofArguments arguments with
  | .error _ => []
  | .ok r =>
    match r.files with
    | [] => []
    | name :: _ => [.ofString name, outputPath r (.ofString name)]

/-- Adds what stands on the disk at the given place, with the directories on the way. -/
def load (tree : FileTree) (done : List String) : List String → IO FileTree
  | [] => return tree
  | part :: rest => do
    let place := if part = ".." then FileTree.parent done else done ++ [part]
    let found ← try some <$> IO.FS.realPath (Path.text ⟨place⟩) catch _ => pure none
    match found with
    | none => return tree
    | some path =>
      if ← path.isDir then load (tree.set place .directory) place rest
      else if ← path.pathExists then
        let bytes ← IO.FS.readBinFile path
        return tree.set place (.file bytes.toList)
      else return tree

/-- The part of the disk that a run can touch. -/
def snapshot (arguments : List String) : IO FileTree :=
  (paths arguments).foldlM (fun tree path => load tree [] path.parts) {}

/-- The variables of the environment that the command reads. -/
def environment : IO (List (String × String)) :=
  ["MINITAC_ANALYZE", "MINITAC_FOLD"].filterMapM fun name => do
    return (← IO.getEnv name).map (name, ·)

end ThreeAddress.Command

/-- Runs the command. -/
def main (arguments : List String) : IO UInt32 := do
  let before ← ThreeAddress.Command.snapshot arguments
  let environment ← ThreeAddress.Command.environment
  let outcome := ThreeAddress.Command.runOn ThreeAddress.Stack.usual before environment arguments
  for (place, bytes) in outcome.tree.changesSince before do
    IO.FS.writeBinFile (ThreeAddress.Path.text ⟨place⟩) ⟨bytes.toArray⟩
  IO.print outcome.output
  IO.eprint outcome.errors
  return outcome.exitCode.toUInt32
