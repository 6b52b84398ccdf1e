import ThreeAddress.Problem
import ThreeAddress.Proofs.Tree.Shape

/-!
# Places of trees

A tree with its places changed, in particular with all of them left out. Two trees that are equal
without their places have the same nodes with the same names, operators and values, floats bit for
bit.

* `Node.mapPlaces`, `Node.unplaced`: the tree with other places, and without places.
* `Problem.unplaced`, `Failure.unplaced`: the same for problems; what is left is the cause, which
  fixes the category, the wording and the hint.
-/

namespace ThreeAddress

namespace Node

mutual

/-- The tree with its places changed. -/
def mapPlaces (f : Option Location → Option Location) : Node → Node
  | assign name value declares l => .assign name (value.mapPlaces f) declares (f l)
  | binary left op right l => .binary (left.mapPlaces f) op (right.mapPlaces f) (f l)
  | int value l => .int value (f l)
  | float value l => .float value (f l)
  | string value l => .string value (f l)
  | var name l => .var name (f l)
  | ifThen condition thenBranch l =>
    .ifThen (condition.mapPlaces f) (thenBranch.mapPlaces f) (f l)
  | ifElse condition thenBranch elseBranch l =>
    .ifElse (condition.mapPlaces f) (thenBranch.mapPlaces f) (elseBranch.mapPlaces f) (f l)
  | forLoop init condition update body l =>
    .forLoop (init.mapPlaces f) (condition.mapPlaces f) (update.mapPlaces f) (body.mapPlaces f)
      (f l)
  | whileLoop condition body l => .whileLoop (condition.mapPlaces f) (body.mapPlaces f) (f l)
  | ret l => .ret (f l)
  | retValue value l => .retValue (value.mapPlaces f) (f l)
  | block statements l => .block (mapPlacesAll f statements) (f l)
  | bare l => .bare (f l)

/-- Some trees with their places changed. -/
def mapPlacesAll (f : Option Location → Option Location) : List Node → List Node
  | [] => []
  | s :: ss => s.mapPlaces f :: mapPlacesAll f ss

end

variable {f : Option Location → Option Location}

@[simp] theorem mapPlacesAll_eq_map (ss : List Node) :
    mapPlacesAll f ss = ss.map (mapPlaces f) := by
  induction ss with
  | nil => rw [mapPlacesAll, List.map_nil]
  | cons s ss ih => rw [mapPlacesAll, ih, List.map_cons]

/-- The tree without its places. -/
abbrev unplaced (n : Node) : Node := n.mapPlaces fun _ => none

end Node

/-- The problem without its place and its line. -/
def Problem.unplaced (p : Problem) : Problem := ⟨p.cause, none, none⟩

/-- The failure without its place and its line. -/
def Failure.unplaced : Failure → Failure
  | problem p => .problem p.unplaced
  | unsupported phase node => .unsupported phase node
  | exhausted => .exhausted

end ThreeAddress
