import ThreeAddress.Problem
import ThreeAddress.Token.Basic
import ThreeAddress.Tree.Inline

/-!
# Notices

What the phases have to tell besides their results. A notice has a level and a wording; notices
are kept in the order in which they come up.
-/

namespace ThreeAddress

/-- How much a notice matters. -/
inductive Level where
  | debug
  | info
  | warning
  deriving DecidableEq, Repr

/-- The name of a level. -/
def Level.name : Level → String
  | debug => "DEBUG"
  | info => "INFO"
  | warning => "WARNING"

/-- What a phase has to tell. -/
inductive Notice where
  /-- A block comment is not closed; the place is the end of the text. -/
  | unclosedComment (location : Option Location)
  | started (path : String) (analyze fold : Bool)
  | tokenCount (file : String) (count : Nat)
  | statementCount (file : String) (count : Nat)
  | typed (file : String)
  | folded (file : String)
  | lineCount (file : String) (count : Nat)
  /-- A float variable is set to an integer. -/
  | widened (name : String)
  | foldedInts (left : Int) (op : Operator) (right result : Int)
  | foldedFloats (left : Float) (op : Operator) (right result : Float)
  /-- The result of an operation on integers has no written form. -/
  | resultTooLong (op : Operator)
  /-- An integer of so many bits is beyond the floats. -/
  | beyondFloats (bits : Nat)

namespace Notice

def level : Notice → Level
  | unclosedComment .. => .warning
  | widened .. => .info
  | _ => .debug

/-- A truth value in notices. -/
def flagText (b : Bool) : String := if b then "True" else "False"

/-- The wording of an operation that has been carried out. -/
def operationText (left op right result : String) : String :=
  "folded " ++ left ++ " " ++ op ++ " " ++ right ++ " -> " ++ result

/-- The wording of a notice. -/
def text : Notice → String
  | unclosedComment location =>
    ((location.map Location.text).getD "") ++ ": unterminated block comment"
  | started path analyze fold =>
    "Compiling " ++ path ++ " (analyze=" ++ flagText analyze ++ ", fold=" ++ flagText fold ++ ")"
  | tokenCount file count => file ++ ": " ++ toString count ++ " tokens"
  | statementCount file count => file ++ ": parsed " ++ toString count ++ " statements"
  | typed file => file ++ ": semantic analysis passed"
  | folded file => file ++ ": constant folding done"
  | lineCount file count => file ++ ": generated " ++ toString count ++ " TAC lines"
  | widened name => "implicit widening: assigning int to float variable '" ++ name ++ "'"
  | foldedInts a op b result =>
    operationText (Literal.intText a) op.symbol (Literal.intText b) (Literal.intText result)
  | foldedFloats a op b result =>
    operationText (Literal.floatText a) op.symbol (Literal.floatText b) (Literal.floatText result)
  | resultTooLong op => "not folding: " ++ op.symbol ++ " result has too many digits"
  | beyondFloats bits => "not folding: " ++ toString bits ++ "-bit integer does not fit a float"

end Notice

/-- The notice that a token gives rise to when it is read: a comment that is not closed is told. No
other unknown token has more than one character. -/
def Token.notice? (t : Token) : Option Notice :=
  if t.kind = .unknown && t.text = Token.unclosedComment then some (.unclosedComment t.location)
  else none

/-- The notices of some tokens. -/
def Token.notices (tokens : List Token) : List Notice := tokens.filterMap Token.notice?

/-! ## Work that gives notice -/

/-- Work that collects notices and may fail; the notices before a failure are kept. -/
abbrev Work := EStateM Failure (List Notice)

namespace Work

/-- Gives a notice. -/
def tell (n : Notice) : Work Unit := modify (· ++ [n])

/-- Gives some notices in order. -/
def tellAll (ns : List Notice) : Work Unit := modify (· ++ ns)

/-- Takes a result that is there already. -/
def take {α : Type} : Except Failure α → Work α
  | .ok a => pure a
  | .error e => throw e

/-- Takes a result that may be a problem of the program. -/
def accept {α : Type} : Except Problem α → Work α
  | .ok a => pure a
  | .error p => throw (.problem p)

/-- The outcome of some work, and its notices. -/
def run {α : Type} (work : Work α) : Except Failure α × List Notice :=
  match work [] with
  | .ok a notices => (.ok a, notices)
  | .error e notices => (.error e, notices)

end Work

end ThreeAddress
