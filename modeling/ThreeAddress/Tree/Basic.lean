import ThreeAddress.Diagnostic

/-!
# Syntax trees

The trees of the language. Statements and expressions are nodes of one type, so that a tree can be
written down before it is known to make sense: any node may stand in any position, and the phases
say which positions they accept. The trees that the grammar yields are far more regular.
-/

namespace ThreeAddress

/-! ## Types and operators -/

/-- The types of variables. A name that is no type of the language is kept as it is. -/
inductive Ty where
  | int
  | float
  | string
  | other (name : String)
  deriving DecidableEq, Repr

namespace Ty

/-- The name of a type. -/
def name : Ty → String
  | int => "int"
  | float => "float"
  | string => "string"
  | other name => name

/-- The type that has the given name. -/
def ofName (name : String) : Ty :=
  if name = "int" then int
  else if name = "float" then float
  else if name = "string" then string
  else other name

@[simp] theorem name_ofName (s : String) : (ofName s).name = s := by
  unfold ofName
  split
  · simp_all [name]
  · split
    · simp_all [name]
    · split <;> simp_all [name]

end Ty

/-- The binary operators. A symbol that is no operator of the language is kept as it is. -/
inductive Operator where
  | add
  | sub
  | mul
  | div
  | eq
  | ne
  | lt
  | gt
  | le
  | ge
  | other (symbol : String)
  deriving DecidableEq, Repr

namespace Operator

/-- The written form of an operator. -/
def symbol : Operator → String
  | add => "+"
  | sub => "-"
  | mul => "*"
  | div => "/"
  | eq => "=="
  | ne => "!="
  | lt => "<"
  | gt => ">"
  | le => "<="
  | ge => ">="
  | other symbol => symbol

/-- The operators of the language. -/
def known : List Operator := [add, sub, mul, div, eq, ne, lt, gt, le, ge]

/-- The operator with the given written form. -/
def ofSymbol (s : String) : Operator := (known.find? (·.symbol = s)).getD (.other s)

@[simp] theorem symbol_ofSymbol (s : String) : (ofSymbol s).symbol = s := by
  unfold ofSymbol
  cases h : known.find? (·.symbol = s) with
  | none => rfl
  | some op => simpa using List.find?_some h

end Operator

/-! ## Nodes -/

/-- A node of a syntax tree, with the place where it starts. -/
inductive Node where
  /-- Sets a variable, and declares it if a type is given. -/
  | assign (name : String) (value : Node) (declares : Option Ty) (location : Option Location)
  | binary (left : Node) (op : Operator) (right : Node) (location : Option Location)
  | int (value : Int) (location : Option Location)
  | float (value : Float) (location : Option Location)
  | string (value : String) (location : Option Location)
  | var (name : String) (location : Option Location)
  | ifThen (condition thenBranch : Node) (location : Option Location)
  | ifElse (condition thenBranch elseBranch : Node) (location : Option Location)
  | forLoop (init condition update body : Node) (location : Option Location)
  | whileLoop (condition body : Node) (location : Option Location)
  /-- Returns no value. -/
  | ret (location : Option Location)
  | retValue (value : Node) (location : Option Location)
  | block (statements : List Node) (location : Option Location)
  /-- A node of no particular kind; no phase knows it. -/
  | bare (location : Option Location)

namespace Node

instance : Inhabited Node := ⟨.bare none⟩

/-- Where a node starts. -/
def location : Node → Option Location
  | assign _ _ _ l | binary _ _ _ l | int _ l | float _ l | string _ l | var _ l | ifThen _ _ l
  | ifElse _ _ _ l | forLoop _ _ _ _ l | whileLoop _ _ l | ret l | retValue _ l | block _ l
  | bare l => l

/-- The name of a node's kind. -/
def kindName : Node → String
  | assign .. => "Assign"
  | binary .. => "BinOp"
  | int .. => "IntLiteral"
  | float .. => "FloatLiteral"
  | string .. => "StringLiteral"
  | var .. => "Var"
  | ifThen .. | ifElse .. => "If"
  | forLoop .. => "For"
  | whileLoop .. => "While"
  | ret .. | retValue .. => "Return"
  | block .. => "Block"
  | bare .. => "ASTNode"

/-- Whether a node is an assignment that declares its variable. -/
def isDeclaration : Node → Bool
  | assign _ _ declares _ => declares.isSome
  | _ => false

/-- The parts of a node in order, each with its label. -/
def children : Node → List (String × Node)
  | assign _ value _ _ => [("Value", value)]
  | binary left _ right _ => [("Left", left), ("Right", right)]
  | ifThen condition thenBranch _ => [("Condition", condition), ("Then", thenBranch)]
  | ifElse condition thenBranch elseBranch _ =>
    [("Condition", condition), ("Then", thenBranch), ("Else", elseBranch)]
  | forLoop init condition update body _ =>
    [("Initialization", init), ("Condition", condition), ("Update", update), ("Body", body)]
  | whileLoop condition body _ => [("Condition", condition), ("Body", body)]
  | retValue value _ => [("Value", value)]
  | block statements _ =>
    statements.zipIdx.map fun (statement, i) => ("[" ++ toString i ++ "]", statement)
  | _ => []

/-! ## Equality up to places -/

mutual

/-- Whether two trees are equal but for their places. Floats are compared as numbers. -/
def same : Node → Node → Bool
  | assign n v d _, assign n' v' d' _ => n = n' && v.same v' && d = d'
  | binary l op r _, binary l' op' r' _ => l.same l' && op = op' && r.same r'
  | int v _, int v' _ => v = v'
  | float v _, float v' _ => v == v'
  | string v _, string v' _ => v = v'
  | var n _, var n' _ => n = n'
  | ifThen c t _, ifThen c' t' _ => c.same c' && t.same t'
  | ifElse c t e _, ifElse c' t' e' _ => c.same c' && t.same t' && e.same e'
  | forLoop i c u b _, forLoop i' c' u' b' _ =>
    i.same i' && c.same c' && u.same u' && b.same b'
  | whileLoop c b _, whileLoop c' b' _ => c.same c' && b.same b'
  | ret _, ret _ => true
  | retValue v _, retValue v' _ => v.same v'
  | block ss _, block ss' _ => sameAll ss ss'
  | bare _, bare _ => true
  | _, _ => false

/-- Whether two lists of trees are equal but for their places. -/
def sameAll : List Node → List Node → Bool
  | [], [] => true
  | s :: ss, s' :: ss' => s.same s' && sameAll ss ss'
  | _, _ => false

end

/-! ## Walking -/

/-- One stop of a walk: the depth, the label under which the node hangs, and its kind. -/
structure Stop where
  depth : Nat
  label : String
  kindName : String
  deriving DecidableEq, Repr

mutual

/-- The nodes of a tree, each before its parts, with their depths and labels. -/
def walk (depth : Nat) (label : String) : Node → List Stop
  | assign _ v _ _ => ⟨depth, label, "Assign"⟩ :: v.walk (depth + 1) "Value"
  | binary l _ r _ =>
    ⟨depth, label, "BinOp"⟩ :: l.walk (depth + 1) "Left" ++ r.walk (depth + 1) "Right"
  | ifThen c t _ =>
    ⟨depth, label, "If"⟩ :: c.walk (depth + 1) "Condition" ++ t.walk (depth + 1) "Then"
  | ifElse c t e _ =>
    ⟨depth, label, "If"⟩ :: c.walk (depth + 1) "Condition" ++ t.walk (depth + 1) "Then" ++
      e.walk (depth + 1) "Else"
  | forLoop i c u b _ =>
    ⟨depth, label, "For"⟩ :: i.walk (depth + 1) "Initialization" ++
      c.walk (depth + 1) "Condition" ++ u.walk (depth + 1) "Update" ++ b.walk (depth + 1) "Body"
  | whileLoop c b _ =>
    ⟨depth, label, "While"⟩ :: c.walk (depth + 1) "Condition" ++ b.walk (depth + 1) "Body"
  | retValue v _ => ⟨depth, label, "Return"⟩ :: v.walk (depth + 1) "Value"
  | block ss _ => ⟨depth, label, "Block"⟩ :: walkAll (depth + 1) 0 ss
  | n => [⟨depth, label, n.kindName⟩]

/-- The nodes of statements that are numbered from `index` on. -/
def walkAll (depth index : Nat) : List Node → List Stop
  | [] => []
  | s :: ss => s.walk depth ("[" ++ toString index ++ "]") ++ walkAll depth (index + 1) ss

end

end Node

end ThreeAddress
