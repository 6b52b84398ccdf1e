import ThreeAddress.Diagnostic

/-!
# Problems

What can be wrong with a program. A problem has a cause, which fixes its category, its wording and
its hint, a place, and the source line to quote. A phase may also meet a node that it has no rule
for, or find no room for its calls; these are failures and no problems of the program.
-/

namespace ThreeAddress

/-- The categories of problems, from general to special. -/
inductive Category where
  | general
  | lexical
  | unterminatedString
  | syntactic
  | unexpectedToken
  | missingExpression
  | semantic
  | undeclared
  | redeclared
  | typeMismatch
  | folding
  deriving DecidableEq, Repr

/-- The next more general category. -/
def Category.parent? : Category → Option Category
  | general => none
  | lexical | syntactic | semantic | folding => some general
  | unterminatedString => some lexical
  | unexpectedToken | missingExpression => some syntactic
  | undeclared | redeclared | typeMismatch => some semantic

/-- A category and all that are more general, the most special first. -/
def Category.lineage (c : Category) : List Category :=
  match c.parent? with
  | none => [c]
  | some p =>
    match p.parent? with
    | none => [c, p]
    | some g => [c, p, g]

/-- The causes of problems, with the values that their wording needs. -/
inductive Cause where
  | unterminatedString
  | unexpectedToken (found expected : String)
  /-- Nothing stands between the assignment sign and the end of the assignment. -/
  | missingExpression (found : String)
  /-- The text of an integer literal cannot be read as an integer. -/
  | unreadableInteger (length : Nat)
  /-- The text of a float literal cannot be read as a float. -/
  | unreadableFloat (text : String)
  /-- The input nests deeper than the reader is prepared for. -/
  | tooDeep
  | undeclared (name : String)
  | redeclared (name declaredType : String)
  /-- The operands of an operator have types that do not go together. -/
  | operandMismatch (left operator right : String)
  /-- The operands go together, but the operator takes numbers only. -/
  | operandsNotNumeric (left operator right : String)
  | assignmentMismatch (name target value : String)
  | conditionNotNumeric (construct actual : String)
  | untypedResult
  | divisionByZero (dividend divisor : Int)
  /-- A problem in the words of whoever reports it. -/
  | stated (category : Category) (message : String) (hint : Option String)
  | statedSyntax (message : String) (expected found hint : Option String)
  | statedMismatch (message : String) (expected actual : Option String)
  deriving DecidableEq, Repr

namespace Cause

def category : Cause → Category
  | unterminatedString => .unterminatedString
  | unexpectedToken .. => .unexpectedToken
  | missingExpression .. => .missingExpression
  | unreadableInteger .. | unreadableFloat .. | tooDeep | statedSyntax .. => .syntactic
  | undeclared .. => .undeclared
  | redeclared .. => .redeclared
  | operandMismatch .. | operandsNotNumeric .. | assignmentMismatch .. | conditionNotNumeric ..
  | untypedResult | statedMismatch .. => .typeMismatch
  | divisionByZero .. => .folding
  | stated c .. => c

/-- The message, without place and hint. -/
def message : Cause → String
  | unterminatedString => "unterminated string literal"
  | unexpectedToken found _ => "unexpected token " ++ found
  | missingExpression _ => "Missing expression after '='"
  | unreadableInteger _ => "integer literal too large"
  | unreadableFloat _ => "malformed float literal"
  | tooDeep => "input nested too deeply"
  | undeclared name => "undeclared variable '" ++ name ++ "'"
  | redeclared name _ => "variable '" ++ name ++ "' already declared"
  | operandMismatch left op right =>
    "type mismatch in binary operation: " ++ left ++ " " ++ op ++ " " ++ right
  | operandsNotNumeric left op right =>
    "incompatible types in binary operation: " ++ left ++ " " ++ op ++ " " ++ right
  | assignmentMismatch name target value =>
    "type mismatch: cannot assign " ++ value ++ " to " ++ target ++ " '" ++ name ++ "'"
  | conditionNotNumeric construct actual =>
    "invalid condition type in " ++ construct ++ ": expected int or float, got " ++ actual
  | untypedResult => "return statement returns unknown type"
  | divisionByZero a b =>
    "integer division by zero in constant expression: " ++ toString a ++ " / " ++ toString b
  | stated _ text _ | statedSyntax text .. | statedMismatch text .. => text

/-- What the grammar required, where it is known. -/
def expected? : Cause → Option String
  | unexpectedToken _ expected => some expected
  | missingExpression _ => some "expression"
  | unreadableInteger _ => some "integer literal"
  | unreadableFloat _ => some "float literal"
  | statedSyntax _ expected _ _ => expected
  | _ => none

/-- What stood there instead. -/
def found? : Cause → Option String
  | unexpectedToken found _ | missingExpression found => some found
  | unreadableInteger length => some (toString length ++ "-digit number")
  | unreadableFloat text => some text
  | statedSyntax _ _ found _ => found
  | _ => none

/-- The type that the context required, where one is to be told. -/
def expectedType? : Cause → Option String
  | operandMismatch left _ _ => some left
  | assignmentMismatch _ target _ => some target
  | conditionNotNumeric .. => some "int or float"
  | statedMismatch _ expected _ => expected
  | _ => none

/-- The type that was there instead. -/
def actualType? : Cause → Option String
  | operandMismatch _ _ right => some right
  | assignmentMismatch _ _ value => some value
  | conditionNotNumeric _ actual => some actual
  | statedMismatch _ _ actual => actual
  | _ => none

/-- The variable that a declaration problem is about. -/
def name? : Cause → Option String
  | undeclared name | redeclared name _ => some name
  | _ => none

/-- The type that a variable already has. -/
def declaredType? : Cause → Option String
  | redeclared _ type => some type
  | _ => none

/-- The hint on two types that do not match; both have to be known. -/
def typeHint : Option String → Option String → Option String
  | some expected, some actual =>
    if expected.isEmpty || actual.isEmpty then none
    else some ("expected '" ++ expected ++ "', got '" ++ actual ++ "'")
  | _, _ => none

/-- A suggestion how to mend the program. -/
def hint : Cause → Option String
  | unterminatedString => some "add closing '\"' to complete the string"
  | unexpectedToken _ expected => some ("expected " ++ expected)
  | undeclared name => some ("declare it first, e.g. 'int " ++ name ++ " = ...;'")
  | redeclared name type =>
    some ("'" ++ name ++ "' is already declared as '" ++ type ++ "'; drop the type to reassign it")
  | stated _ _ hint => hint
  | statedSyntax _ _ _ hint => hint
  | c => typeHint c.expectedType? c.actualType?

end Cause

/-- A problem with its place and the source line to quote. -/
structure Problem where
  cause : Cause
  location : Option Location := none
  line : Option String := none
  deriving DecidableEq, Repr

/-- The full report of a problem. -/
def Problem.report (p : Problem) : String :=
  ThreeAddress.report p.cause.message p.location p.cause.hint p.line

/-- The phases that treat nodes by their kind. -/
inductive Phase where
  | typing
  | folding
  | outline
  | lowering
  deriving DecidableEq, Repr

/-- Why a phase did not finish: the program has a problem, a node is of a kind that the phase has no
rule for, or the stack of calls has no room left. -/
inductive Failure where
  | problem (p : Problem)
  | unsupported (phase : Phase) (node : String)
  | exhausted
  deriving DecidableEq, Repr

/-- The report of a failure. -/
def Failure.report : Failure → String
  | problem p => p.report
  | unsupported .typing node => "SemanticAnalyzer has no handler for " ++ node ++ " nodes"
  | unsupported .folding node => "ConstantFolder has no handler for " ++ node ++ " nodes"
  | unsupported .outline node => "ASTPrinter has no handler for " ++ node ++ " nodes"
  | unsupported .lowering node => "cannot generate code for " ++ node ++ " nodes"
  | exhausted => "maximum recursion depth exceeded"

end ThreeAddress
