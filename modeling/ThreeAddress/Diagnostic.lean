/-!
# Diagnostics

A place in a source text, and the report of a problem found there: one line with the place and
the message, the source line with a caret under the column, and a hint.
-/

namespace ThreeAddress

/-- A place in a source text. Lines and columns count from one, the offset counts from zero. -/
structure Location where
  file : String
  line : Int
  column : Int
  offset : Int := 0
  deriving DecidableEq, Repr

/-- A place as `file:line:column`. -/
def Location.text (l : Location) : String :=
  l.file ++ ":" ++ toString l.line ++ ":" ++ toString l.column

/-- The headline of a report. -/
def headline (message : String) : Option Location → String
  | none => "error: " ++ message
  | some l => l.text ++ ": error: " ++ message

/-- The source line, indented by four, with a caret under the given column. A column below one
has no caret. -/
def excerpt (line : String) (column : Int) : List String :=
  ("    " ++ line) ::
    if 0 < column then [String.ofList (List.replicate (3 + column.toNat) ' ') ++ "^"] else []

/-- The report of a problem. The source line is shown only where the place is known, and an empty
hint is not shown. -/
def report (message : String) (location : Option Location) (hint line : Option String) :
    String :=
  let excerptLines :=
    match location, line with
    | some l, some text => excerpt text l.column
    | _, _ => []
  let hintLines :=
    match hint with
    | some text => if text.isEmpty then [] else ["hint: " ++ text]
    | none => []
  "\n".intercalate (headline message location :: excerptLines ++ hintLines)

end ThreeAddress
