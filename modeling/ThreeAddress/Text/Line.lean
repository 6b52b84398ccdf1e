/-!
# Lines

Two notions of a line meet in this library. Positions count the lines that a newline ends;
a diagnostic quotes a line from the text cut at every character that ends a line in some
convention. This module holds the second, and the reading convention that turns each of the
line ends CR LF and CR into a newline.
-/

namespace ThreeAddress.Text

/-- Whether a character ends a line: newline, vertical tab, form feed, carriage return, the
separators U+001C to U+001E, next line, line separator, paragraph separator. -/
def isLineEnd (c : Char) : Bool :=
  c = '\n' || c = '\x0b' || c = '\x0c' || c = '\r' || c = '\x1c' || c = '\x1d' || c = '\x1e' ||
    c = '\u0085' || c = '\u2028' || c = '\u2029'

/-- The lines of a text of which `line` (reversed) has been read already. Carriage return and
newline together end one line, and a line end at the end of the text opens no further line. -/
def linesFrom (line : List Char) : List Char → List String
  | [] => if line.isEmpty then [] else [String.ofList line.reverse]
  | '\r' :: '\n' :: rest => String.ofList line.reverse :: linesFrom [] rest
  | c :: rest =>
    if isLineEnd c then String.ofList line.reverse :: linesFrom [] rest
    else linesFrom (c :: line) rest

/-- The lines of a text, without their line ends. -/
def lines (text : String) : List String := linesFrom [] text.toList

/-- The text with each CR LF and each lone CR replaced by a newline. -/
def unifyNewlines : List Char → List Char
  | [] => []
  | '\r' :: '\n' :: rest => '\n' :: unifyNewlines rest
  | c :: rest => (if c = '\r' then '\n' else c) :: unifyNewlines rest

/-- The line that has the given number, counted from one. -/
def line? (lines : List String) (number : Int) : Option String :=
  if number < 1 then none else lines[(number - 1).toNat]?

end ThreeAddress.Text
