import ThreeAddress.Text.DecimalDigit
import ThreeAddress.Text.Letter
import ThreeAddress.Token.Basic

/-!
# Gaps and lexemes

How a text is cut: a gap of blanks and comments, then the longest lexeme. Both are functions of
the text alone; places come in with the cursor.

A name or keyword is a letter with the letters and digits that follow it. A number is a run of
digits with at most one point after the first digit. A string runs from one double quote to the
next. Anything else is an operator of two characters, an operator or a bracket of one, or one
unknown character.
-/

namespace ThreeAddress.Token

open Text

/-! ## Gaps -/

/-- What a gap is inside of: nothing, a comment to the end of the line, or a comment that needs a
closing mark. -/
inductive GapMode where
  | plain
  | line
  | block
  deriving DecidableEq, Repr

/-- The extent of a gap, and whether each block comment in it is closed. -/
structure Gap where
  length : Nat
  closed : Bool
  deriving DecidableEq, Repr

/-- The gap with `n` more characters before it. -/
def Gap.after (n : Nat) (g : Gap) : Gap := { g with length := n + g.length }

/-- The gap at the front of a text. A line comment leaves the newline, which is a blank. -/
def gap : GapMode → List Char → Gap
  | .plain, [] => ⟨0, true⟩
  | .plain, '/' :: '/' :: rest => (gap .line rest).after 2
  | .plain, '/' :: '*' :: rest => (gap .block rest).after 2
  | .plain, c :: rest => if isBlank c then (gap .plain rest).after 1 else ⟨0, true⟩
  | .line, [] => ⟨0, true⟩
  | .line, c :: rest => if c = '\n' then (gap .plain rest).after 1 else (gap .line rest).after 1
  | .block, [] => ⟨0, false⟩
  | .block, '*' :: '/' :: rest => (gap .plain rest).after 2
  | .block, _ :: rest => (gap .block rest).after 1

/-! ## Lexemes -/

/-- A lexeme: its kind, its value, and the number of characters that it takes in the source. -/
structure Lexeme where
  kind : Kind
  value : List Char
  length : Nat
  deriving DecidableEq, Repr

/-- The lexeme that is written as its value. -/
def Lexeme.plain (kind : Kind) (value : List Char) : Lexeme := ⟨kind, value, value.length⟩

/-- Whether a character can continue a name. -/
def continuesName (c : Char) : Bool := isLetter c || isDecimalDigit c

/-- The number at the front of a text of which `head` is the first digit. -/
def number (head : Char) (tail : List Char) : Lexeme :=
  let whole := head :: tail.takeWhile isDecimalDigit
  match tail.dropWhile isDecimalDigit with
  | '.' :: rest => .plain .floatLiteral (whole ++ '.' :: rest.takeWhile isDecimalDigit)
  | _ => .plain .intLiteral whole

/-- The string whose opening quote has been read; none if no quote follows. -/
def string? (tail : List Char) : Option Lexeme :=
  let body := tail.takeWhile (· ≠ '"')
  if body.length < tail.length then some ⟨.stringLiteral, body, body.length + 2⟩ else none

/-- The operator, bracket or unknown character at the front of a text. -/
def symbol (head : Char) (tail : List Char) : Lexeme :=
  match tail.head?.bind (fun next => (Kind.ofPair? head next).map (·, next)) with
  | some (kind, next) => .plain kind [head, next]
  | none => .plain ((Kind.ofSymbol? head).getD .unknown) [head]

/-- The longest lexeme at the front of a text that starts with no gap; none is a string without an
end. -/
def lexeme? (head : Char) (tail : List Char) : Option Lexeme :=
  if isLetter head then
    let word := head :: tail.takeWhile continuesName
    some (.plain (Kind.ofWord (String.ofList word)) word)
  else if isDecimalDigit head then some (number head tail)
  else if head = '"' then string? tail
  else some (symbol head tail)

end ThreeAddress.Token
