import ThreeAddress.Problem
import ThreeAddress.Text.Line
import ThreeAddress.Token.Cursor

/-!
# The token reader

A reader holds one token, the current one, and a supply of the tokens after it. The supply may end
in a problem, which comes up when the token behind the last good one is asked for; after that, and
after the last token of any supply, there is only the end of input. The end of input is never left.

A parsing step either succeeds or throws a problem; in both cases the reader stays where it is, so
that reading can go on from there.
-/

namespace ThreeAddress

/-- The end of input that follows a supply of tokens. -/
def Token.endMark : Token := ⟨.endOfInput, "", none⟩

/-- The tokens still to come, and the problem that lies behind them. -/
structure Supply where
  upcoming : List Token
  fault : Option Problem := none

/-- Takes the next token from a supply. The problem comes up once. -/
def Supply.pull (s : Supply) : Except Problem Token × Supply :=
  match s.upcoming, s.fault with
  | t :: rest, fault => (.ok t, ⟨rest, fault⟩)
  | [], some p => (.error p, ⟨[], none⟩)
  | [], none => (.ok .endMark, s)

/-- The tokens of a scan, and the problem that ended it. -/
def Scan.supply (s : Scan) : Supply := ⟨s.tokens, s.fault⟩

/-- A supply of tokens of which one is current, with the lines to quote in problems. -/
structure Reader where
  current : Token
  supply : Supply
  lines : List String

/-- The line of a place, if it is among the given lines. -/
def quoteLine (lines : List String) (location : Option Location) : Option String :=
  location.bind fun l => Text.line? lines l.line

/-- A parsing step. -/
abbrev Parse := EStateM Problem Reader

namespace Reader

/-- A reader whose current token is the first of the supply. -/
def ofSupply (supply : Supply) (lines : List String) : Except Problem Reader :=
  match supply.pull with
  | (.ok t, rest) => .ok ⟨t, rest, lines⟩
  | (.error p, _) => .error p

/-- The number of tokens in reach; no step takes more. -/
def size (r : Reader) : Nat := r.supply.upcoming.length + 1

/-- A problem at the current token. -/
def problem (r : Reader) (cause : Cause) : Problem :=
  ⟨cause, r.current.location, quoteLine r.lines r.current.location⟩

end Reader

namespace Parse

/-- Rejects the current token. -/
def reject {α : Type} (cause : Reader → Cause) : Parse α := fun r =>
  .error (r.problem (cause r)) r

/-- The place of the current token. -/
def here : Parse (Option Location) := fun r => .ok r.current.location r

/-- The kind of the current token. -/
def kind : Parse Kind := fun r => .ok r.current.kind r

/-- Takes the current token, and makes the next one current. -/
def advance : Parse Token := fun r =>
  if r.current.kind = .endOfInput then .ok r.current r
  else
    match r.supply.pull with
    | (.ok t, supply) => .ok r.current { r with current := t, supply }
    | (.error p, supply) => .error p { r with supply }

/-- How a kind of token is called where one is missing. -/
def wanted : Kind → String
  | .identifier => "identifier"
  | .assign => "'='"
  | .leftParen => "'('"
  | .rightParen => "')'"
  | .leftBrace => "'\x7b'"
  | .rightBrace => "'\x7d'"
  | .semicolon => "';'"
  | .ifWord => "'if'"
  | .elseWord => "'else'"
  | .forWord => "'for'"
  | .whileWord => "'while'"
  | .returnWord => "'return'"
  | k => String.ofList (k.name.toList.map Char.toLower)

/-- Takes a token of the given kind. -/
def expect (k : Kind) : Parse Token := do
  if (← kind) = k then advance
  else reject fun r => .unexpectedToken r.current.describe (wanted k)

end Parse

end ThreeAddress
