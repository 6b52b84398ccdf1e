import ThreeAddress.Problem
import ThreeAddress.Token.Lexeme

/-!
# Reading tokens

A cursor stands between two characters of a source text and knows its place. Reading a token moves
it past the gap and the lexeme. Past the end it goes on to read the end of input. A scan reads all
tokens up to the end of input or to a string that is not closed.

Lines end at newlines only.
-/

namespace ThreeAddress

/-- A position in a source text. -/
structure Cursor where
  file : String
  /-- The text from the cursor on. -/
  rest : List Char
  /-- The text from the start of the cursor's line on. -/
  lineStart : List Char
  line : Nat
  column : Nat
  offset : Nat
  deriving DecidableEq, Repr

namespace Cursor

/-- The cursor before the first character. -/
def start (source file : String) : Cursor := ⟨file, source.toList, source.toList, 1, 1, 0⟩

/-- The cursor one character on. -/
def advance (c : Cursor) : Cursor :=
  match c.rest with
  | [] => c
  | head :: rest =>
    if head = '\n' then
      { c with rest, lineStart := rest, line := c.line + 1, column := 1, offset := c.offset + 1 }
    else { c with rest, column := c.column + 1, offset := c.offset + 1 }

/-- The cursor some characters on. -/
def forward (c : Cursor) : Nat → Cursor
  | 0 => c
  | n + 1 => c.advance.forward n

/-- The place of the cursor. -/
def location (c : Cursor) : Location := ⟨c.file, c.line, c.column, c.offset⟩

/-- The text of the cursor's line. -/
def lineText (c : Cursor) : String := String.ofList (c.lineStart.takeWhile (· ≠ '\n'))

/-- Reads one token: the token or the problem, and the cursor behind it. A comment that is not
closed takes the rest of the text and is reported by an unknown token; a string that is not closed
takes the rest of the text too, and is a problem at its opening quote. -/
def next (c : Cursor) : Except Problem Token × Cursor :=
  let gap := Token.gap .plain c.rest
  let front := c.forward gap.length
  if gap.closed then
    match front.rest with
    | [] => (.ok ⟨.endOfInput, "", front.location⟩, front)
    | head :: tail =>
      match Token.lexeme? head tail with
      | some l => (.ok ⟨l.kind, String.ofList l.value, front.location⟩, front.forward l.length)
      | none =>
        (.error ⟨.unterminatedString, front.location, front.lineText⟩,
          front.forward front.rest.length)
  else (.ok ⟨.unknown, Token.unclosedComment, front.location⟩, front)

end Cursor

/-- The outcome of reading all tokens: the tokens, each with the cursor behind it, the problem that
ended the reading before the end of input, and the cursor at the end. -/
structure Scan where
  reads : List (Token × Cursor)
  fault : Option Problem
  stop : Cursor

namespace Scan

def tokens (s : Scan) : List Token := s.reads.map (·.1)

/-- Reads at most `n` tokens. -/
def upTo : Nat → Cursor → Scan
  | 0, c => ⟨[], none, c⟩
  | n + 1, c =>
    match c.next with
    | (.error p, after) => ⟨[], some p, after⟩
    | (.ok t, after) =>
      if t.kind = .endOfInput then ⟨[(t, after)], none, after⟩
      else
        let more := upTo n after
        { more with reads := (t, after) :: more.reads }

/-- Reads all tokens from a cursor on. Every token but the last takes at least one character. -/
def ofCursor (c : Cursor) : Scan := upTo (c.rest.length + 1) c

/-- Reads all tokens of a source text. -/
def ofSource (source file : String) : Scan := ofCursor (.start source file)

/-- The tokens, or the problem that ended the reading. -/
def result (s : Scan) : Except Problem (List Token) :=
  match s.fault with
  | none => .ok s.tokens
  | some p => .error p

end Scan

end ThreeAddress
