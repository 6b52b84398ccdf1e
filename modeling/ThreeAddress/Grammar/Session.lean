import ThreeAddress.Grammar.Statement

/-!
# Reading a source text

A session reads a source text token by token, each token only when it is asked for, so that a
problem of the grammar comes before a string that is not closed further on. After a problem of the
grammar the session can go on from the token at fault.
-/

namespace ThreeAddress.Grammar

/-- A reader over the tokens of a source text. -/
structure Session where
  scan : Scan
  reader : Reader

namespace Session

/-- Starts to read a source text; this takes the first token. -/
def start (source file : String) (lines : List String) : Except Problem Session := do
  let scan := Scan.ofSource source file
  let reader ← Reader.ofSupply scan.supply lines
  return ⟨scan, reader⟩

/-- Takes a parsing step. -/
def take (step : Parse (List Node)) (s : Session) : Except Problem (List Node) × Session :=
  let (result, reader) := run step s.reader
  (result, { s with reader })

/-- Reads statements up to the end of input. -/
def program (s : Session) : Except Problem (List Node) × Session := s.take Grammar.program

/-- The reads that have been made so far. -/
def made (s : Session) : List (Token × Cursor) :=
  s.scan.reads.take (s.scan.reads.length - s.reader.supply.upcoming.length)

/-- Whether a string that is not closed has come up. -/
def broken (s : Session) : Bool := s.scan.fault.isSome && s.reader.supply.fault.isNone

/-- How far the source has been read. -/
def position (s : Session) : Nat :=
  if s.broken then s.scan.stop.offset
  else
    match s.made.getLast? with
    | some (_, cursor) => cursor.offset
    | none => 0

end Session

/-- What a parsing step reads from a source text, with the tokens that were taken for it. -/
def ofSourceBy (step : Parse (List Node)) (source file : String) :
    Except Problem (List Node) × List Token :=
  match Session.start source file (Text.lines source) with
  | .error p => (.error p, [])
  | .ok s =>
    let (result, s) := s.take step
    (result, s.made.map (·.1))

/-- A program read from a source text, with the tokens that were taken for it. -/
def ofSource (source file : String) : Except Problem (List Node) × List Token :=
  ofSourceBy program source file

end ThreeAddress.Grammar
