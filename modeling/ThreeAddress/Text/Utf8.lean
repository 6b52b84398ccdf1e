import ThreeAddress.Text.Line

/-!
# UTF-8

Decoding a sequence of bytes strictly: overlong forms, surrogates and numbers above U+10FFFF are
refused. A refusal says which bytes could not be decoded and why; the bytes that it names are the
lead byte and the good continuation bytes after it.
-/

namespace ThreeAddress.Text

/-- Why bytes are no UTF-8. -/
inductive Utf8Defect where
  /-- No character starts with this byte. -/
  | invalidStart
  /-- A byte that must continue a character does not. -/
  | invalidContinuation
  /-- The bytes end inside a character. -/
  | unexpectedEnd
  deriving DecidableEq, Repr

/-- The wording of a defect. -/
def Utf8Defect.text : Utf8Defect → String
  | invalidStart => "invalid start byte"
  | invalidContinuation => "invalid continuation byte"
  | unexpectedEnd => "unexpected end of data"

/-- A refusal to decode: the place and the lead byte of the bytes at fault, how many bytes they
are, and what is wrong with them. -/
structure Utf8Error where
  position : Nat
  lead : UInt8
  width : Nat
  defect : Utf8Defect
  deriving DecidableEq, Repr

/-- The report of a refusal: a single byte is shown, several are named by their places. -/
def Utf8Error.message (e : Utf8Error) : String :=
  let bytes :=
    if e.width = 1 then
      "byte 0x" ++ String.ofList
        (let digits := Nat.toDigits 16 e.lead.toNat
         List.replicate (2 - digits.length) '0' ++ digits) ++
        " in position " ++ toString e.position
    else
      "bytes in position " ++ toString e.position ++ "-" ++ toString (e.position + e.width - 1)
  "'utf-8' codec can't decode " ++ bytes ++ ": " ++ e.defect.text

/-- What a lead byte announces: the bits that it contributes, and for each continuation byte the
range that it must lie in. Only the first one can have a narrower range than 80 to BF. -/
def utf8Lead? (lead : UInt8) : Option (Nat × List (UInt8 × UInt8)) :=
  let more : UInt8 × UInt8 := (0x80, 0xBF)
  if lead < 0x80 then some (lead.toNat, [])
  else if lead < 0xC2 then none
  else if lead < 0xE0 then some (lead.toNat - 0xC0, [more])
  else if lead = 0xE0 then some (0, [(0xA0, 0xBF), more])
  else if lead = 0xED then some (0xD, [(0x80, 0x9F), more])
  else if lead < 0xF0 then some (lead.toNat - 0xE0, [more, more])
  else if lead = 0xF0 then some (0, [(0x90, 0xBF), more, more])
  else if lead < 0xF4 then some (lead.toNat - 0xF0, [more, more, more])
  else if lead = 0xF4 then some (4, [(0x80, 0x8F), more, more])
  else none

/-- The state of the decoder inside a character: the place and the lead byte of the character,
the number of bytes read, the bits read, and the ranges of the bytes still to come. -/
structure Utf8Partial where
  position : Nat
  lead : UInt8
  width : Nat
  bits : Nat
  due : List (UInt8 × UInt8)

/-- Decodes bytes that start at the given position, inside a character or between two. -/
def utf8DecodeFrom (position : Nat) : Option Utf8Partial → List UInt8 →
    Except Utf8Error (List Char)
  | none, [] => .ok []
  | some p, [] => .error ⟨p.position, p.lead, p.width, .unexpectedEnd⟩
  | none, b :: rest =>
    match utf8Lead? b with
    | none => .error ⟨position, b, 1, .invalidStart⟩
    | some (bits, []) => (Char.ofNat bits :: ·) <$> utf8DecodeFrom (position + 1) none rest
    | some (bits, due) => utf8DecodeFrom (position + 1) (some ⟨position, b, 1, bits, due⟩) rest
  | some p, b :: rest =>
    match p.due with
    | [] => .error ⟨p.position, p.lead, p.width, .invalidContinuation⟩
    | (low, high) :: due =>
      if low ≤ b ∧ b ≤ high then
        let bits := p.bits * 64 + (b.toNat - 0x80)
        if due.isEmpty then (Char.ofNat bits :: ·) <$> utf8DecodeFrom (position + 1) none rest
        else utf8DecodeFrom (position + 1) (some ⟨p.position, p.lead, p.width + 1, bits, due⟩) rest
      else .error ⟨p.position, p.lead, p.width, .invalidContinuation⟩

/-- The characters that the bytes stand for. -/
def utf8Decode (bytes : List UInt8) : Except Utf8Error (List Char) :=
  utf8DecodeFrom 0 none bytes

/-- Reads a text file: strict UTF-8, with every line end turned into a newline. -/
def readText (bytes : List UInt8) : Except Utf8Error String :=
  (String.ofList ∘ unifyNewlines) <$> utf8Decode bytes

/-- The bytes of a text file. -/
def writeText (text : String) : List UInt8 := text.toUTF8.toList

end ThreeAddress.Text
