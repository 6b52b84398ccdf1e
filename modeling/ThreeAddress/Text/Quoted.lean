import ThreeAddress.Text.Unprintable

/-!
# Quoted text

A text shown between quotes on one line, so that every character can be told. Single quotes are
used, unless the text has a single quote and no double quote. A backslash stands before the quote
in use and before a backslash; newline, carriage return and tabulator have letters of their own;
other unprintable characters are shown by their number in two, four or eight hexadecimal digits.
-/

namespace ThreeAddress.Text

/-- The number in hexadecimal digits, filled up with zeros to the given width. -/
def hexadecimal (width n : Nat) : List Char :=
  let digits := Nat.toDigits 16 n
  List.replicate (width - digits.length) '0' ++ digits

/-- The written form of one character between the given quotes. -/
def quotedChar (quote c : Char) : List Char :=
  if c = quote ∨ c = '\\' then ['\\', c]
  else if c = '\n' then ['\\', 'n']
  else if c = '\r' then ['\\', 'r']
  else if c = '\t' then ['\\', 't']
  else if isUnprintable c then
    if c.toNat < 0x100 then '\\' :: 'x' :: hexadecimal 2 c.toNat
    else if c.toNat < 0x10000 then '\\' :: 'u' :: hexadecimal 4 c.toNat
    else '\\' :: 'U' :: hexadecimal 8 c.toNat
  else [c]

/-- The quote to use for a text. -/
def quoteFor (text : List Char) : Char :=
  if '\'' ∈ text ∧ '"' ∉ text then '"' else '\''

/-- The text between quotes. -/
def quoted (text : String) : String :=
  let quote := quoteFor text.toList
  String.ofList (quote :: text.toList.flatMap (quotedChar quote) ++ [quote])

end ThreeAddress.Text
