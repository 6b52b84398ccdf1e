import ThreeAddress.Diagnostic
import ThreeAddress.Text.Blank
import ThreeAddress.Text.Quoted

/-!
# Tokens

The words of the language: a kind, the text, and the place where the word stands. The place takes
no part in comparing tokens.
-/

namespace ThreeAddress

/-- The kinds of tokens. -/
inductive Kind where
  | intType
  | floatType
  | stringType
  | ifWord
  | elseWord
  | forWord
  | whileWord
  | returnWord
  | identifier
  | intLiteral
  | floatLiteral
  | stringLiteral
  | assign
  | plus
  | minus
  | times
  | divide
  | equal
  | notEqual
  | less
  | greater
  | lessEqual
  | greaterEqual
  | leftParen
  | rightParen
  | leftBrace
  | rightBrace
  | semicolon
  | comma
  /-- A character that belongs to no token, or a comment that is not closed. -/
  | unknown
  | endOfInput
  deriving DecidableEq, Repr

namespace Kind

/-- The name of a kind in listings and reports. -/
def name : Kind → String
  | intType => "INT_KEYWORD"
  | floatType => "FLOAT_KEYWORD"
  | stringType => "STRING_KEYWORD"
  | ifWord => "IF"
  | elseWord => "ELSE"
  | forWord => "FOR"
  | whileWord => "WHILE"
  | returnWord => "RETURN"
  | identifier => "IDENTIFIER"
  | intLiteral => "INT_LITERAL"
  | floatLiteral => "FLOAT_LITERAL"
  | stringLiteral => "STRING_LITERAL"
  | assign => "ASSIGN"
  | plus => "PLUS"
  | minus => "MINUS"
  | times => "MUL"
  | divide => "DIV"
  | equal => "EQ"
  | notEqual => "NE"
  | less => "LT"
  | greater => "GT"
  | lessEqual => "LE"
  | greaterEqual => "GE"
  | leftParen => "LPAREN"
  | rightParen => "RPAREN"
  | leftBrace => "LBRACE"
  | rightBrace => "RBRACE"
  | semicolon => "SEMICOLON"
  | comma => "COMMA"
  | unknown => "UNKNOWN"
  | endOfInput => "EOF"

/-- Every kind once. -/
def all : List Kind :=
  [intType, floatType, stringType, ifWord, elseWord, forWord, whileWord, returnWord, identifier,
   intLiteral, floatLiteral, stringLiteral, assign, plus, minus, times, divide, equal, notEqual,
   less, greater, lessEqual, greaterEqual, leftParen, rightParen, leftBrace, rightBrace,
   semicolon, comma, unknown, endOfInput]

/-- The kind that has the given name. -/
def ofName? (name : String) : Option Kind := all.find? (·.name = name)

/-- The kind of a word: a keyword's own kind, and otherwise `identifier`. -/
def ofWord (word : String) : Kind :=
  if word = "int" then intType
  else if word = "float" then floatType
  else if word = "string" then stringType
  else if word = "if" then ifWord
  else if word = "else" then elseWord
  else if word = "for" then forWord
  else if word = "while" then whileWord
  else if word = "return" then returnWord
  else identifier

/-- The kind of a token of one character. -/
def ofSymbol? : Char → Option Kind
  | '=' => some assign
  | '+' => some plus
  | '-' => some minus
  | '*' => some times
  | '/' => some divide
  | '<' => some less
  | '>' => some greater
  | '(' => some leftParen
  | ')' => some rightParen
  | '{' => some leftBrace
  | '}' => some rightBrace
  | ';' => some semicolon
  | ',' => some comma
  | _ => none

/-- The kind of a token of two characters. -/
def ofPair? : Char → Char → Option Kind
  | '=', '=' => some equal
  | '!', '=' => some notEqual
  | '<', '=' => some lessEqual
  | '>', '=' => some greaterEqual
  | _, _ => none

/-- Whether tokens of this kind name a type. -/
def isType : Kind → Bool
  | intType | floatType | stringType => true
  | _ => false

theorem mem_all (k : Kind) : k ∈ all := by cases k <;> decide

theorem ofName?_name (k : Kind) : ofName? k.name = some k := by cases k <;> rfl

theorem name_injective {a b : Kind} (h : a.name = b.name) : a = b := by
  have : ofName? a.name = ofName? b.name := congrArg ofName? h
  simpa [ofName?_name] using this

end Kind

/-- A word of the language. -/
structure Token where
  kind : Kind
  text : String
  location : Option Location := none
  deriving DecidableEq, Repr

namespace Token

/-- Whether two tokens are the same word, wherever they stand. -/
def same (a b : Token) : Bool := a.kind = b.kind && a.text = b.text

/-- A token for reports to a user. -/
def describe (t : Token) : String :=
  if t.kind = .endOfInput then "end of input" else t.kind.name ++ " '" ++ t.text ++ "'"

/-- A token with all its parts, for inspection. -/
def display (t : Token) : String :=
  let place :=
    match t.location with
    | none => ""
    | some l => ", " ++ toString l.line ++ ":" ++ toString l.column
  "Token(" ++ t.kind.name ++ ", " ++ Text.quoted t.text ++ place ++ ")"

/-- The text that stands for a block comment without an end. -/
def unclosedComment : String := "Unterminated comment"

/-! ## Listing -/

/-- A text filled up with spaces to the given width. -/
def padEnd (width : Nat) (text : String) : String :=
  text ++ String.ofList (List.replicate (width - text.length) ' ')

/-- The line of a listing for one token, without blanks at its end. -/
def row (t : Token) : String :=
  String.ofList (Text.trimEnd (padEnd 20 t.kind.name ++ " " ++ padEnd 10 t.text).toList)

/-- Tokens as a table of two columns. -/
def table (tokens : List Token) : String :=
  "\n".intercalate ((padEnd 20 "Token Type" ++ " " ++ padEnd 10 "Value") ::
    String.ofList (List.replicate 35 '-') :: tokens.map row)

end Token

end ThreeAddress
