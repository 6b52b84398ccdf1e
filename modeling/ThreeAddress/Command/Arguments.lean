import ThreeAddress.Text.Quoted

/-!
# Arguments

The arguments of the command: one input file and options, in any order. An option that takes a value
finds it in the next argument, behind an equals sign, or right behind its letter; letters can be
joined. After a double dash everything is a file.

A long option that is misspelt is reported without the options that it may have been meant for: the
suggestions are left out.
-/

namespace ThreeAddress.Command

/-- What to report instead of writing code. -/
inductive Mode where
  | tokens
  | tree
  | check
  | full
  deriving DecidableEq, Repr

/-- Requests for information about the command itself. -/
inductive Inquiry where
  | version
  | help
  deriving DecidableEq, Repr

/-- What the arguments ask for. -/
structure Request where
  files : List String := []
  output : Option String := none
  modes : List Mode := []
  noFold : Bool := false
  noAnalyze : Bool := false
  verbose : Bool := false
  /-- The first request for information, which comes before everything else. -/
  inquiry : Option Inquiry := none
  deriving DecidableEq, Repr

/-- How the command can be used wrongly. -/
inductive Misuse where
  | unknownOption (name : String)
  | missingValue (option : String)
  | needlessValue (option : String)
  | noInput
  | absentInput (name : String)
  | directoryInput (name : String)
  | directoryOutput (name : String)
  | extraFiles (names : List String)
  deriving DecidableEq, Repr

/-- The wording of a misuse. -/
def Misuse.message : Misuse → String
  | unknownOption name => "No such option: " ++ name
  | missingValue option => "Option '" ++ option ++ "' requires an argument."
  | needlessValue option => "Option '" ++ option ++ "' does not take a value."
  | noInput => "Missing argument 'INPUT_FILE'."
  | absentInput name =>
    "Invalid value for 'INPUT_FILE': File " ++ Text.quoted name ++ " does not exist."
  | directoryInput name =>
    "Invalid value for 'INPUT_FILE': File " ++ Text.quoted name ++ " is a directory."
  | directoryOutput name =>
    "Invalid value for '-o' / '--output': File " ++ Text.quoted name ++ " is a directory."
  | extraFiles names =>
    "Got unexpected extra argument" ++ (if names.length = 1 then "" else "s") ++
      " (" ++ " ".intercalate names ++ ")"

/-- The report of a misuse. -/
def Misuse.report (m : Misuse) : String :=
  "Usage: main [OPTIONS] INPUT_FILE\nTry 'main --help' for help.\n\nError: " ++ m.message ++ "\n"

namespace Request

/-- The request with a further mode. -/
def addMode (r : Request) (m : Mode) : Request :=
  if m ∈ r.modes then r else { r with modes := r.modes ++ [m] }

/-- The request with an inquiry, unless there was one before. -/
def addInquiry (r : Request) (i : Inquiry) : Request :=
  { r with inquiry := some (r.inquiry.getD i) }

/-- What an option without a value does. -/
def flag? (name : String) : Option (Request → Request) :=
  match name with
  | "--tokens" => some (·.addMode .tokens)
  | "--ast" => some (·.addMode .tree)
  | "--check" => some (·.addMode .check)
  | "--full" => some (·.addMode .full)
  | "--no-fold" => some fun r => { r with noFold := true }
  | "--no-analyze" => some fun r => { r with noAnalyze := true }
  | "--verbose" => some fun r => { r with verbose := true }
  | "--version" => some (·.addInquiry .version)
  | "--help" => some (·.addInquiry .help)
  | _ => none

/-- The effect of one argument: a new request, or a request that waits for the output's name. -/
inductive Effect where
  | done (r : Request)
  | waiting (r : Request) (option : String)
  | wrong (m : Misuse)

/-- The effect of an option with a long name, which may have a value behind an equals sign. -/
def long (r : Request) (argument : String) : Effect :=
  let (name, value) := argument.toList.span (· ≠ '=')
  let name := String.ofList name
  match flag? name, value with
  | some set, [] => .done (set r)
  | some _, _ => .wrong (.needlessValue name)
  | none, value =>
    if name = "--output" then
      match value with
      | [] => .waiting r name
      | _ :: text => .done { r with output := some (String.ofList text) }
    else .wrong (.unknownOption name)

/-- The effect of some letters behind a dash. -/
def short (r : Request) : List Char → Effect
  | [] => .done r
  | 'v' :: rest => short { r with verbose := true } rest
  | 'o' :: [] => .waiting r "-o"
  | 'o' :: text => .done { r with output := some (String.ofList text) }
  | c :: _ => .wrong (.unknownOption (String.ofList ['-', c]))

/-- The effect of an argument. -/
def effect (r : Request) (argument : String) : Effect :=
  match argument.toList with
  | '-' :: '-' :: _ => r.long argument
  | '-' :: c :: rest => r.short (c :: rest)
  | _ => .done { r with files := r.files ++ [argument] }

/-- Takes further arguments into a request. -/
def addAll (r : Request) : List String → Except Misuse Request
  | [] => .ok r
  | "--" :: rest => .ok { r with files := r.files ++ rest }
  | argument :: rest =>
    match r.effect argument, rest with
    | .done r, rest => r.addAll rest
    | .waiting r _, value :: rest => addAll { r with output := some value } rest
    | .waiting _ option, [] => .error (.missingValue option)
    | .wrong m, _ => .error m

/-- What some arguments ask for. -/
def ofArguments (arguments : List String) : Except Misuse Request := addAll {} arguments

end Request

end ThreeAddress.Command
