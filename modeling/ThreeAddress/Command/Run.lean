import ThreeAddress.Command.Arguments
import ThreeAddress.Command.Trouble
import ThreeAddress.Text.ControlSequence
import ThreeAddress.Tree.Outline

/-!
# The command

A run of the command as a function: from a file tree, an environment and arguments to an exit code,
the texts on the two channels, and the tree afterwards.

Without a mode the source file is compiled and its code written, to the named output or next to the
source file. With a mode the report is shown, or saved to the named output. At most one mode can be
chosen.

The channels are no terminals: what the command says is shown without control sequences. Notices and
files keep them.

A run has a stack of calls. Where the source file nests deeper than the stack has room for, the run
ends in internal trouble. Definitions that name no stack are for one without a limit. Of internal
trouble only the report is shown, also where all notices are asked for: the trace of the calls that
led to it is left out.
-/

namespace ThreeAddress.Command

/-- What a run of the command leaves behind. -/
structure Outcome where
  exitCode : Nat
  output : String
  errors : String
  tree : FileTree

/-- The text that introduces the command. -/
def help : String :=
  "Usage: main [OPTIONS] INPUT_FILE\n\n" ++
  "  Compile MiniTac source code to three-address code.\n\n" ++
  "  INPUT_FILE is the source file to compile.\n\n" ++
  "  Examples:\n" ++
  "      mtc prog.mt                  # Outputs prog.tac\n" ++
  "      mtc prog.mt -o out.tac       # Specify output file\n" ++
  "      mtc --tokens prog.mt         # Show tokens\n" ++
  "      mtc --ast prog.mt            # Show the syntax tree\n" ++
  "      mtc --check prog.mt          # Semantic analysis only\n" ++
  "      mtc --full prog.mt           # Full pipeline report\n\n" ++
  "  Environment:\n" ++
  "      MINITAC_ANALYZE=0            # Same as --no-analyze\n" ++
  "      MINITAC_FOLD=0               # Same as --no-fold\n\n" ++
  "Options:\n" ++
  "  -o, --output FILE  Output file (default: input.tac; report modes print to\n" ++
  "                     stdout)\n" ++
  "  --tokens           Print the token table and exit\n" ++
  "  --ast              Print the AST and exit\n" ++
  "  --check            Run semantic analysis only\n" ++
  "  --full             Print the full pipeline report (analysis, optimized AST,\n" ++
  "                     TAC)\n" ++
  "  --no-fold          Skip constant folding\n" ++
  "  --no-analyze       Skip semantic analysis\n" ++
  "  -v, --verbose      Verbose output\n" ++
  "  --version          Show the version and exit.\n" ++
  "  --help             Show this message and exit.\n"

/-- The version of the command. -/
def version : String := "mtc, version 1.0.0\n"

/-- The report of two modes at once. -/
def exclusiveModes : String :=
  "Error: --tokens, --ast, --check and --full are mutually exclusive\n"

/-- The options of the compiler: those of the environment, less what the request switches off. -/
def Request.options (r : Request) (environment : List (String × String)) : Options :=
  let options := Options.ofEnvironment environment
  { analyze := options.analyze && !r.noAnalyze, fold := options.fold && !r.noFold }

/-- The line of a notice on the error channel. Debugging notices are shown only on request, and then
all notices show their level. -/
def noticeLine? (verbose : Bool) (n : Notice) : Option String :=
  if verbose then some (n.level.name ++ ": " ++ n.text ++ "\n")
  else if n.level = .debug then none
  else some (n.text ++ "\n")

/-- The lines of some notices. -/
def noticeLines (verbose : Bool) (ns : List Notice) : String :=
  String.join (ns.filterMap (noticeLine? verbose))

/-- Shows a report, or saves it. Gives the text for the output channel and the tree afterwards. -/
def present (tree : FileTree) (output : Option String) (text : String) :
    Task (String × FileTree) := do
  match output with
  | none => return (text ++ "\n", tree)
  | some name =>
    let path := Path.ofString name
    let tree ← Task.writeFile tree path (text ++ "\n")
    return ("Saved to: " ++ path.name ++ "\n", tree)

/-- What the command says about a compilation whose code has been written. -/
def summary (verbose : Bool) (input output : Path) (c : Compilation) : String :=
  (if verbose then
    "Tokenized: " ++ toString c.tokens.length ++ " tokens\n" ++
    "Parsed: " ++ toString c.program.length ++ " statements\n" ++
    "Wrote " ++ toString c.code.length ++ " TAC lines to " ++ output.text ++ "\n"
  else "") ++
  "Compiled " ++ input.text ++ " -> " ++ output.text ++ "\n"

/-- Where the code goes. -/
def outputPath (r : Request) (input : Path) : Path :=
  match r.output with
  | some name => .ofString name
  | none => input.withSuffix ".tac"

/-- Does what is asked for with an input file, on a stack. -/
def performOn (stack : Stack) (tree : FileTree) (options : Options) (r : Request) (input : Path) :
    Task (String × FileTree) := do
  Task.ofWork (Work.tell (.started input.text options.analyze options.fold))
  let source ← Task.readSource tree input
  let file := input.text
  match r.modes with
  | .tokens :: _ =>
    let scan := Scan.ofSource source file
    Task.ofWork (Work.tellAll (Token.notices scan.tokens))
    let tokens ← Task.ofWork (Work.accept scan.result)
    present tree r.output (Token.table tokens)
  | .tree :: _ =>
    let program ← Task.ofWork (parseSourceOn stack source file)
    let outline ← Task.ofWork (Work.take (Node.outlineProgramOn stack program))
    present tree r.output outline
  | .check :: _ =>
    let program ← Task.ofWork (parseSourceOn stack source file)
    let _ ← Task.ofWork (typecheckOn stack (Text.lines source) program)
    present tree r.output "Semantic analysis done."
  | .full :: _ =>
    let compilation ← Task.ofWork (compileOn stack options source file)
    let report ← Task.ofWork (Work.take (compilation.reportOn stack))
    present tree r.output report
  | [] =>
    let compilation ← Task.ofWork (compileOn stack options source file)
    let output := outputPath r input
    let tree ← Task.writeFile tree output (fileText compilation.lines)
    return (summary r.verbose input output compilation, tree)

/-- Does what is asked for with an input file. -/
def perform (tree : FileTree) (options : Options) (r : Request) (input : Path) :
    Task (String × FileTree) :=
  performOn none tree options r input

/-- The input file of a request, if the files that it names are fit for their use. -/
def inputFile (tree : FileTree) (r : Request) : Except Misuse String :=
  match r.output with
  | some name =>
    if tree.look name = some .directory then .error (.directoryOutput name) else input
  | none => input
where
  /-- The one file that is named. -/
  input : Except Misuse String :=
    match r.files with
    | [] => .error .noInput
    | name :: more =>
      match tree.look name with
      | none => .error (.absentInput name)
      | some .directory => .error (.directoryInput name)
      | some (.file _) => if more.isEmpty then .ok name else .error (.extraFiles more)

/-- A run that ends before any work. -/
def refuse (tree : FileTree) (errors : String) : Outcome :=
  ⟨2, "", Text.withoutControl errors, tree⟩

/-- A run of the command on a stack. -/
def runOn (stack : Stack) (tree : FileTree) (environment : List (String × String))
    (arguments : List String) : Outcome :=
  match Request.ofArguments arguments with
  | .error m => refuse tree m.report
  | .ok r =>
    match r.inquiry with
    | some .version => ⟨0, version, "", tree⟩
    | some .help => ⟨0, help, "", tree⟩
    | none =>
      match inputFile tree r with
      | .error m => refuse tree m.report
      | .ok name =>
        if 1 < r.modes.length then refuse tree exclusiveModes
        else
          match Task.run (performOn stack tree (r.options environment) r (.ofString name)) with
          | (.ok (output, tree), notices) =>
            ⟨0, Text.withoutControl output, noticeLines r.verbose notices, tree⟩
          | (.error t, notices) =>
            ⟨t.kind.exitCode, "",
              noticeLines r.verbose notices ++ Text.withoutControl (t.report ++ "\n"), tree⟩

/-- A run of the command. -/
def run (tree : FileTree) (environment : List (String × String)) (arguments : List String) :
    Outcome :=
  runOn none tree environment arguments

end ThreeAddress.Command
