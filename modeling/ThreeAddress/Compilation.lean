import ThreeAddress.Stack.Folding
import ThreeAddress.Stack.Grammar
import ThreeAddress.Stack.Height
import ThreeAddress.Stack.Typing

/-!
# Compilation

The way from a source text to three-address code. All tokens are read first, so that a string
without an end comes before any problem of the grammar. Checking and folding can be switched off.

A compilation runs on a stack of calls, and nesting for which the stack has no room ends it in a
failure that is no problem of the program. The definitions that name no stack are those on a stack
without a limit; there is none in practice, so what they say of a program holds as far as the stack
has room for it.
-/

namespace ThreeAddress

/-! ## Options -/

/-- Which of the optional phases are run. -/
structure Options where
  analyze : Bool := true
  fold : Bool := true
  deriving DecidableEq, Repr

namespace Options

/-- The words that switch an option off and on. -/
def flag? (word : String) : Option Bool :=
  if word ∈ ["0", "false", "no", "off"] then some false
  else if word ∈ ["1", "true", "yes", "on"] then some true
  else none

/-- The setting of an option in an environment. Blanks around the word and its case do not matter;
any other word leaves the option alone. -/
def setting? (environment : List (String × String)) (name : String) : Option Bool := do
  let text ← environment.lookup name
  flag? (String.ofList ((Text.trim text.toList).map Char.toLower))

/-- The options that an environment asks for. -/
def ofEnvironment (environment : List (String × String)) : Options where
  analyze := (setting? environment "MINITAC_ANALYZE").getD true
  fold := (setting? environment "MINITAC_FOLD").getD true

end Options

/-! ## Results -/

/-- What a compilation has brought forth. There is no table of variables if types were not
checked. -/
structure Compilation where
  file : String := ""
  finished : Bool := false
  tokens : List Token := []
  program : List Node := []
  symbols : Option Symbols := none
  optimized : List Node := []
  code : List Instruction := []

namespace Compilation

/-- The lines of the code. -/
def lines (c : Compilation) : List String := c.code.map Instruction.text

/-- A report of all phases. -/
def report (c : Compilation) : String :=
  "\n".intercalate ("=== Semantic Analysis ===" ::
    (if c.symbols.isSome then [] else ["(skipped)"]) ++
    "=== Optimized AST ===" :: Node.inlineAll c.optimized ++
    "=== Intermediate Code ===" :: c.lines)

/-- The report of all phases, written on a stack. -/
def reportOn (stack : Stack) (c : Compilation) : Except Failure String :=
  if stack.fits (3 * Node.heightAll c.optimized) then .ok c.report else .error .exhausted

end Compilation

/-! ## Phases -/

/-- Takes what was read on a stack. If the stack has a limit, then nesting that is too deep for the
reader has come up against it. -/
def Work.acceptOn {α : Type} (stack : Stack) (result : Except Problem α) : Work α :=
  match stack, result with
  | some _, .error p => throw (if p.cause = .tooDeep then .exhausted else .problem p)
  | _, result => accept result

/-- The table of variables that a check builds. -/
def tabulate (check : Typing.Check Unit) : Work Symbols := fun notices =>
  match Typing.run check { notices } with
  | (.ok _, state) => .ok state.symbols state.notices
  | (.error e, state) => .error e state.notices

/-- The table of variables of a program that passes the check on a stack. -/
def typecheckOn (stack : Stack) (lines : List String) (program : List Node) : Work Symbols :=
  tabulate (Typing.checkAllOn stack lines program)

/-- The table of variables of a program that passes the check. -/
def typecheck (lines : List String) (program : List Node) : Work Symbols :=
  tabulate (Typing.checkAll lines program)

/-- A program read from a source text on a stack, each token when it is needed. -/
def parseSourceOn (stack : Stack) (source file : String) : Work (List Node) := do
  let (result, taken) := Grammar.ofSourceBy (Grammar.programOn stack) source file
  Work.tellAll (Token.notices taken)
  Work.acceptOn stack result

/-- A program read from a source text, each token when it is needed. -/
def parseSource (source file : String) : Work (List Node) := parseSourceOn none source file

theorem parseSource_unlimited (source file : String) :
    parseSource source file = (do
      let (result, taken) := Grammar.ofSource source file
      Work.tellAll (Token.notices taken)
      Work.accept result) := rfl

/-- Compiles a source text on a stack. -/
def compileOn (stack : Stack) (options : Options) (source file : String) : Work Compilation := do
  let scan := Scan.ofSource source file
  Work.tellAll (Token.notices scan.tokens)
  let tokens ← Work.accept scan.result
  Work.tell (.tokenCount file tokens.length)
  let lines := Text.lines source
  let program ← Work.acceptOn stack (Grammar.ofTokensBy (Grammar.programOn stack) tokens lines)
  Work.tell (.statementCount file program.length)
  let symbols ←
    if options.analyze then do
      let symbols ← typecheckOn stack lines program
      Work.tell (.typed file)
      pure (some symbols)
    else pure none
  let optimized ←
    if options.fold then do
      let optimized ← Folding.foldAllOn stack program
      Work.tell (.folded file)
      pure optimized
    else pure program
  let code ← Work.take (Lowering.generateAllOn stack optimized)
  Work.tell (.lineCount file code.length)
  return { file, finished := true, tokens, program, symbols, optimized, code }

/-- Compiles a source text. -/
def compile (options : Options) (source file : String) : Work Compilation :=
  compileOn none options source file

/-- Without a limit, each phase is the one that names no stack. -/
theorem compile_unlimited (options : Options) (source file : String) :
    compile options source file = do
      let scan := Scan.ofSource source file
      Work.tellAll (Token.notices scan.tokens)
      let tokens ← Work.accept scan.result
      Work.tell (.tokenCount file tokens.length)
      let lines := Text.lines source
      let program ← Work.accept (Grammar.ofTokens tokens lines)
      Work.tell (.statementCount file program.length)
      let symbols ←
        if options.analyze then do
          let symbols ← typecheck lines program
          Work.tell (.typed file)
          pure (some symbols)
        else pure none
      let optimized ←
        if options.fold then do
          let optimized ← Folding.foldAll program
          Work.tell (.folded file)
          pure optimized
        else pure program
      let code ← Work.take (Lowering.generateAll optimized)
      Work.tell (.lineCount file code.length)
      return { file, finished := true, tokens, program, symbols, optimized, code } := rfl

end ThreeAddress
