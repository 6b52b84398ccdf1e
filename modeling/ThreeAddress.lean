import ThreeAddress.Main
import ThreeAddress.Proofs.Tree.Shape
import ThreeAddress.Proofs.Execution.Basic
import ThreeAddress.Proofs.Execution.Steps
import ThreeAddress.Proofs.Code.Emission
import ThreeAddress.Proofs.Code.Segment
import ThreeAddress.Proofs.Code.Simulation
import ThreeAddress.Proofs.Execution.Equivalence
import ThreeAddress.Proofs.Folding
import ThreeAddress.Proofs.Grammar.Derivation
import ThreeAddress.Proofs.Literal.Digits
import ThreeAddress.Proofs.Token.Spelling
import ThreeAddress.Proofs.Grammar.Reading
import ThreeAddress.Proofs.Grammar.Soundness
import ThreeAddress.Proofs.Grammar.Completeness
import ThreeAddress.Proofs.Grammar.Exactness
import ThreeAddress.Proofs.Typing.Judgement
import ThreeAddress.Proofs.Typing.Safety
import ThreeAddress.Proofs.Literal.Written
import ThreeAddress.Proofs.Typing.Folding
import ThreeAddress.Proofs.Grammar.Regularity
import ThreeAddress.Proofs.Compilation.Phases
import ThreeAddress.Proofs.Compilation.Totality
import ThreeAddress.Proofs.Code.Temporaries
import ThreeAddress.Proofs.Token.Gap
import ThreeAddress.Proofs.Token.Longest
import ThreeAddress.Proofs.Token.Decomposition
import ThreeAddress.Proofs.Token.Seam
import ThreeAddress.Proofs.Token.Printing
import ThreeAddress.Proofs.Tree.Places
import ThreeAddress.Proofs.Grammar.Parallel
import ThreeAddress.Proofs.Compilation.Lazy
import ThreeAddress.Proofs.Compilation.Layout
import ThreeAddress.Proofs.Compilation.Agreement
import ThreeAddress.Proofs.Compilation.Concatenation
import ThreeAddress.Proofs.Files.Writing
import ThreeAddress.Proofs.Typing.Notices
import ThreeAddress.Proofs.Compilation.Stages
import ThreeAddress.Proofs.Command.Delivery
import ThreeAddress.Proofs.Command.Effects
import ThreeAddress.Proofs.Command.Modes
import ThreeAddress.Proofs.Tree.Parts
import ThreeAddress.Proofs.Compilation.Spelled
import ThreeAddress.Proofs.Number.Rounding
import ThreeAddress.Proofs.Number.Magnitude
import ThreeAddress.Proofs.Number.Numeral
import ThreeAddress.Proofs.Number.Text
import ThreeAddress.Proofs.Code.FileText
import ThreeAddress.Proofs.Code.Operands
import ThreeAddress.Proofs.Files.Suffix
import ThreeAddress.Proofs.Command.Source
import ThreeAddress.Proofs.Grammar.Viable
import ThreeAddress.Proofs.Compilation.Rejection
import ThreeAddress.Proofs.Grammar.Origin
import ThreeAddress.Proofs.Typing.Rule
import ThreeAddress.Proofs.Typing.Growth
import ThreeAddress.Proofs.Typing.Decision
import ThreeAddress.Proofs.Typing.Acceptance
import ThreeAddress.Proofs.Text.Rows
import ThreeAddress.Proofs.Token.Position
import ThreeAddress.Proofs.Typing.Blame
import ThreeAddress.Proofs.Compilation.Quotation
import ThreeAddress.Proofs.Compilation.Resumption
import ThreeAddress.Proofs.Code.Jumps
import ThreeAddress.Proofs.Code.SingleUse
import ThreeAddress.Proofs.Tree.Writing
import ThreeAddress.Proofs.Compilation.Reparsing
import ThreeAddress.Proofs.Folding.Relation
import ThreeAddress.Proofs.Folding.Idempotence
import ThreeAddress.Proofs.Folding.Constants
import ThreeAddress.Proofs.Code.Skeleton
import ThreeAddress.Proofs.Folding.Shortening
import ThreeAddress.Proofs.Typing.Survival
import ThreeAddress.Proofs.Token.Calls
import ThreeAddress.Proofs.Token.Place
import ThreeAddress.Proofs.Token.Cut
import ThreeAddress.Proofs.Folding.Places
import ThreeAddress.Proofs.Compilation.Located
import ThreeAddress.Proofs.Number.Comparison
import ThreeAddress.Proofs.Text.Alignment
import ThreeAddress.Proofs.Tree.Legible
import ThreeAddress.Proofs.Tree.Inline
import ThreeAddress.Proofs.Tree.Entries
import ThreeAddress.Proofs.Tree.Outline
import ThreeAddress.Proofs.Compilation.Legibility
import ThreeAddress.Proofs.Compilation.Outline
import ThreeAddress.Proofs.Stack.Settling
import ThreeAddress.Proofs.Stack.Grammar
import ThreeAddress.Proofs.Stack.Height
import ThreeAddress.Proofs.Stack.Phases
import ThreeAddress.Proofs.Stack.Compilation
import ThreeAddress.Proofs.Stack.Exhaustion
import ThreeAddress.Proofs.Command.Stack
