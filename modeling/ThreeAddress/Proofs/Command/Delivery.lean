import ThreeAddress.Command.Run
import ThreeAddress.Proofs.Compilation.Stages
import ThreeAddress.Proofs.Files.Writing

/-!
# Work and delivery

What the command does with an input file has two parts: the work that a mode asks for, which sees
the source text only, and the delivery of its product, which is the only part that writes.

* `produceOn`, `deliver`: the two parts; `performOn_eq` says that there is nothing else.
* `produce_orderly`: the work of every mode fails for a problem of the program only.
* `target?`: the file that a product is written to, if any; `deliver_meets` says what becomes of the
  tree.
-/

namespace ThreeAddress

/-! ## Tasks -/

namespace Task

variable {α β : Type} {work : Work α} {task : Task α} {notices notices' : List Notice}

theorem ofWork_bind (work : Work α) (next : α → Work β) :
    ofWork (work >>= next) = ofWork work >>= fun a => ofWork (next a) := by
  funext notices
  show _ = EStateM.bind (ofWork work) _ notices
  unfold EStateM.bind ofWork
  cases h : work notices with
  | ok a t => rw [bind_of_ok h]
  | error e t => rw [bind_of_error h]

theorem ofWork_of_ok {a : α} (h : work notices = .ok a notices') :
    ofWork work notices = .ok a notices' := by
  rw [ofWork, h]

theorem ofWork_of_error {e : Failure} (h : work notices = .error e notices') :
    ofWork work notices = .error (.failure e) notices' := by
  rw [ofWork, h]

theorem run_of_ok {a : α} (h : task [] = .ok a notices) : run task = (.ok a, notices) := by
  rw [run, h]

theorem run_of_error {t : Trouble} (h : task [] = .error t notices) :
    run task = (.error t, notices) := by
  rw [run, h]

end Task

namespace Command

/-! ## The work of a mode -/

/-- What the work on a source text brings forth. -/
inductive Product where
  | report (text : String)
  | code (c : Compilation)

/-- The work that some modes ask for, on a stack; the first one counts. -/
def produceOn (stack : Stack) (options : Options) (source file : String) : List Mode → Work Product
  | .tokens :: _ => do
    let scan := Scan.ofSource source file
    Work.tellAll (Token.notices scan.tokens)
    let tokens ← Work.accept scan.result
    return .report (Token.table tokens)
  | .tree :: _ => do
    let program ← parseSourceOn stack source file
    let outline ← Work.take (Node.outlineProgramOn stack program)
    return .report outline
  | .check :: _ => do
    let program ← parseSourceOn stack source file
    let _ ← typecheckOn stack (Text.lines source) program
    return .report "Semantic analysis done."
  | .full :: _ => do
    let c ← compileOn stack options source file
    let report ← Work.take (c.reportOn stack)
    return .report report
  | [] => do
    let c ← compileOn stack options source file
    return .code c

/-- The work that some modes ask for. -/
def produce (options : Options) (source file : String) (modes : List Mode) : Work Product :=
  produceOn none options source file modes

/-- Brings a product to its place. -/
def deliver (tree : FileTree) (r : Request) (input : Path) : Product → Task (String × FileTree)
  | .report text => present tree r.output text
  | .code c => do
    let output := outputPath r input
    let tree ← Task.writeFile tree output (fileText c.lines)
    return (summary r.verbose input output c, tree)

/-- **What the command does with an input file is the work of a mode and then the delivery.** -/
theorem performOn_eq (stack : Stack) (tree : FileTree) (options : Options) (r : Request)
    (input : Path) :
    performOn stack tree options r input = (do
      Task.ofWork (Work.tell (.started input.text options.analyze options.fold))
      let source ← Task.readSource tree input
      let product ← Task.ofWork (produceOn stack options source input.text r.modes)
      deliver tree r input product) := by
  unfold performOn
  refine congrArg (Task.ofWork _ >>= ·) (funext fun _ => ?_)
  refine congrArg (Task.readSource tree input >>= ·) (funext fun source => ?_)
  split
  all_goals
    next hmodes =>
      rw [hmodes, produceOn]
      simp only [Task.ofWork_bind, bind_assoc]
      rfl

theorem perform_eq (tree : FileTree) (options : Options) (r : Request) (input : Path) :
    perform tree options r input = (do
      Task.ofWork (Work.tell (.started input.text options.analyze options.fold))
      let source ← Task.readSource tree input
      let product ← Task.ofWork (produce options source input.text r.modes)
      deliver tree r input product) :=
  performOn_eq none tree options r input

/-- Code is the product of no mode, and a report is that of a mode. -/
def Product.Suits : Product → List Mode → Prop
  | .report _, modes => modes ≠ []
  | .code _, modes => modes = []

/-- **The work of every mode fails for a problem of the program only.** -/
theorem produce_orderly (options : Options) (source file : String) (modes : List Mode) :
    Orderly id (produce options source file modes) (Product.Suits · modes) := by
  match modes with
  | .tokens :: _ =>
    refine (Orderly.tellAll (Token.notices_written _)).bind fun _ _ => ?_
    exact (scan_orderly source file).bind fun tokens _ => .pure (List.cons_ne_nil _ _)
  | .tree :: _ =>
    refine (parseSource_orderly source file).bind fun program hprogram => ?_
    obtain ⟨outline, houtline⟩ := Node.outlineProgram_of_regular hprogram.regular
    have htake : Work.take (Node.outlineProgramOn none program) = pure outline :=
      congrArg Work.take houtline
    rw [htake]
    exact .pure (List.cons_ne_nil _ _)
  | .check :: _ =>
    refine (parseSource_orderly source file).bind fun program hprogram => ?_
    refine (Typing.typecheck_orderly hprogram.regular).bind fun _ _ => ?_
    exact .pure (List.cons_ne_nil _ _)
  | .full :: _ =>
    exact (compile_orderly options source file).bind fun c _ => .pure (List.cons_ne_nil _ _)
  | [] => exact (compile_orderly options source file).bind fun c _ => .pure rfl

/-! ## Delivery -/

section Delivery

variable {tree : FileTree} {r : Request} {input : Path} {product : Product}

/-- The file that a request has its product written to: the output that it names, or, for code, the
file next to the source file. -/
def target? (r : Request) (input : Path) : Option Path :=
  match r.output, r.modes with
  | some name, _ => some (.ofString name)
  | none, [] => some (input.withSuffix ".tac")
  | none, _ :: _ => none

/-- What becomes of a tree in a delivery: nothing if there is no file to be written to, and else
that file is written. -/
def Delivers (tree : FileTree) (r : Request) (input : Path) (after : FileTree) : Prop :=
  match target? r input with
  | none => after = tree
  | some path => tree.Alters path after

theorem writeFile_meets (path : Path) (text : String) (notices : List Notice) :
    Meets (Task.writeFile tree path text) notices
      (fun after notices' => notices' = notices ∧ tree.Alters path after)
      fun t notices' => notices' = notices ∧ (∃ f, t = .fault f path) ∧ ¬ tree.Writable path := by
  unfold Task.writeFile
  cases hwrite : tree.write path (Text.writeText text) with
  | ok after => exact .pure ⟨rfl, FileTree.alters_of_write hwrite⟩
  | error f =>
    refine .throw ⟨rfl, ⟨f, rfl⟩, fun hwritable => ?_⟩
    obtain ⟨after, hafter⟩ := FileTree.write_of_writable hwritable (Text.writeText text)
    rw [hwrite] at hafter
    cases hafter

/-- **A product is delivered to one file at most**, and this fails only if the file cannot be
written. -/
theorem deliver_meets (hsuits : product.Suits r.modes) (notices : List Notice) :
    Meets (deliver tree r input product) notices
      (fun delivered notices' => notices' = notices ∧ Delivers tree r input delivered.2)
      fun t notices' => notices' = notices ∧
        ∃ f path, t = .fault f path ∧ target? r input = some path ∧ ¬ tree.Writable path := by
  cases product with
  | report text =>
    unfold deliver present
    cases houtput : r.output with
    | none =>
      obtain ⟨mode, modes, hmodes⟩ := List.exists_cons_of_ne_nil hsuits
      refine .pure ⟨rfl, ?_⟩
      rw [Delivers, target?, houtput, hmodes]
    | some name =>
      have htarget : target? r input = some (.ofString name) := by rw [target?, houtput]
      refine (writeFile_meets _ _ notices).andThen (fun after notices' h => ?_)
        fun t notices' h => ?_
      · refine .pure ⟨h.1, ?_⟩
        rw [Delivers, htarget]
        exact h.2
      · obtain ⟨h, ⟨f, rfl⟩, hwritable⟩ := h
        exact ⟨h, f, _, rfl, htarget, hwritable⟩
  | code c =>
    have hmodes : r.modes = [] := hsuits
    have htarget : target? r input = some (outputPath r input) := by
      unfold target? outputPath
      cases r.output with
      | none => rw [hmodes]
      | some name => rfl
    unfold deliver
    refine (writeFile_meets _ _ notices).andThen (fun after notices' h => ?_) fun t notices' h => ?_
    · refine .pure ⟨h.1, ?_⟩
      rw [Delivers, htarget]
      exact h.2
    · obtain ⟨h, ⟨f, rfl⟩, hwritable⟩ := h
      exact ⟨h, f, _, rfl, htarget, hwritable⟩

end Delivery

end Command

end ThreeAddress
