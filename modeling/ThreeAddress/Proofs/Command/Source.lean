import ThreeAddress.Proofs.Command.Effects
import ThreeAddress.Proofs.Files.Suffix

/-!
# What becomes of the source file

Code for which no output is named goes next to the source file, under the name that the source file
has with another suffix.

* `perform_code`, `perform_mode`: what the work without a named output leaves behind.
* `written_beside`: what becomes of a file when code is put next to it.
* `WritesOver`: the runs whose code gets the name of their source file.

**Theorem (`run_keeps_source`).** A run without a named output leaves its source file as it was,
unless it succeeds in writing code and the source file has the suffix of code. Then the code stands
in the place of the source text.

A path leads to one place only, and with another last part it leads to another one
(`FileTree.withSuffix_eq_self_of_resolve`), so only a source file whose name is kept can be hit.
-/

namespace ThreeAddress.Command

variable {tree : FileTree} {environment : List (String × String)} {arguments : List String}
  {r : Request} {name : String} {place : List String} {bytes : List UInt8}

/-! ## The one file of a request -/

theorem files_of_inputFile (h : inputFile tree r = .ok name) : r.files = [name] := by
  have hinput : inputFile.input tree r = .ok name := by
    unfold inputFile at h
    split at h
    · split at h
      · cases h
      · exact h
    · exact h
  unfold inputFile.input at hinput
  split at hinput
  · cases hinput
  · next first more hfiles =>
    split at hinput
    · cases hinput
    · cases hinput
    · split at hinput
      · next hmore =>
        cases hinput
        rw [hfiles, List.isEmpty_iff.1 hmore]
      · cases hinput

/-- A request without an inquiry that succeeds is one to work on a file. -/
theorem starts_of_exitCode (hrequest : Request.ofArguments arguments = .ok r)
    (hinquiry : r.inquiry = none) (hzero : (run tree environment arguments).exitCode = 0) :
    ∃ name, Starts tree arguments r name := by
  unfold run runOn at hzero
  rw [hrequest] at hzero
  dsimp only at hzero
  rw [hinquiry] at hzero
  dsimp only at hzero
  split at hzero
  · cases hzero
  · next name hinput =>
    split at hzero
    · cases hzero
    · next hmodes => exact ⟨name, hrequest, hinquiry, hinput, Nat.le_of_not_lt hmodes⟩

/-! ## Work without a mode -/

theorem read_of_entry {path : Path} (hplace : tree.resolve path = .ok place)
    (hbytes : tree.entry? place = some (.file bytes)) : tree.read path = .ok bytes := by
  unfold FileTree.read
  rw [hplace]
  dsimp only [bind, Except.bind]
  rw [hbytes]

theorem readSource_eq_ok {path : Path} {source : String} {notices notices' : List Notice}
    (h : Task.readSource tree path notices = .ok source notices') :
    notices' = notices ∧ ∃ bytes, tree.read path = .ok bytes ∧
      Text.readText bytes = .ok source := by
  unfold Task.readSource at h
  cases hread : tree.read path with
  | error f =>
    rw [hread] at h
    cases h
  | ok bytes =>
    rw [hread] at h
    dsimp only at h
    cases htext : Text.readText bytes with
    | error e =>
      rw [htext] at h
      cases h
    | ok source =>
      rw [htext] at h
      cases h
      exact ⟨rfl, bytes, rfl, htext⟩

theorem writeFile_eq_ok {path : Path} {text : String} {after : FileTree}
    {notices notices' : List Notice}
    (h : Task.writeFile tree path text notices = .ok after notices') :
    tree.write path (Text.writeText text) = .ok after := by
  unfold Task.writeFile at h
  cases hwrite : tree.write path (Text.writeText text) with
  | error f =>
    rw [hwrite] at h
    cases h
  | ok written =>
    rw [hwrite] at h
    cases h
    rfl

theorem ofWork_eq_ok {α : Type} {work : Work α} {a : α} {notices notices' : List Notice}
    (h : Task.ofWork work notices = .ok a notices') : work notices = .ok a notices' := by
  unfold Task.ofWork at h
  cases hwork : work notices with
  | error e after =>
    rw [hwork] at h
    cases h
  | ok b after =>
    rw [hwork] at h
    cases h
    rfl

/-- **Work without a mode puts code next to the source file.** -/
theorem perform_code {options : Options} {input : Path} {delivered : String × FileTree}
    {notices : List Notice} (hmodes : r.modes = []) (houtput : r.output = none)
    (h : perform tree options r input [] = .ok delivered notices) :
    ∃ bytes source c after target,
      tree.read input = .ok bytes ∧ Text.readText bytes = .ok source ∧
      compile options source input.text [.started input.text options.analyze options.fold] =
        .ok c after ∧
      tree.resolve (input.withSuffix ".tac") = .ok target ∧
      tree.entry? target ≠ some .directory ∧
      delivered.2 = tree.set target (.file (Text.writeText (fileText c.lines))) := by
  rw [perform_eq, hmodes] at h
  obtain ⟨_, notices', hstarted, h⟩ := bind_eq_ok_iff.1 h
  cases hstarted
  obtain ⟨source, notices', hsource, h⟩ := bind_eq_ok_iff.1 h
  obtain ⟨product, after, hproduct, h⟩ := bind_eq_ok_iff.1 h
  obtain ⟨rfl, bytes, hread, htext⟩ := readSource_eq_ok hsource
  obtain ⟨c, _, hcompile, hcode⟩ := bind_eq_ok_iff.1 (ofWork_eq_ok hproduct)
  cases hcode
  obtain ⟨written, _, hwrite, hdelivered⟩ := bind_eq_ok_iff.1 h
  cases hdelivered
  obtain ⟨target, hresolve, hentry, rfl⟩ := FileTree.write_eq_ok_iff.1 (writeFile_eq_ok hwrite)
  rw [outputPath, houtput] at hresolve
  exact ⟨bytes, source, c, after, target, hread, htext, hcompile, hresolve, hentry, rfl⟩

/-- Work with a mode writes nothing unless an output is named. -/
theorem perform_mode {options : Options} {input : Path} {delivered : String × FileTree}
    {notices : List Notice} (hmodes : r.modes ≠ []) (houtput : r.output = none)
    (h : perform tree options r input [] = .ok delivered notices) : delivered.2 = tree := by
  have hdelivers := (perform_meets tree options r input).of_ok h
  obtain ⟨mode, modes, hmodes⟩ := List.exists_cons_of_ne_nil hmodes
  unfold Delivers target? at hdelivers
  rw [houtput, hmodes] at hdelivers
  exact hdelivers

/-- **What is written next to a file changes the file iff that has the suffix already.** -/
theorem written_beside {input : Path} {target : List String}
    (hplace : tree.resolve input = .ok place) (hbytes : tree.entry? place = some (.file bytes))
    (htarget : tree.resolve (input.withSuffix ".tac") = .ok target)
    (hentry : tree.entry? target ≠ some .directory) (entry : FileEntry) :
    (¬ input.HasSuffix ".tac" →
      FileTree.entry? (tree.set target entry) place = some (.file bytes)) ∧
    (input.HasSuffix ".tac" → FileTree.entry? (tree.set target entry) place = some entry) := by
  have hending : ".tac".toList = '.' :: ['t', 'a', 'c'] := rfl
  have hsuffix := Path.withSuffix_eq_self_iff (p := input) hending (by decide) (by decide)
  constructor
  · intro hnot
    have hne : place ≠ target := by
      rintro rfl
      exact hnot (hsuffix.1 (FileTree.withSuffix_eq_self_of_resolve hending (by decide)
        (by decide) hplace (by simp [hbytes]) htarget))
    rw [FileTree.entry?_set_of_ne tree _ hne, hbytes]
  · intro hhas
    rw [hsuffix.2 hhas, hplace] at htarget
    cases htarget
    exact FileTree.entry?_set_self _ hentry

/-! ## Runs -/

/-- The run writes code for a source file that has the suffix of code. -/
def WritesOver (tree : FileTree) (environment : List (String × String)) (arguments : List String)
    (r : Request) (name : String) : Prop :=
  r.inquiry = none ∧ r.modes = [] ∧ (run tree environment arguments).exitCode = 0 ∧
    (Path.ofString name).HasSuffix ".tac"

/-- **A run without a named output keeps its source file, unless that has the suffix of code.** -/
theorem run_keeps_source (hrequest : Request.ofArguments arguments = .ok r)
    (houtput : r.output = none) (hname : name ∈ r.files)
    (hplace : tree.resolve (.ofString name) = .ok place)
    (hbytes : tree.entry? place = some (.file bytes)) :
    (¬ WritesOver tree environment arguments r name →
      (run tree environment arguments).tree.entry? place = some (.file bytes)) ∧
    (WritesOver tree environment arguments r name → ∃ source c after,
      Text.readText bytes = .ok source ∧
      compile (r.options environment) source (Path.ofString name).text
        [.started (Path.ofString name).text (r.options environment).analyze
          (r.options environment).fold] = .ok c after ∧
      (run tree environment arguments).tree.entry? place =
        some (.file (Text.writeText (fileText c.lines)))) := by
  by_cases hstarts : ∃ name, Starts tree arguments r name
  · obtain ⟨_, h⟩ := hstarts
    have hfiles := files_of_inputFile h.input
    rw [hfiles, List.mem_singleton] at hname
    subst hname
    unfold WritesOver
    rw [h.run_eq]
    cases hrun : perform tree (r.options environment) r (.ofString name) [] with
    | error t notices =>
      rw [Task.run_of_error hrun]
      exact ⟨fun _ => hbytes, fun hover => absurd hover.2.2.1 (exitCode_ne_zero _)⟩
    | ok delivered notices =>
      rw [Task.run_of_ok hrun]
      dsimp only [conclude]
      by_cases hmodes : r.modes = []
      · obtain ⟨_, source, c, after, target, hread, htext, hcompile, htarget, hentry, hset⟩ :=
          perform_code hmodes houtput hrun
        cases (read_of_entry hplace hbytes).symm.trans hread
        obtain ⟨hkept, hwritten⟩ := written_beside hplace hbytes htarget hentry
          (.file (Text.writeText (fileText c.lines)))
        rw [hset]
        exact ⟨fun hnot => hkept fun hhas => hnot ⟨h.inquiry, hmodes, rfl, hhas⟩,
          fun hover => ⟨source, c, after, htext, hcompile, hwritten hover.2.2.2⟩⟩
      · rw [perform_mode hmodes houtput hrun]
        exact ⟨fun _ => hbytes, fun hover => absurd hover.2.1 hmodes⟩
  · refine ⟨fun _ => ?_, fun hover => ?_⟩
    · have hnone : ∀ r name, ¬ Starts tree arguments r name := by
        rintro r' name' h
        cases hrequest.symm.trans h.request
        exact hstarts ⟨name', h⟩
      rw [(run_of_not_starts environment hnone).1, hbytes]
    · exact absurd (starts_of_exitCode hrequest hover.1 hover.2.2.1) hstarts

/-- A tree with one source file, which has the suffix of code. -/
def suffixedTree : FileTree := ⟨[(["p.tac"], .file (Text.writeText "return 1;"))]⟩

theorem suffixedTree_keeps :
    (Request.ofArguments ["--full", "p.tac"] = .ok { files := ["p.tac"], modes := [.full] }) ∧
      (run suffixedTree [] ["--full", "p.tac"]).tree.entry? ["p.tac"] =
        some (.file (Text.writeText "return 1;")) := by
  have hrequest :
      Request.ofArguments ["--full", "p.tac"] = .ok { files := ["p.tac"], modes := [.full] } := by
    decide
  refine ⟨hrequest, ?_⟩
  refine (run_keeps_source hrequest rfl (List.mem_singleton.2 rfl) (by decide) rfl).1 ?_
  rintro ⟨-, hmodes, -⟩
  cases hmodes

/-- Some run without a named output writes over its source file. -/
theorem exists_overwritten_source :
    ∃ (tree : FileTree) (environment : List (String × String)) (arguments : List String)
      (r : Request) (name : String) (place : List String) (bytes : List UInt8),
      Request.ofArguments arguments = .ok r ∧ r.output = none ∧ name ∈ r.files ∧
        tree.resolve (.ofString name) = .ok place ∧ tree.entry? place = some (.file bytes) ∧
        (run tree environment arguments).tree.entry? place ≠ some (.file bytes) := by
  refine ⟨suffixedTree, [], ["p.tac"], { files := ["p.tac"] }, "p.tac", ["p.tac"],
    Text.writeText "return 1;", by decide, rfl, List.mem_singleton.2 rfl, by decide, rfl, ?_⟩
  have hafter : (run suffixedTree [] ["p.tac"]).tree.entry? ["p.tac"] =
      some (.file (Text.writeText "return 1\n")) := by decide +kernel
  rw [hafter]
  decide +kernel

end ThreeAddress.Command
