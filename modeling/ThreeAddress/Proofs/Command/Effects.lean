import ThreeAddress.Proofs.Command.Delivery

/-!
# What a run leaves behind

A run of the command either refuses its arguments, or answers a question about the command itself,
or starts to work on an input file.

* `Starts`: the arguments that make the command work on a file.
* `perform_meets`: that work writes one file at most, and it meets no trouble of the command's own.
* `EndedBy`: the runs that a problem of the program has ended.

**Theorem (`run_all_or_nothing`).** A run that fails leaves all files as they were and shows nothing
on the output channel. A run that succeeds writes no file but its target. The exit code is one iff a
problem of the program has ended the run, and it is never three.

Only the delivery writes, and it is the last step, so a run that fails has not written. The work of
every mode fails for a problem of the program (`produce_orderly`), which rules out the exit code
three. The stack has no limit here; with one, the exit code three is not ruled out.
-/

namespace ThreeAddress.Command

variable {tree : FileTree} {environment : List (String × String)} {arguments : List String}
  {r : Request} {name : String}

/-! ## Runs that work on a file -/

/-- The arguments are a request to work on the named file. -/
structure Starts (tree : FileTree) (arguments : List String) (r : Request) (name : String) :
    Prop where
  request : Request.ofArguments arguments = .ok r
  inquiry : r.inquiry = none
  input : inputFile tree r = .ok name
  modes : r.modes.length ≤ 1

theorem Starts.unique {r' : Request} {name' : String} (h : Starts tree arguments r name)
    (h' : Starts tree arguments r' name') : r = r' ∧ name = name' := by
  cases h.request.symm.trans h'.request
  cases h.input.symm.trans h'.input
  exact ⟨rfl, rfl⟩

/-- What the work on a file makes of a run. -/
def conclude (tree : FileTree) (verbose : Bool) :
    Except Trouble (String × FileTree) × List Notice → Outcome
  | (.ok (output, after), notices) =>
    ⟨0, Text.withoutControl output, noticeLines verbose notices, after⟩
  | (.error t, notices) =>
    ⟨t.kind.exitCode, "",
      noticeLines verbose notices ++ Text.withoutControl (t.report ++ "\n"), tree⟩

theorem Starts.runOn_eq (h : Starts tree arguments r name) (stack : Stack) :
    runOn stack tree environment arguments =
      conclude tree r.verbose
        (Task.run (performOn stack tree (r.options environment) r (.ofString name))) := by
  unfold runOn
  rw [h.request]
  dsimp only
  rw [h.inquiry]
  dsimp only
  rw [h.input]
  dsimp only
  rw [if_neg (Nat.not_lt.2 h.modes)]
  rfl

theorem Starts.run_eq (h : Starts tree arguments r name) :
    run tree environment arguments =
      conclude tree r.verbose
        (Task.run (perform tree (r.options environment) r (.ofString name))) :=
  h.runOn_eq none

/-- A run that does not work on a file refuses its arguments or answers a question. -/
theorem run_of_not_starts (environment : List (String × String))
    (h : ∀ r name, ¬ Starts tree arguments r name) :
    (run tree environment arguments).tree = tree ∧
      ((run tree environment arguments).exitCode = 0 ∨
        (run tree environment arguments).exitCode = 2 ∧
          (run tree environment arguments).output = "") := by
  unfold run runOn
  cases hrequest : Request.ofArguments arguments with
  | error m => exact ⟨rfl, .inr ⟨rfl, rfl⟩⟩
  | ok r =>
    cases hinquiry : r.inquiry with
    | some i => cases i <;> exact ⟨by simp [hinquiry], .inl (by simp [hinquiry])⟩
    | none =>
      cases hinput : inputFile tree r with
      | error m => simp [hinquiry, hinput, refuse]
      | ok name =>
        have hmodes : 1 < r.modes.length :=
          Nat.lt_of_not_le fun hmodes => h r name ⟨hrequest, hinquiry, hinput, hmodes⟩
        simp [hinquiry, hinput, hmodes, refuse]

/-! ## The work on a file -/

theorem readSource_meets (tree : FileTree) (path : Path) (notices : List Notice) :
    Meets (Task.readSource tree path) notices (fun _ notices' => notices' = notices)
      fun t _ => t.kind = .access := by
  unfold Task.readSource
  cases tree.read path with
  | error f => exact .throw rfl
  | ok bytes =>
    cases hsource : Text.readText bytes with
    | error e =>
      simp only [hsource]
      exact .throw rfl
    | ok source =>
      simp only [hsource]
      exact .pure rfl

/-- Work that is part of a task runs into trouble only where it fails. -/
theorem ofWork_meets {α : Type} {work : Work α} {notices : List Notice}
    {good : α → List Notice → Prop} {bad : Failure → List Notice → Prop}
    (h : Meets work notices good bad) :
    Meets (Task.ofWork work) notices good fun t notices' =>
      ∃ e, t = .failure e ∧ bad e notices' := by
  cases hrun : work notices with
  | ok a after => exact .ok (Task.ofWork_of_ok hrun) (h.of_ok hrun)
  | error e after => exact .error (Task.ofWork_of_error hrun) ⟨e, rfl, h.of_error hrun⟩

/-- **The work on a file writes one file at most**, at its end, and what it can run into is no
trouble of the command's own. -/
theorem perform_meets (tree : FileTree) (options : Options) (r : Request) (input : Path) :
    Meets (perform tree options r input) [] (fun delivered _ => Delivers tree r input delivered.2)
      fun t _ => t.kind ≠ .internal := by
  rw [perform_eq]
  refine .bind (.ok rfl ?_)
  refine (readSource_meets tree input _).andThen (fun source notices h => ?_) fun t _ h => ?_
  · subst h
    have hstarted : Notice.AllWritten [.started input.text options.analyze options.fold] :=
      List.forall_mem_singleton.2 trivial
    have hproduce := ofWork_meets (produce_orderly options source input.text r.modes _ hstarted)
    refine hproduce.andThen (fun product notices h => ?_) fun t _ h => ?_
    · refine (deliver_meets h.1 notices).mono (fun _ _ h => h.2) fun t _ h => ?_
      obtain ⟨-, f, path, rfl, -⟩ := h
      exact nofun
    · obtain ⟨e, rfl, ⟨p, rfl, -⟩, -⟩ := h
      exact nofun
  · rw [h]
    exact nofun

/-! ## Runs -/

/-- A problem of the program has ended the run on a stack. -/
def EndedByOn (stack : Stack) (tree : FileTree) (environment : List (String × String))
    (arguments : List String) (p : Problem) : Prop :=
  ∃ r name notices, Starts tree arguments r name ∧
    Task.run (performOn stack tree (r.options environment) r (.ofString name)) =
      (.error (.failure (.problem p)), notices)

/-- A problem of the program has ended the run. -/
def EndedBy (tree : FileTree) (environment : List (String × String)) (arguments : List String)
    (p : Problem) : Prop :=
  EndedByOn none tree environment arguments p

theorem Starts.endedByOn_iff (h : Starts tree arguments r name) {stack : Stack} {p : Problem} :
    EndedByOn stack tree environment arguments p ↔ ∃ notices,
      Task.run (performOn stack tree (r.options environment) r (.ofString name)) =
        (.error (.failure (.problem p)), notices) := by
  constructor
  · rintro ⟨r', name', notices, h', hrun⟩
    obtain ⟨rfl, rfl⟩ := h.unique h'
    exact ⟨notices, hrun⟩
  · rintro ⟨notices, hrun⟩
    exact ⟨r, name, notices, h, hrun⟩

theorem Starts.endedBy_iff (h : Starts tree arguments r name) {p : Problem} :
    EndedBy tree environment arguments p ↔ ∃ notices,
      Task.run (perform tree (r.options environment) r (.ofString name)) =
        (.error (.failure (.problem p)), notices) :=
  h.endedByOn_iff

theorem Trouble.kind_eq_problem_iff {t : Trouble} :
    t.kind = .problem ↔ ∃ p, t = .failure (.problem p) := by
  constructor
  · intro h
    match t with
    | .failure (.problem p) => exact ⟨p, rfl⟩
  · rintro ⟨p, rfl⟩
    rfl

theorem exitCode_eq_one_iff {k : TroubleKind} : k.exitCode = 1 ↔ k = .problem := by
  cases k <;> simp [TroubleKind.exitCode]

theorem exitCode_eq_three_iff {k : TroubleKind} : k.exitCode = 3 ↔ k = .internal := by
  cases k <;> simp [TroubleKind.exitCode]

theorem exitCode_ne_zero (k : TroubleKind) : k.exitCode ≠ 0 := by
  cases k <;> simp [TroubleKind.exitCode]

/-- A run that a problem has ended shows its report last. -/
theorem EndedBy.outcome {p : Problem} (h : EndedBy tree environment arguments p) :
    (run tree environment arguments).exitCode = 1 ∧ ∃ notices,
      (run tree environment arguments).errors =
        notices ++ Text.withoutControl (p.report ++ "\n") := by
  obtain ⟨r, name, notices, hstarts, hrun⟩ := h
  rw [run, hstarts.runOn_eq, hrun]
  exact ⟨rfl, _, rfl⟩

/-- **A run that fails changes nothing.** -/
theorem run_all_or_nothing (tree : FileTree) (environment : List (String × String))
    (arguments : List String) :
    ((run tree environment arguments).exitCode ≠ 0 →
      (run tree environment arguments).tree = tree ∧
        (run tree environment arguments).output = "") ∧
    ((run tree environment arguments).exitCode = 0 →
      (run tree environment arguments).tree = tree ∨
        ∃ r name path, Starts tree arguments r name ∧ target? r (.ofString name) = some path ∧
          tree.Alters path (run tree environment arguments).tree) ∧
    ((run tree environment arguments).exitCode = 1 ↔ ∃ p, EndedBy tree environment arguments p) ∧
    (run tree environment arguments).exitCode ≠ 3 := by
  by_cases hstarts : ∃ r name, Starts tree arguments r name
  · obtain ⟨r, name, h⟩ := hstarts
    have hmeets := perform_meets tree (r.options environment) r (.ofString name)
    simp only [h.endedBy_iff]
    rw [h.run_eq]
    cases hrun : perform tree (r.options environment) r (.ofString name) [] with
    | ok delivered notices =>
      have hdelivers := hmeets.of_ok hrun
      rw [Task.run_of_ok hrun]
      dsimp only [conclude]
      have hnone : ¬ ∃ p notices', (Except.ok delivered, notices) =
          ((Except.error (.failure (.problem p)) : Except Trouble _), notices') := by
        rintro ⟨p, notices', heq⟩
        cases (Prod.mk.inj heq).1
      refine ⟨fun hne => absurd rfl hne, fun _ => ?_, iff_of_false (by decide) hnone, by decide⟩
      unfold Delivers at hdelivers
      split at hdelivers
      · exact .inl hdelivers
      · next path htarget => exact .inr ⟨r, name, path, h, htarget, hdelivers⟩
    | error t notices =>
      have hkind := hmeets.of_error hrun
      rw [Task.run_of_error hrun]
      dsimp only [conclude]
      refine ⟨fun _ => ⟨rfl, rfl⟩, fun hzero => absurd hzero (exitCode_ne_zero _), ?_, ?_⟩
      · rw [exitCode_eq_one_iff, Trouble.kind_eq_problem_iff]
        simp
      · rwa [Ne, exitCode_eq_three_iff]
  · have hnone : ∀ r name, ¬ Starts tree arguments r name := by simpa using hstarts
    have hended : ∀ p, ¬ EndedBy tree environment arguments p :=
      fun p ⟨r, name, _, h, _⟩ => hnone r name h
    obtain ⟨htree, hcode⟩ := run_of_not_starts environment hnone
    rcases hcode with hzero | ⟨htwo, houtput⟩
    · simp [hzero, htree, hended]
    · simp [htwo, htree, houtput, hended]

end ThreeAddress.Command
