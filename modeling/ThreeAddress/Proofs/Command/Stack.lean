import ThreeAddress.Proofs.Command.Modes
import ThreeAddress.Proofs.Command.Source
import ThreeAddress.Proofs.Stack.Exhaustion

/-!
# Runs on a limited stack

A run on a stack goes as it does without a limit, or the stack ends it, and then it is a run that
fails and changes nothing.

* `produceOn_settles`, `performOn_settles`: the work of a mode, and with it the work on a file.
* `sumTree_internal`: the check of a long sum ends in internal trouble.

**Theorem (`runOn_all_or_nothing`).** A run on a stack that fails leaves all files as they were and
shows nothing on the output channel, and one that succeeds writes no file but its target. The exit
code is one iff a problem of the program has ended the run, and it is three iff the stack has less
room than is needed for the source text.
-/

namespace ThreeAddress.Text

/-! ## ASCII -/

/-- Bytes that are ASCII characters are decoded one by one. -/
theorem utf8DecodeFrom_ascii {cs : List Char} (h : ∀ c ∈ cs, c.toNat < 128) (position : Nat) :
    utf8DecodeFrom position none (cs.map fun c => c.toNat.toUInt8) = .ok cs := by
  induction cs generalizing position with
  | nil => rfl
  | cons c cs ih =>
    obtain ⟨hc, hcs⟩ := List.forall_mem_cons.1 h
    have hbyte : c.toNat.toUInt8.toNat = c.toNat := Nat.mod_eq_of_lt (by omega)
    have hlead : utf8Lead? c.toNat.toUInt8 = some (c.toNat, []) := by
      unfold utf8Lead?
      rw [if_pos (UInt8.lt_iff_toNat_lt.2 (hbyte.symm ▸ hc)), hbyte]
    rw [List.map_cons, utf8DecodeFrom, hlead]
    dsimp only
    rw [ih hcs, Char.ofNat_toNat]
    rfl

theorem unifyNewlines_eq_self {cs : List Char} (h : '\r' ∉ cs) : unifyNewlines cs = cs := by
  induction cs with
  | nil => rfl
  | cons c cs ih =>
    obtain ⟨hc, hcs⟩ := not_or.1 (mt List.mem_cons.2 h)
    rw [unifyNewlines, ih hcs, if_neg (Ne.symm hc)]
    rintro _ rfl
    exact absurd rfl hc

end ThreeAddress.Text

namespace ThreeAddress.Command

variable {tree : FileTree} {environment : List (String × String)} {arguments : List String}
  {options : Options} {r : Request} {name source file : String} {notices : List Notice}
  {bound room : Nat}

/-! ## The work of a mode -/

/-- **The work of every mode settles.** -/
theorem produceOn_settles (options : Options) (source file : String) (modes : List Mode)
    (hnotices : Notice.AllWritten notices) :
    Settles Failure.IsExhausted (Stack.enough source)
      (fun room => produceOn (some room) options source file modes)
      (produce options source file modes) notices := by
  unfold produce
  match modes with
  | .tokens :: _ =>
    simp only [produceOn]
    exact .const _ _
  | .tree :: _ =>
    simp only [produceOn]
    refine (parseSource_settles source file).bind fun program after hread => ?_
    have hheight := ((parseSource_meets source file notices).of_ok hread).1.heightAll_le
    have hroom := Stack.le_enough hheight
    exact ((walk_settles (3 * _) _).mono (by omega)).bind fun _ _ _ => .const _ _
  | .check :: _ =>
    simp only [produceOn]
    refine (parseSource_settles source file).bind fun program after hread => ?_
    have hheight := ((parseSource_meets source file notices).of_ok hread).1.heightAll_le
    have hroom := Stack.le_enough hheight
    exact ((typecheck_settles _ program).mono (by omega)).bind fun _ _ _ => .const _ _
  | .full :: _ =>
    simp only [produceOn]
    refine (compile_settles options source file notices).bind fun c after hcompile => ?_
    have hheight := ((compile_stages hnotices).of_ok hcompile).heightAll_le
    have hroom := Stack.le_enough hheight
    exact ((walk_settles (3 * _) _).mono (by omega)).bind fun _ _ _ => .const _ _
  | [] =>
    simp only [produceOn]
    exact (compile_settles options source file notices).bind fun _ _ _ => .const _ _

/-- Where the check of types is ended by the stack, so is the work of a check. -/
theorem produceOn_check_exhausted {value : Node} {l : Option Location} {rest : List Node}
    (options : Options) (hreads : Reads source file (.retValue value l :: rest))
    (hroom : room ≤ 2 * value.leftDepth) (notices : List Notice) :
    (produceOn (some room) options source file [.check]).Exhausts notices := by
  have hread := parseSource_eq source file notices
  rw [parseSource_eq_ok_iff.2 hreads] at hread
  rw [produceOn]
  refine Work.exhausts_bind_of_settles (parseSource_settles source file) hread ?_
  exact (typecheckOn_exhausted _ hroom _).bind

/-! ## The work on a file -/

theorem ofWork_settles {α : Type} {x : Nat → Work α} {y : Work α}
    (h : Settles Failure.IsExhausted bound x y notices) :
    Settles (· = .failure .exhausted) bound (fun room => Task.ofWork (x room)) (Task.ofWork y)
      notices := by
  refine h.lift (fun room heq => ?_) fun room e after hfull he => ?_
  · rw [Task.ofWork, Task.ofWork, heq]
  · exact ⟨_, after, Task.ofWork_of_error hfull, congrArg _ he⟩

/-- **The work on a file settles**, and what it needs is bounded by the source text in the file. -/
theorem performOn_settles (tree : FileTree) (options : Options) (r : Request) (name : String)
    (hbound : ∀ source, Holds tree name source → Stack.enough source ≤ bound) :
    Settles (· = .failure .exhausted) bound
      (fun room => performOn (some room) tree options r (.ofString name))
      (perform tree options r (.ofString name)) [] := by
  rw [perform_eq]
  simp only [performOn_eq]
  refine .bind (.const _ _) fun _ started hstarted => ?_
  refine .bind (.const _ _) fun source after hread => ?_
  obtain ⟨rfl, bytes, hbytes, htext⟩ := readSource_eq_ok hread
  cases hstarted
  refine .bind ?_ fun _ _ _ => .const _ _
  have hwork := produceOn_settles options source (Path.ofString name).text r.modes
    (startNotices_written name options)
  exact ofWork_settles (hwork.mono (hbound source ⟨bytes, hbytes, htext⟩))

/-! ## Runs -/

theorem Holds.unique {source' : String} (h : Holds tree name source)
    (h' : Holds tree name source') : source = source' := by
  obtain ⟨bytes, hread, htext⟩ := h
  obtain ⟨bytes', hread', htext'⟩ := h'
  cases hread.symm.trans hread'
  exact Except.ok.inj (htext.symm.trans htext')

/-- The room is at most what is enough for the source text that the arguments name, and none if they
name no source text. -/
def WithinEnough (tree : FileTree) (arguments : List String) (need : Nat) : Prop :=
  need = 0 ∨ ∃ r name source, Starts tree arguments r name ∧ Holds tree name source ∧
    need ≤ Stack.enough source

theorem Starts.settles (h : Starts tree arguments r name) (options : Options) :
    ∃ need, WithinEnough tree arguments need ∧ ∀ room,
      (need ≤ room → performOn (some room) tree options r (.ofString name) [] =
        perform tree options r (.ofString name) []) ∧
      (room < need → ∃ notices, performOn (some room) tree options r (.ofString name) [] =
        .error (.failure .exhausted) notices) := by
  obtain ⟨bound, hbound, hneeds⟩ : ∃ bound,
      (∀ source, Holds tree name source → Stack.enough source ≤ bound) ∧
        ∀ need ≤ bound, WithinEnough tree arguments need := by
    by_cases hholds : ∃ source, Holds tree name source
    · obtain ⟨source, hsource⟩ := hholds
      refine ⟨Stack.enough source, fun source' h' => ?_, fun need hneed => ?_⟩
      · rw [h'.unique hsource]
      · exact .inr ⟨r, name, source, h, hsource, hneed⟩
    · refine ⟨0, fun source hsource => absurd ⟨source, hsource⟩ hholds, fun need hneed => ?_⟩
      exact .inl (Nat.le_zero.1 hneed)
  obtain ⟨need, hneed, hroom⟩ := performOn_settles tree options r name hbound
  refine ⟨need, hneeds need hneed, fun room => ⟨(hroom room).1, fun hlt => ?_⟩⟩
  obtain ⟨_, notices, hfull, rfl⟩ := (hroom room).2 hlt
  exact ⟨notices, hfull⟩

/-- A run that does not work on a file makes no calls. -/
theorem runOn_of_not_starts (stack : Stack) (environment : List (String × String))
    (h : ∀ r name, ¬ Starts tree arguments r name) :
    runOn stack tree environment arguments = run tree environment arguments := by
  unfold run runOn
  cases hrequest : Request.ofArguments arguments with
  | error m => rfl
  | ok r =>
    cases hinquiry : r.inquiry with
    | some i => cases i <;> simp [hinquiry]
    | none =>
      cases hinput : inputFile tree r with
      | error m => simp [hinquiry, hinput]
      | ok name =>
        have hmodes : 1 < r.modes.length :=
          Nat.lt_of_not_le fun hmodes => h r name ⟨hrequest, hinquiry, hinput, hmodes⟩
        simp [hinquiry, hinput, hmodes]

/-- **A run on a stack that fails changes nothing**, also where the stack ends it. -/
theorem runOn_all_or_nothing (tree : FileTree) (environment : List (String × String))
    (arguments : List String) :
    ∃ need, WithinEnough tree arguments need ∧ ∀ room,
      ((runOn (some room) tree environment arguments).exitCode ≠ 0 →
        (runOn (some room) tree environment arguments).tree = tree ∧
          (runOn (some room) tree environment arguments).output = "") ∧
      ((runOn (some room) tree environment arguments).exitCode = 0 →
        (runOn (some room) tree environment arguments).tree = tree ∨
          ∃ r name path, Starts tree arguments r name ∧ target? r (.ofString name) = some path ∧
            tree.Alters path (runOn (some room) tree environment arguments).tree) ∧
      ((runOn (some room) tree environment arguments).exitCode = 1 ↔
        ∃ p, EndedByOn (some room) tree environment arguments p) ∧
      ((runOn (some room) tree environment arguments).exitCode = 3 ↔ room < need) := by
  obtain ⟨hfails, hsucceeds, hproblem, hinternal⟩ := run_all_or_nothing tree environment arguments
  by_cases hstarts : ∃ r name, Starts tree arguments r name
  · obtain ⟨r, name, h⟩ := hstarts
    obtain ⟨need, hneed, hroom⟩ := h.settles (r.options environment)
    refine ⟨need, hneed, fun room => ?_⟩
    simp only [h.endedByOn_iff]
    rcases Nat.lt_or_ge room need with hlt | hle
    · obtain ⟨notices, hfull⟩ := (hroom room).2 hlt
      rw [h.runOn_eq, Task.run_of_error hfull]
      simp [conclude, Trouble.kind, TroubleKind.exitCode, hlt]
    · have hsame :
          Task.run (performOn (some room) tree (r.options environment) r (.ofString name)) =
            Task.run (perform tree (r.options environment) r (.ofString name)) := by
        rw [Task.run, Task.run, (hroom room).1 hle]
      simp only [h.endedBy_iff] at hproblem
      rw [h.runOn_eq, hsame, ← h.run_eq]
      exact ⟨hfails, hsucceeds, hproblem, iff_of_false hinternal (Nat.not_lt.2 hle)⟩
  · have hnone : ∀ r name, ¬ Starts tree arguments r name := by simpa using hstarts
    have hended : ∀ stack, ¬ ∃ p, EndedByOn stack tree environment arguments p := by
      rintro stack ⟨p, r, name, -, h, -⟩
      exact hnone r name h
    refine ⟨0, .inl rfl, fun room => ?_⟩
    rw [runOn_of_not_starts (some room) environment hnone]
    refine ⟨hfails, hsucceeds, ?_, iff_of_false hinternal (Nat.not_lt_zero room)⟩
    exact iff_of_false (mt hproblem.1 (hended none)) (hended (some room))

/-! ## Sums -/

/-- A tree with one source file, which returns the sum of ones with so many signs. -/
def sumTree (n : Nat) : FileTree :=
  ⟨[(["p.mt"], .file ((sumText n).toList.map fun c => c.toNat.toUInt8))]⟩

theorem sumTree_holds (n : Nat) : Holds (sumTree n) "p.mt" (sumText n) := by
  have hall : "return1+; ".toList.all (fun c => decide (c.toNat < 128)) = true := by decide
  have hascii : ∀ c ∈ (sumText n).toList, c.toNat < 128 := fun c hc =>
    of_decide_eq_true (List.all_eq_true.1 hall c (mem_toList_sumText hc))
  have hreturn : '\r' ∉ (sumText n).toList := fun hc =>
    absurd (mem_toList_sumText hc) (by decide)
  have hplace : (sumTree n).resolve (.ofString "p.mt") = .ok ["p.mt"] := rfl
  refine ⟨_, read_of_entry hplace rfl, ?_⟩
  rw [Text.readText, Text.utf8Decode, Text.utf8DecodeFrom_ascii hascii]
  show Except.ok (String.ofList (Text.unifyNewlines (sumText n).toList)) = _
  rw [Text.unifyNewlines_eq_self hreturn, String.ofList_toList]

/-- **The check of a sum ends in internal trouble** if the room is at most twice its signs. -/
theorem sumTree_internal {n : Nat} (hroom : room ≤ 2 * n)
    (environment : List (String × String)) :
    (runOn (some room) (sumTree n) environment ["--check", "p.mt"]).exitCode = 3 := by
  let r : Request := { files := ["p.mt"], modes := [.check] }
  have hstarts : Starts (sumTree n) ["--check", "p.mt"] r "p.mt" := ⟨by decide, rfl, rfl, by decide⟩
  obtain ⟨value, l, hreads, rfl⟩ := sumText_reads n "p.mt"
  obtain ⟨bytes, hbytes, htext⟩ := sumTree_holds value.leftDepth
  have hsource : ∀ notices, Task.readSource (sumTree value.leftDepth) (.ofString "p.mt") notices =
      .ok (sumText value.leftDepth) notices := by
    intro notices
    rw [Task.readSource, hbytes]
    dsimp only
    rw [htext]
    rfl
  obtain ⟨after, hwork⟩ := produceOn_check_exhausted (r.options environment) hreads hroom
    (startNotices "p.mt" (r.options environment))
  have hperform : performOn (some room) (sumTree value.leftDepth) (r.options environment) r
      (.ofString "p.mt") [] = .error (.failure .exhausted) after := by
    rw [performOn_eq]
    refine (bind_of_ok rfl).trans ((bind_of_ok (hsource _)).trans ?_)
    exact bind_of_error (Task.ofWork_of_error hwork)
  rw [hstarts.runOn_eq, Task.run_of_error hperform]
  rfl

/-- The usual room is not enough to check a sum of six thousand ones. -/
theorem exists_internal_trouble :
    (runOn .usual (sumTree 5999) [] ["--check", "p.mt"]).exitCode = 3 :=
  sumTree_internal (by decide) []

end ThreeAddress.Command
