import ThreeAddress.Proofs.Code.Segment

/-!
# The code of statements

* `Simulates`: the machine does from one line to another what a statement does. Segments of code
  are put together by one lemma for each kind of statement, and both loops by `Simulates.loop`.
* `Emits.simulates`: the code of a statement simulates it, wherever it stands in a whole.

**Theorem (`generate_preserves_meaning`).** If no variable of a statement is called like a
temporary, then it has code. The code has the outcomes of the statement, on all names but those of
temporaries and up to which fault it is, and it runs forever iff the statement does.
-/

namespace ThreeAddress

open Lowering Machine

variable {F : Type} {M : Interpretation F} {code : List Instruction}

/-! ## Statements -/

/-- The same outcome, up to which fault it is. -/
inductive Outcome.Agrees : Outcome F → Outcome F → Prop
  | ended : Agrees .ended .ended
  | returned {v : Option Value} : Agrees (.returned v) (.returned v)
  | failed {f g : F} : Agrees (.failed f) (.failed g)

theorem Outcome.Agrees.symm {o o' : Outcome F} (h : o.Agrees o') : o'.Agrees o := by
  cases h with
  | ended => exact .ended
  | returned => exact .returned
  | failed => exact .failed

theorem Outcome.Agrees.trans {o o' o'' : Outcome F} (h : o.Agrees o') (h' : o'.Agrees o'') :
    o.Agrees o'' := by
  cases h <;> cases h'
  · exact .ended
  · exact .returned
  · exact .failed

theorem Outcome.Agrees.ne_ended {o o' : Outcome F} (h : o.Agrees o') (ho : o ≠ .ended) :
    o' ≠ .ended := by
  cases h with
  | ended => exact absurd rfl ho
  | returned | failed => exact nofun

/-- The machine does from one line to another what the statement does. It reaches each of its
outcomes, and it comes to an end only if the statement does. -/
structure Simulates (M : Interpretation F) (code : List Instruction) (line behind : Nat)
    (s : Node) : Prop where
  reaches : ∀ {σ σ' τ o}, Exec M s σ o τ → AgreeBelow 0 σ σ' →
    ∃ o' τ', o.Agrees o' ∧ AgreeBelow 0 τ τ' ∧
      Leads (step M code) (.before line σ') (landing behind o' τ')
  ends : ∀ {σ σ' τ' o' n}, AgreeBelow 0 σ σ' →
    (step M code)^[n] (.before line σ') = .done o' τ' → ∃ o τ, Exec M s σ o τ

/-- What has an outcome from every store simulates as soon as it reaches its outcomes. -/
theorem Simulates.of_total {line behind : Nat} {s : Node} (htotal : ∀ σ, ∃ o τ, Exec M s σ o τ)
    (h : ∀ {σ σ' τ o}, Exec M s σ o τ → AgreeBelow 0 σ σ' →
      ∃ o' τ', o.Agrees o' ∧ AgreeBelow 0 τ τ' ∧
        Leads (step M code) (.before line σ') (landing behind o' τ')) :
    Simulates M code line behind s :=
  ⟨h, fun _ _ => htotal _⟩

/-- A run that comes to an end does so from each state on its way. -/
theorem ends_of_leads {line line' n : Nat} {σ τ τ' : Store} {o : Outcome F}
    (h : (step M code)^[n] (.before line σ) = .done o τ')
    (h' : Leads (step M code) (.before line σ) (.before line' τ)) :
    ∃ m ≤ n, (step M code)^[m] (.before line' τ) = .done o τ' := by
  obtain ⟨m, hm⟩ := h'
  exact ⟨n - m, Nat.sub_le _ _, (iterate_sub_of_fixed (step_done o τ') h hm nofun).2⟩

/-- The line behind a segment can be moved along steps that keep the store. -/
theorem Simulates.leave {line behind behind' : Nat} {s : Node}
    (h : Simulates M code line behind s)
    (hmove : ∀ τ, Leads (step M code) (.before behind τ) (.before behind' τ)) :
    Simulates M code line behind' s where
  ends := h.ends
  reaches := by
    intro σ σ' τ o hs hσ
    obtain ⟨o', τ', ho, hτ, hrun⟩ := h.reaches hs hσ
    refine ⟨o', τ', ho, hτ, ?_⟩
    cases o' with
    | ended => exact hrun.trans (hmove τ')
    | returned v => exact hrun
    | failed f => exact hrun

/-- So can the first line. -/
theorem Simulates.enter {line line' behind : Nat} {s : Node}
    (h : Simulates M code line' behind s)
    (hmove : ∀ τ, Leads (step M code) (.before line τ) (.before line' τ)) :
    Simulates M code line behind s where
  reaches := by
    intro σ σ' τ o hs hσ
    obtain ⟨o', τ', ho, hτ, hrun⟩ := h.reaches hs hσ
    exact ⟨o', τ', ho, hτ, (hmove σ').trans hrun⟩
  ends := by
    intro σ σ' τ' o' n hσ hend
    obtain ⟨m, -, hm⟩ := ends_of_leads hend (hmove σ')
    exact h.ends hσ hm

/-- What runs like a statement is simulated where the statement is. -/
theorem Simulates.congr {line behind : Nat} {s s' : Node} (h : Simulates M code line behind s)
    (hs : ∀ {σ τ o}, Exec M s σ o τ ↔ Exec M s' σ o τ) : Simulates M code line behind s' where
  reaches hrun hσ := h.reaches (hs.2 hrun) hσ
  ends hσ hend := by
    obtain ⟨o, τ, hrun⟩ := h.ends hσ hend
    exact ⟨o, τ, hs.1 hrun⟩

theorem leads_label {line number : Nat} (h : code[line]? = some (.label number)) (τ : Store) :
    Leads (step M code) (.before line τ) (.before (line + 1) τ) :=
  .single (step_before h τ)

theorem leads_jump {line target number : Nat} (h : code[line]? = some (.jump number))
    (htarget : lineOf? code number = some target) (τ : Store) :
    Leads (step M code) (.before line τ) (.before target τ) := by
  refine .single ?_
  rw [step_before h, perform, goto, htarget]

section Parts

variable {t t' line : Nat} {piece : List Instruction} {a : Operand}

/-! ### Simple statements -/

theorem Simulates.assign {name : String} {value : Node} {declares : Option Ty}
    {l : Option Location} (c : Computes value t piece a t') (hv : AvoidsTemps value)
    (hcode : CodeAt code line piece)
    (hcopy : code[line + piece.length]? = some (.copy name a)) :
    Simulates M code line (line + piece.length + 1) (.assign name value declares l) := by
  refine .of_total (fun σ => ?_) fun {σ σ' τ o} hs hσ => ?_
  · cases heval : eval M σ value with
    | ok v => exact ⟨_, _, .assign heval⟩
    | error f => exact ⟨_, _, .assign_fails heval⟩
  · have hd := c.delivers (M := M) hv hcode hσ
    cases hs with
    | @assign _ _ _ _ _ v heval =>
      rw [heval] at hd
      obtain ⟨τ', hrun, hτ, hread⟩ := hd.ok
      refine ⟨.ended, τ'.set name v, .ended, (hσ.trans (hτ.mono (Nat.zero_le _))).set name v,
        hrun.trans (.single ?_)⟩
      rw [step_before hcopy, perform, hread]
      rfl
    | assign_fails heval =>
      rw [heval] at hd
      obtain ⟨g, τ', hrun, hτ⟩ := hd.error fun τ g hg => by rw [step_before hcopy, perform, hg]
      exact ⟨.failed g, τ', .failed, hσ.trans (hτ.mono (Nat.zero_le _)), hrun⟩
    | value hc _ | value_fails hc _ => simp [Node.isCommand] at hc

theorem Simulates.retValue {value : Node} {l : Option Location} (c : Computes value t piece a t')
    (hv : AvoidsTemps value) (hcode : CodeAt code line piece)
    (hret : code[line + piece.length]? = some (.retValue a)) :
    Simulates M code line (line + piece.length + 1) (.retValue value l) := by
  refine .of_total (fun σ => ?_) fun {σ σ' τ o} hs hσ => ?_
  · cases heval : eval M σ value with
    | ok v => exact ⟨_, _, .retValue heval⟩
    | error f => exact ⟨_, _, .retValue_fails heval⟩
  · have hd := c.delivers (M := M) hv hcode hσ
    cases hs with
    | @retValue _ _ _ v heval =>
      rw [heval] at hd
      obtain ⟨τ', hrun, hτ, hread⟩ := hd.ok
      refine ⟨.returned (some v), τ', .returned, hσ.trans (hτ.mono (Nat.zero_le _)),
        hrun.trans (.single ?_)⟩
      rw [step_before hret, perform, hread]
      rfl
    | retValue_fails heval =>
      rw [heval] at hd
      obtain ⟨g, τ', hrun, hτ⟩ := hd.error fun τ g hg => by rw [step_before hret, perform, hg]
      exact ⟨.failed g, τ', .failed, hσ.trans (hτ.mono (Nat.zero_le _)), hrun⟩
    | value hc _ | value_fails hc _ => simp [Node.isCommand] at hc

theorem Simulates.ret {l : Option Location} (hret : code[line]? = some .ret) :
    Simulates M code line (line + 1) (.ret l) := by
  refine .of_total (fun σ => ⟨_, _, .ret⟩) fun {σ σ' τ o} hs hσ => ?_
  cases hs with
  | ret => exact ⟨.returned none, σ', .returned, hσ, .single (step_before hret σ')⟩
  | value hc _ | value_fails hc _ => simp [Node.isCommand] at hc

/-! ### Blocks -/

theorem Simulates.block_nil {l : Option Location} : Simulates M code line line (.block [] l) := by
  refine .of_total (fun σ => ⟨_, _, .block_nil⟩) fun {σ σ' τ o} hs hσ => ?_
  obtain ⟨rfl, rfl⟩ := exec_block_nil_iff.1 hs
  exact ⟨.ended, σ', .ended, hσ, .refl⟩

theorem Simulates.block_cons {mid behind : Nat} {s : Node} {ss : List Node} {l : Option Location}
    (hs : Simulates M code line mid s) (hss : Simulates M code mid behind (.block ss l)) :
    Simulates M code line behind (.block (s :: ss) l) where
  reaches := by
    intro σ σ' τ o hrun hσ
    rcases exec_block_cons_iff.1 hrun with ⟨σ₁, h₁, h₂⟩ | ⟨h₁, ho⟩
    · obtain ⟨o₁, τ₁, ho₁, hτ₁, hrun₁⟩ := hs.reaches h₁ hσ
      cases ho₁
      obtain ⟨o₂, τ₂, ho₂, hτ₂, hrun₂⟩ := hss.reaches h₂ hτ₁
      exact ⟨o₂, τ₂, ho₂, hτ₂, hrun₁.trans hrun₂⟩
    · obtain ⟨o₁, τ₁, ho₁, hτ₁, hrun₁⟩ := hs.reaches h₁ hσ
      refine ⟨o₁, τ₁, ho₁, hτ₁, ?_⟩
      have hne := ho₁.ne_ended ho
      rwa [landing_of_ne hne] at hrun₁ ⊢
  ends := by
    intro σ σ' τ' o' n hσ hend
    obtain ⟨o, σ₁, h₁⟩ := hs.ends hσ hend
    by_cases ho : o = .ended
    · subst ho
      obtain ⟨o₁, τ₁, ho₁, hτ₁, hrun₁⟩ := hs.reaches h₁ hσ
      cases ho₁
      obtain ⟨m, -, hm⟩ := ends_of_leads hend hrun₁
      obtain ⟨o₂, σ₂, h₂⟩ := hss.ends hτ₁ hm
      exact ⟨o₂, σ₂, .block_cons h₁ h₂⟩
    · exact ⟨o, σ₁, .block_leave h₁ ho⟩

/-! ### Branches -/

/-- A test jumps if the condition is zero, falls through if it is not, and fails if it fails. -/
theorem Computes.tests {condition : Node} {number target : Nat} {σ σ' : Store}
    (c : Computes condition t piece a t') (hc : AvoidsTemps condition)
    (hcode : CodeAt code line piece)
    (hjump : code[line + piece.length]? = some (.jumpUnless a number))
    (htarget : lineOf? code number = some target) (hσ : AgreeBelow 0 σ σ') :
    ∃ τ, AgreeBelow 0 σ τ ∧
      (evalZero M σ condition = .ok true →
        Leads (step M code) (.before line σ') (.before target τ)) ∧
      (evalZero M σ condition = .ok false →
        Leads (step M code) (.before line σ') (.before (line + piece.length + 1) τ)) ∧
      (∀ f, evalZero M σ condition = .error f →
        ∃ g, Leads (step M code) (.before line σ') (.done (.failed g) τ)) := by
  have hd := c.delivers (M := M) hc hcode hσ
  cases heval : eval M σ condition with
  | error f =>
    rw [heval] at hd
    obtain ⟨g, τ, hrun, hτ⟩ := hd.error fun τ g hg => by
      rw [step_before hjump, perform, readZero, hg]
      rfl
    have herr : evalZero M σ condition = .error f := by
      rw [evalZero, heval]
      rfl
    rw [herr]
    refine ⟨τ, hσ.trans (hτ.mono (Nat.zero_le _)), fun ht => ?_, fun ht => ?_, fun _ _ => ?_⟩
    · cases ht
    · cases ht
    · exact ⟨g, hrun⟩
  | ok v =>
    rw [heval] at hd
    obtain ⟨τ, hrun, hτ, hread⟩ := hd.ok
    have hzero : readZero M τ a = evalZero M σ condition := by
      rw [readZero, hread, evalZero, heval]
    have hstep := step_before (M := M) hjump τ
    rw [perform, hzero] at hstep
    refine ⟨τ, hσ.trans (hτ.mono (Nat.zero_le _)), fun ht => ?_, fun ht => ?_, fun f ht => ?_⟩
    · simp only [ht, goto, htarget] at hstep
      exact hrun.trans (.single hstep)
    · simp only [ht] at hstep
      exact hrun.trans (.single hstep)
    · simp only [ht] at hstep
      exact ⟨f, hrun.trans (.single hstep)⟩

theorem Simulates.ifThen {condition thenBranch : Node} {l : Option Location}
    {number behind : Nat} (c : Computes condition t piece a t') (hc : AvoidsTemps condition)
    (hcode : CodeAt code line piece)
    (hjump : code[line + piece.length]? = some (.jumpUnless a number))
    (htarget : lineOf? code number = some behind)
    (hthen : Simulates M code (line + piece.length + 1) behind thenBranch) :
    Simulates M code line behind (.ifThen condition thenBranch l) where
  reaches := by
    intro σ σ' τ o hs hσ
    obtain ⟨τ₁, hτ₁, hzero, hnonzero, hfails⟩ := c.tests (M := M) hc hcode hjump htarget hσ
    cases hs with
    | ifThen_zero ht => exact ⟨.ended, τ₁, .ended, hτ₁, hzero ht⟩
    | ifThen_nonzero ht hs =>
      obtain ⟨o₂, τ₂, ho₂, hτ₂, hrun₂⟩ := hthen.reaches hs hτ₁
      exact ⟨o₂, τ₂, ho₂, hτ₂, (hnonzero ht).trans hrun₂⟩
    | ifThen_fails ht =>
      obtain ⟨g, hrun⟩ := hfails _ ht
      exact ⟨.failed g, τ₁, .failed, hτ₁, hrun⟩
    | value hc _ | value_fails hc _ => simp [Node.isCommand] at hc
  ends := by
    intro σ σ' τ' o' n hσ hend
    obtain ⟨τ₁, hτ₁, -, hnonzero, -⟩ := c.tests (M := M) hc hcode hjump htarget hσ
    cases ht : evalZero M σ condition with
    | error f => exact ⟨_, _, .ifThen_fails ht⟩
    | ok zero =>
      cases zero with
      | true => exact ⟨_, _, .ifThen_zero ht⟩
      | false =>
        obtain ⟨m, -, hm⟩ := ends_of_leads hend (hnonzero ht)
        obtain ⟨o, τ, hs⟩ := hthen.ends hτ₁ hm
        exact ⟨o, τ, .ifThen_nonzero ht hs⟩

theorem Simulates.ifElse {condition thenBranch elseBranch : Node} {l : Option Location}
    {number other behind : Nat} (c : Computes condition t piece a t') (hc : AvoidsTemps condition)
    (hcode : CodeAt code line piece)
    (hjump : code[line + piece.length]? = some (.jumpUnless a number))
    (htarget : lineOf? code number = some other)
    (hthen : Simulates M code (line + piece.length + 1) behind thenBranch)
    (helse : Simulates M code other behind elseBranch) :
    Simulates M code line behind (.ifElse condition thenBranch elseBranch l) where
  reaches := by
    intro σ σ' τ o hs hσ
    obtain ⟨τ₁, hτ₁, hzero, hnonzero, hfails⟩ := c.tests (M := M) hc hcode hjump htarget hσ
    cases hs with
    | ifElse_zero ht hs =>
      obtain ⟨o₂, τ₂, ho₂, hτ₂, hrun₂⟩ := helse.reaches hs hτ₁
      exact ⟨o₂, τ₂, ho₂, hτ₂, (hzero ht).trans hrun₂⟩
    | ifElse_nonzero ht hs =>
      obtain ⟨o₂, τ₂, ho₂, hτ₂, hrun₂⟩ := hthen.reaches hs hτ₁
      exact ⟨o₂, τ₂, ho₂, hτ₂, (hnonzero ht).trans hrun₂⟩
    | ifElse_fails ht =>
      obtain ⟨g, hrun⟩ := hfails _ ht
      exact ⟨.failed g, τ₁, .failed, hτ₁, hrun⟩
    | value hc _ | value_fails hc _ => simp [Node.isCommand] at hc
  ends := by
    intro σ σ' τ' o' n hσ hend
    obtain ⟨τ₁, hτ₁, hzero, hnonzero, -⟩ := c.tests (M := M) hc hcode hjump htarget hσ
    cases ht : evalZero M σ condition with
    | error f => exact ⟨_, _, .ifElse_fails ht⟩
    | ok zero =>
      cases zero with
      | true =>
        obtain ⟨m, -, hm⟩ := ends_of_leads hend (hzero ht)
        obtain ⟨o, τ, hs⟩ := helse.ends hτ₁ hm
        exact ⟨o, τ, .ifElse_zero ht hs⟩
      | false =>
        obtain ⟨m, -, hm⟩ := ends_of_leads hend (hnonzero ht)
        obtain ⟨o, τ, hs⟩ := hthen.ends hτ₁ hm
        exact ⟨o, τ, .ifElse_nonzero ht hs⟩

/-! ### Loops -/

section Loop

variable {condition body : Node} {l : Option Location} {start finish last behind : Nat}
  (hstart : code[line]? = some (.label start)) (c : Computes condition t piece a t')
  (hc : AvoidsTemps condition) (hcode : CodeAt code (line + 1) piece)
  (hjump : code[line + 1 + piece.length]? = some (.jumpUnless a finish))
  (hback : code[last]? = some (.jump start)) (hline : lineOf? code start = some line)
  (htarget : lineOf? code finish = some behind)
  (hbody : Simulates M code (line + 1 + piece.length + 1) last body)

include hstart c hc hcode hjump hback hline htarget hbody

/-- A loop comes back to its label, which is one step in front of its test. -/
theorem Simulates.loop_reaches {σ σ' τ : Store} {o : Outcome F}
    (hs : Exec M (.whileLoop condition body l) σ o τ) (hσ : AgreeBelow 0 σ σ') :
    ∃ o' τ', o.Agrees o' ∧ AgreeBelow 0 τ τ' ∧
      Leads (step M code) (.before line σ') (landing behind o' τ') := by
  generalize hloop : Node.whileLoop condition body l = loop at hs
  induction hs generalizing σ' with
  | while_zero ht =>
    cases hloop
    obtain ⟨τ₁, hτ₁, hzero, -, -⟩ := c.tests (M := M) hc hcode hjump htarget hσ
    exact ⟨.ended, τ₁, .ended, hτ₁, (leads_label hstart σ').trans (hzero ht)⟩
  | while_again ht hs _ _ ih =>
    cases hloop
    obtain ⟨τ₁, hτ₁, -, hnonzero, -⟩ := c.tests (M := M) hc hcode hjump htarget hσ
    obtain ⟨o₂, τ₂, ho₂, hτ₂, hrun₂⟩ := hbody.reaches hs hτ₁
    cases ho₂
    obtain ⟨o₃, τ₃, ho₃, hτ₃, hrun₃⟩ := ih hτ₂ rfl
    exact ⟨o₃, τ₃, ho₃, hτ₃, (leads_label hstart σ').trans ((hnonzero ht).trans
      (hrun₂.trans ((leads_jump hback hline τ₂).trans hrun₃)))⟩
  | while_leave ht hs ho _ =>
    cases hloop
    obtain ⟨τ₁, hτ₁, -, hnonzero, -⟩ := c.tests (M := M) hc hcode hjump htarget hσ
    obtain ⟨o₂, τ₂, ho₂, hτ₂, hrun₂⟩ := hbody.reaches hs hτ₁
    have hne := ho₂.ne_ended ho
    rw [landing_of_ne hne] at hrun₂
    refine ⟨o₂, τ₂, ho₂, hτ₂, ?_⟩
    rw [landing_of_ne hne]
    exact (leads_label hstart σ').trans ((hnonzero ht).trans hrun₂)
  | while_fails ht =>
    cases hloop
    obtain ⟨τ₁, hτ₁, -, -, hfails⟩ := c.tests (M := M) hc hcode hjump htarget hσ
    obtain ⟨g, hrun⟩ := hfails _ ht
    exact ⟨.failed g, τ₁, .failed, hτ₁, (leads_label hstart σ').trans hrun⟩
  | value hcommand _ | value_fails hcommand _ =>
    subst hloop
    simp [Node.isCommand] at hcommand
  | _ => cases hloop

/-- A round takes steps, the one at the label among them, so fewer are left after it. -/
theorem Simulates.loop_ends {σ σ' τ' : Store} {o' : Outcome F} {n : Nat} (hσ : AgreeBelow 0 σ σ')
    (hend : (step M code)^[n] (.before line σ') = .done o' τ') :
    ∃ o τ, Exec M (.whileLoop condition body l) σ o τ := by
  induction n using Nat.strongRecOn generalizing σ σ' with
  | ind n ih =>
    obtain ⟨τ₁, hτ₁, -, hnonzero, -⟩ := c.tests (M := M) hc hcode hjump htarget hσ
    cases ht : evalZero M σ condition with
    | error f => exact ⟨_, _, .while_fails ht⟩
    | ok zero =>
      cases zero with
      | true => exact ⟨_, _, .while_zero ht⟩
      | false =>
        cases n with
        | zero => cases hend
        | succ n =>
          rw [Function.iterate_succ_apply, step_before hstart, perform] at hend
          obtain ⟨m, hm, hend⟩ := ends_of_leads hend (hnonzero ht)
          obtain ⟨o, σ₁, hs⟩ := hbody.ends hτ₁ hend
          by_cases ho : o = .ended
          · subst ho
            obtain ⟨o₁, τ₂, ho₁, hτ₂, hrun⟩ := hbody.reaches hs hτ₁
            cases ho₁
            obtain ⟨m', hm', hend⟩ :=
              ends_of_leads hend (hrun.trans (leads_jump hback hline τ₂))
            obtain ⟨o, τ, hagain⟩ := ih m' (by omega) hτ₂ hend
            exact ⟨o, τ, .while_again ht hs hagain⟩
          · exact ⟨o, σ₁, .while_leave ht hs ho⟩

theorem Simulates.loop : Simulates M code line behind (.whileLoop condition body l) where
  reaches := loop_reaches hstart c hc hcode hjump hback hline htarget hbody
  ends := loop_ends hstart c hc hcode hjump hback hline htarget hbody

end Loop

theorem Simulates.forLoop {init condition update body : Node} {l : Option Location}
    {mid behind : Nat} (hinit : Simulates M code line mid init)
    (hrounds : Simulates M code mid behind (.rounds condition update body l)) :
    Simulates M code line behind (.forLoop init condition update body l) := by
  refine (hinit.block_cons (l := l) (hrounds.block_cons (l := l) .block_nil)).congr ?_
  intro σ τ o
  rw [exec_forLoop_iff]

end Parts

/-! ### All statements -/

theorem AvoidsTemps.of_subset {n n' : Node} (h : AvoidsTemps n)
    (hsub : n'.names ⊆ n.names) : AvoidsTemps n' :=
  fun x hx => h x (hsub hx)

/-- The code of a loop, around that of its condition and its round. -/
theorem Simulates.loopCode {condition body : Node} {l : Option Location} {t t' line : Nat}
    {start finish : Nat} {test round : List Instruction} {a : Operand}
    (c : Computes condition t test a t') (hc : AvoidsTemps condition)
    (hnodup : (labelsOf code).Nodup)
    (hcode : CodeAt code line (.label start :: test ++ .jumpUnless a finish :: round ++
      [.jump start, .label finish]))
    (hround : ∀ {line}, CodeAt code line round →
      Simulates M code line (line + round.length) body) :
    Simulates M code line (line + (.label start :: test ++ .jumpUnless a finish :: round ++
      [.jump start, .label finish] : List Instruction).length) (.whileLoop condition body l) := by
  have hstart := hcode.left.left.head
  have htestEnd : line + (Instruction.label start :: test).length = line + 1 + test.length := by
    rw [List.length_cons]
    omega
  have hmid := hcode.left.right
  rw [htestEnd] at hmid
  have hroundEnd : line + (Instruction.label start :: test ++
      Instruction.jumpUnless a finish :: round).length =
      line + 1 + test.length + 1 + round.length := by
    rw [List.length_append, ← Nat.add_assoc, htestEnd, List.length_cons]
    omega
  have hlast := hcode.right
  rw [hroundEnd] at hlast
  rw [List.length_append, ← Nat.add_assoc, hroundEnd]
  exact (Simulates.loop hstart c hc hcode.left.left.tail hmid.head hlast.head
    (lineOf?_eq hnodup hstart) (lineOf?_eq hnodup hlast.tail.head) (hround hmid.tail)).leave
    (leads_label hlast.tail.head)

/-- **The code of a statement simulates it**, in any whole that sets no label twice. -/
theorem Emits.simulates {s : Node} {k k' : Counters} {piece : List Instruction} {line : Nat}
    (h : Emits s k piece k') (hs : AvoidsTemps s) (hnodup : (labelsOf code).Nodup)
    (hcode : CodeAt code line piece) : Simulates M code line (line + piece.length) s := by
  induction h generalizing line with
  | assign c =>
    rw [List.length_append, ← Nat.add_assoc]
    exact .assign c (hs.of_subset (List.subset_cons_self _ _)) hcode.left hcode.right.head
  | block_nil => exact .block_nil
  | block_cons e₁ e₂ ih₁ ih₂ =>
    rw [List.length_append, ← Nat.add_assoc]
    exact (ih₁ (hs.of_subset (List.subset_append_left _ _)) hcode.left).block_cons
      (ih₂ (hs.of_subset (List.subset_append_right _ _)) hcode.right)
  | @ifThen condition thenBranch l k k₁ test thenCode a t c e ih =>
    have hlabel := hcode.right.head
    have hend : line + (test ++ Instruction.jumpUnless a k.labels :: thenCode).length =
        line + test.length + 1 + thenCode.length := by
      simp only [List.length_append, List.length_cons]
      omega
    rw [List.length_append, ← Nat.add_assoc, hend]
    rw [hend] at hlabel
    have hthen := ih (hs.of_subset (List.subset_append_right _ _)) hcode.left.right.tail
    exact (Simulates.ifThen c (hs.of_subset (List.subset_append_left _ _)) hcode.left.left
      hcode.left.right.head (lineOf?_eq hnodup hlabel) hthen).leave (leads_label hlabel)
  | @ifElse condition thenBranch elseBranch l k k₁ k₂ test thenCode elseCode a t c e₁ e₂ ih₁ ih₂ =>
    have hthenEnd : line + (test ++ Instruction.jumpUnless a k.labels :: thenCode).length =
        line + test.length + 1 + thenCode.length := by
      simp only [List.length_append, List.length_cons]
      omega
    have hskip := hcode.left.right
    rw [hthenEnd] at hskip
    have hend : line + (test ++ Instruction.jumpUnless a k.labels :: thenCode ++
        Instruction.jump k₁.labels :: Instruction.label k.labels :: elseCode).length =
        line + test.length + 1 + thenCode.length + 1 + 1 + elseCode.length := by
      rw [List.length_append, ← Nat.add_assoc, hthenEnd]
      simp only [List.length_cons]
      omega
    have hlabel := hcode.right.head
    rw [hend] at hlabel
    rw [List.length_append, ← Nat.add_assoc, hend]
    have hthen := ih₁ (hs.of_subset fun x hx => by simp [Node.names, hx])
      hcode.left.left.right.tail
    have helse := ih₂ (hs.of_subset fun x hx => by simp [Node.names, hx]) hskip.tail.tail
    exact (Simulates.ifElse c (hs.of_subset fun x hx => by simp [Node.names, hx])
      hcode.left.left.left hcode.left.left.right.head (lineOf?_eq hnodup hskip.tail.head)
      (hthen.leave (leads_jump hskip.head (lineOf?_eq hnodup hlabel)))
      (helse.enter (leads_label hskip.tail.head))).leave (leads_label hlabel)
  | whileLoop c _ ih =>
    have hbody := hs.of_subset (List.subset_append_right _ _)
    exact .loopCode c (hs.of_subset (List.subset_append_left _ _)) hnodup hcode
      fun hround => ih hbody hround
  | @forLoop init condition update body l k _ _ _ initCode test bodyCode updateCode a _ _ c _ _
      ih₁ ih₂ ih₃ =>
    have hpiece : initCode ++ .label k.labels :: test ++ .jumpUnless a (k.labels + 1) :: bodyCode ++
        updateCode ++ [.jump k.labels, .label (k.labels + 1)] =
          initCode ++ (.label k.labels :: test ++
            .jumpUnless a (k.labels + 1) :: (bodyCode ++ updateCode) ++
            [.jump k.labels, .label (k.labels + 1)]) := by
      simp only [List.append_assoc, List.cons_append]
    rw [hpiece] at hcode ⊢
    rw [List.length_append, ← Nat.add_assoc]
    have hinit : AvoidsTemps init := hs.of_subset fun x hx => by simp [Node.names, hx]
    have hcondition : AvoidsTemps condition := hs.of_subset fun x hx => by simp [Node.names, hx]
    have hupdate : AvoidsTemps update := hs.of_subset fun x hx => by simp [Node.names, hx]
    have hbody : AvoidsTemps body := hs.of_subset fun x hx => by simp [Node.names, hx]
    refine .forLoop (ih₁ hinit hcode.left) (.loopCode c hcondition hnodup hcode.right ?_)
    intro line hround
    rw [List.length_append, ← Nat.add_assoc]
    exact (ih₂ hbody hround.left).block_cons ((ih₃ hupdate hround.right).block_cons .block_nil)
  | ret => exact .ret hcode.head
  | retValue c =>
    rw [List.length_append, ← Nat.add_assoc]
    exact .retValue c hs hcode.left hcode.right.head

/-! ## The code of a tree on its own -/

/-- What can be seen of a run: its outcome up to which fault it is, and the values of all names but
those of temporaries. -/
def Observes (run : Outcome F → Store → Prop) (o : Outcome F) (τ : Store) : Prop :=
  ∃ o' τ', run o' τ' ∧ o'.Agrees o ∧ AgreeBelow 0 τ' τ

theorem generate_of_emits {s : Node} {k' : Counters}
    (h : statement s {} = .ok (code, k')) : generate s = .ok code := by
  show (statement s {} >>= fun p => pure p.1) = _
  rw [h]
  rfl

/-- Behind the last line the machine is at its end. -/
theorem leads_done {line : Nat} {σ τ : Store} {o : Outcome F}
    (h : Leads (step M code) (.before line σ) (landing code.length o τ)) :
    Leads (step M code) (.before line σ) (.done o τ) := by
  cases o with
  | ended =>
    refine h.trans (.single ?_)
    show step M code (.before code.length τ) = _
    rw [step, List.getElem?_eq_none (Nat.le_refl _)]
  | returned v => exact h
  | failed f => exact h

/-- The whole code of a statement runs to what the statement does. -/
theorem Simulates.observes_iff {s : Node} (h : Simulates M code 0 code.length s) (σ : Store)
    (o : Outcome F) (τ : Store) :
    Observes (Exec M s σ) o τ ↔ Observes (Machine.Runs M code σ) o τ := by
  constructor
  · intro hexec
    obtain ⟨o₁, τ₁, hs, ho, hτ⟩ := hexec
    obtain ⟨o₂, τ₂, ho₂, hτ₂, hrun⟩ := h.reaches hs (.refl 0 σ)
    exact ⟨o₂, τ₂, leads_done hrun, ho₂.symm.trans ho, hτ₂.symm.trans hτ⟩
  · intro hexec
    obtain ⟨o₁, τ₁, ⟨n, hn⟩, ho, hτ⟩ := hexec
    obtain ⟨o₂, τ₂, hs⟩ := h.ends (.refl 0 σ) hn
    obtain ⟨o₃, τ₃, ho₃, hτ₃, hrun⟩ := h.reaches hs (.refl 0 σ)
    have hsame := Leads.unique (step_done o₁ τ₁) (step_done o₃ τ₃) ⟨n, hn⟩ (leads_done hrun)
    cases hsame
    exact ⟨o₂, τ₂, hs, ho₃.trans ho, hτ₃.trans hτ⟩

theorem Simulates.diverges_iff {s : Node} (h : Simulates M code 0 code.length s) (σ : Store) :
    Diverges M s σ ↔ Machine.Diverges M code σ := by
  rw [ThreeAddress.diverges_iff, Machine.diverges_iff]
  constructor
  · intro hs o τ hexec
    obtain ⟨n, hn⟩ := hexec
    obtain ⟨o', τ', hrun⟩ := h.ends (.refl 0 σ) hn
    exact hs o' τ' hrun
  · intro hcode o τ hs
    obtain ⟨o', τ', -, -, hrun⟩ := h.reaches hs (.refl 0 σ)
    exact hcode o' τ' (leads_done hrun)

/-- **Code generation preserves meaning.** -/
theorem generate_preserves_meaning {s : Node} (hs : s.IsStatement) (hnames : AvoidsTemps s) :
    ∃ code, generate s = .ok code ∧ ∀ {F : Type} (M : Interpretation F) (σ : Store),
      (∀ o τ, Observes (Exec M s σ) o τ ↔ Observes (Machine.Runs M code σ) o τ) ∧
      (Diverges M s σ ↔ Machine.Diverges M code σ) := by
  obtain ⟨code, k', hcode, e⟩ := emits_of_isStatement hs {}
  refine ⟨code, generate_of_emits hcode, fun M σ => ?_⟩
  have hsim := e.simulates (M := M) hnames e.nodup_labelsOf (.whole code)
  rw [Nat.zero_add] at hsim
  exact ⟨hsim.observes_iff σ, hsim.diverges_iff σ⟩

/-- A name that starts with another letter is no temporary. -/
theorem ne_tempName {c : Char} {cs : List Char} (hc : c ≠ 't') (t : Nat) :
    String.ofList (c :: cs) ≠ tempName t := by
  intro h
  have hlist := congrArg String.toList h
  simp [tempName] at hlist
  exact hc hlist.1

/-- `while (x) x = x - 1;` -/
def countdown : Node :=
  .whileLoop (.var "x" none)
    (.assign "x" (.binary (.var "x" none) .sub (.int 1 none) none) none none) none

theorem countdown_preserves_meaning :
    countdown.IsStatement ∧ AvoidsTemps countdown ∧
      ∃ code, generate countdown = .ok code ∧ ∀ {F : Type} (M : Interpretation F) (σ : Store),
        (∀ o τ, Observes (Exec M countdown σ) o τ ↔ Observes (Machine.Runs M code σ) o τ) ∧
        (Diverges M countdown σ ↔ Machine.Diverges M code σ) := by
  have hs : countdown.IsStatement := .whileLoop .var (.assign (.binary .var .int))
  have hnames : AvoidsTemps countdown := by
    intro x hx t
    have hx : x = "x" := by simpa [countdown, Node.names] using hx
    rw [hx]
    exact @ne_tempName 'x' [] (by decide) t
  exact ⟨hs, hnames, generate_preserves_meaning hs hnames⟩

end ThreeAddress
