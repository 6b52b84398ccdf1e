import Mathlib.Data.List.Forall2
import ThreeAddress.Proofs.Grammar.Soundness
import ThreeAddress.Proofs.Tree.Places

/-!
# The parser on two readers

A parsing step knows the current token and the number of tokens in reach, and can take the token or
reject it. So two runs of the parser go side by side as long as their tokens do, whatever the places
of these are, whatever stands behind them, and whatever comes up once they have run out.

* `Parallel`: two steps are built alike from taking, looking and rejecting. Places are compared as
  far as a function shows them, and the second run may have more budget, by a fixed slack.
* `program_parallel`: the parser is parallel to itself.
* `Course`, `InStep`: two readers side by side, the first of which may run into a fault where the
  second has more tokens.
* `Parallel.outcome`: the outcomes of parallel steps on readers that are in step.
-/

namespace ThreeAddress

open Parse

/-- The tokens are the same for the parser: they differ in their places only, as far as these are
shown, and a float literal can be read. -/
structure Token.Paired (place : Option Location → Option Location) (t t' : Token) : Prop where
  kind : t.kind = t'.kind
  text : t.text = t'.text
  location : place t.location = place t'.location
  readable : t.kind = .floatLiteral → ∃ x, Literal.readFloat? t.text.toList = some x

/-- The trees differ in their places only, as far as these are shown. -/
def Node.Paired (place : Option Location → Option Location) (n n' : Node) : Prop :=
  n.mapPlaces place = n'.mapPlaces place

theorem Token.Paired.describe {place : Option Location → Option Location} {t t' : Token}
    (h : t.Paired place t') : t.describe = t'.describe := by
  rw [Token.describe, Token.describe, h.kind, h.text]

theorem Token.Lexical.paired {place : Option Location → Option Location} {t t' : Token}
    (h : t.Lexical) (hkind : t.kind = t'.kind) (htext : t.text = t'.text)
    (hplace : place t.location = place t'.location) : t.Paired place t' :=
  ⟨hkind, htext, hplace, Grammar.readFloat?_of_lexical h⟩

theorem Token.Paired.endMark {place : Option Location → Option Location} :
    endMark.Paired place endMark :=
  ⟨rfl, rfl, rfl, nofun⟩

namespace Grammar

/-! ## Parallel steps -/

/-- What parallel steps may know of their readers: the current token, and how many are in reach. -/
structure Abreast (place : Option Location → Option Location) (slack : Nat) (r r' : Reader) :
    Prop where
  current : r.current.Paired place r'.current
  size : r'.size = r.size + slack

/-- The steps are built alike, and their results go together. -/
inductive Parallel (place : Option Location → Option Location) (slack : Nat) {α β : Type}
    (Goes : α → β → Prop) : Parse α → Parse β → Prop
  | pure {a : α} {b : β} : Goes a b → Parallel place slack Goes (Pure.pure a) (Pure.pure b)
  | reject {cause cause' : Reader → Cause} :
      (∀ r r', Abreast place slack r r' → cause r = cause' r') →
      Parallel place slack Goes (Parse.reject cause) (Parse.reject cause')
  | look {g : Reader → Parse α} {g' : Reader → Parse β} :
      (∀ r r', Abreast place slack r r' → Parallel place slack Goes (g r) (g' r')) →
      Parallel place slack Goes (get >>= g) (get >>= g')
  | take {g : Token → Parse α} {g' : Token → Parse β} :
      (∀ t t', t.Paired place t' → Parallel place slack Goes (g t) (g' t')) →
      Parallel place slack Goes (advance >>= g) (advance >>= g')
  /-- The first run has used up a budget of which the second one has more. -/
  | exhausted {y : Parse β} : slack ≠ 0 → Parallel place slack Goes Grammar.exhausted y

namespace Parallel

variable {place : Option Location → Option Location} {slack : Nat} {α β γ δ : Type}
  {Goes : α → β → Prop} {Next : γ → δ → Prop} {x : Parse α} {x' : Parse β}
  {f : α → Parse γ} {f' : β → Parse δ}

/-- Parallel steps one after the other. -/
theorem bind (h : Parallel place slack Goes x x')
    (hf : ∀ a b, Goes a b → Parallel place slack Next (f a) (f' b)) :
    Parallel place slack Next (x >>= f) (x' >>= f') := by
  induction h with
  | pure hab =>
    rw [pure_bind, pure_bind]
    exact hf _ _ hab
  | reject hcause => exact .reject hcause
  | look _ ih =>
    rw [bind_assoc, bind_assoc]
    exact .look ih
  | take _ ih =>
    rw [bind_assoc, bind_assoc]
    exact .take ih
  | exhausted hslack => exact .exhausted hslack

/-- Both steps go on according to the kind of the current token. -/
theorem kind {g : Kind → Parse α} {g' : Kind → Parse β}
    (h : ∀ k, Parallel place slack Goes (g k) (g' k)) :
    Parallel place slack Goes (Parse.kind >>= g) (Parse.kind >>= g') := by
  show Parallel place slack Goes (get >>= fun r : Reader => g r.current.kind)
    (get >>= fun r : Reader => g' r.current.kind)
  refine .look fun r r' hr => ?_
  rw [hr.current.kind]
  exact h _

/-- Both steps go on with the place of the current token. -/
theorem here {g : Option Location → Parse α} {g' : Option Location → Parse β}
    (h : ∀ l l', place l = place l' → Parallel place slack Goes (g l) (g' l')) :
    Parallel place slack Goes (Parse.here >>= g) (Parse.here >>= g') := by
  show Parallel place slack Goes (get >>= fun r : Reader => g r.current.location)
    (get >>= fun r : Reader => g' r.current.location)
  exact .look fun r r' hr => h _ _ hr.current.location

theorem advance : Parallel place slack (Token.Paired place) Parse.advance Parse.advance := by
  rw [← bind_pure Parse.advance]
  exact .take fun _ _ ht => .pure ht

theorem expect (k : Kind) :
    Parallel place slack (Token.Paired place) (Parse.expect k) (Parse.expect k) := by
  refine .kind fun k' => ?_
  split
  · exact .advance
  · exact .reject fun r r' hr => by rw [hr.current.describe]

end Parallel

/-! ## Expressions -/

variable {place : Option Location → Option Location} {slack : Nat}

theorem intLiteral_parallel {t t' : Token} (ht : t.Paired place t') :
    Parallel place slack (Node.Paired place) (intLiteral t) (intLiteral t') := by
  unfold intLiteral
  rw [ht.text]
  split
  · refine Parallel.advance.bind fun _ _ _ => .pure ?_
    simp [Node.Paired, Node.mapPlaces, ht.location]
  · exact .reject fun _ _ _ => rfl

theorem floatLiteral_parallel {t t' : Token} (ht : t.Paired place t')
    (hk : t.kind = .floatLiteral) :
    Parallel place slack (Node.Paired place) (floatLiteral t) (floatLiteral t') := by
  obtain ⟨x, hx⟩ := ht.readable hk
  unfold floatLiteral
  refine Parallel.advance.bind fun _ _ _ => ?_
  rw [← ht.text, hx]
  refine .pure ?_
  simp [Node.Paired, Node.mapPlaces, ht.location]

theorem factor_parallel {expression expression' : Parse Node}
    (h : Parallel place slack (Node.Paired place) expression expression') :
    Parallel place slack (Node.Paired place) (factor expression) (factor expression') := by
  refine .look fun r r' hr => ?_
  have ht := hr.current
  dsimp only
  rw [← ht.kind]
  split
  · exact intLiteral_parallel ht
  · next hk => exact floatLiteral_parallel ht hk
  · refine Parallel.advance.bind fun _ _ _ => .pure ?_
    simp [Node.Paired, Node.mapPlaces, ht.location, ht.text]
  · refine Parallel.advance.bind fun _ _ _ => .pure ?_
    simp [Node.Paired, Node.mapPlaces, ht.location, ht.text]
  · refine Parallel.advance.bind fun _ _ _ => ?_
    refine h.bind fun _ _ he => ?_
    exact (Parallel.expect _).bind fun _ _ _ => .pure he
  · exact .reject fun _ _ hr => by rw [hr.current.describe]

/-- Where the first run gives up, the second one does the same or has budget left. -/
theorem exhausted_parallel {α β : Type} {Goes : α → β → Prop} {y : Parse β}
    (h : slack = 0 → y = exhausted) : Parallel place slack Goes exhausted y := by
  by_cases hslack : slack = 0
  · rw [h hslack]
    exact .reject fun _ _ _ => rfl
  · exact .exhausted hslack

/-- The functions for expressions, with a budget and with a larger one. -/
structure ParallelWithin (place : Option Location → Option Location) (slack n n' : Nat) :
    Prop where
  expression : Parallel place slack (Node.Paired place) (expressionWithin n) (expressionWithin n')
  moreTerms : ∀ {left left' : Node}, left.Paired place left' →
    Parallel place slack (Node.Paired place) (moreTermsWithin n left) (moreTermsWithin n' left')
  term : Parallel place slack (Node.Paired place) (termWithin n) (termWithin n')
  moreFactors : ∀ {left left' : Node}, left.Paired place left' →
    Parallel place slack (Node.Paired place) (moreFactorsWithin n left)
      (moreFactorsWithin n' left')

theorem paired_binary {left left' right right' : Node} {op op' : Token}
    (hleft : left.Paired place left') (hop : op.Paired place op')
    (hright : right.Paired place right') :
    (Node.binary left (.ofSymbol op.text) right op.location).Paired place
      (.binary left' (.ofSymbol op'.text) right' op'.location) := by
  unfold Node.Paired at *
  simp only [Node.mapPlaces, hleft, hright, hop.text, hop.location]

theorem parallelWithin (n : Nat) : ParallelWithin place slack n (n + 4 * slack) := by
  induction n with
  | zero =>
    refine ⟨?_, fun _ => ?_, ?_, fun _ => ?_⟩ <;>
    · refine exhausted_parallel ?_
      rintro rfl
      rfl
  | succ n ih =>
    rw [Nat.add_right_comm]
    refine ⟨?_, fun hleft => ?_, ?_, fun hleft => ?_⟩
    · rw [expressionWithin, expressionWithin]
      exact ih.term.bind fun _ _ hleft => ih.moreTerms hleft
    · rw [moreTermsWithin, moreTermsWithin]
      refine .kind fun k => ?_
      split
      · refine .take fun op op' hop => ?_
        exact ih.term.bind fun _ _ hright => ih.moreTerms (paired_binary hleft hop hright)
      · exact .pure hleft
    · rw [termWithin, termWithin]
      exact (factor_parallel ih.expression).bind fun _ _ hleft => ih.moreFactors hleft
    · rw [moreFactorsWithin, moreFactorsWithin]
      refine .kind fun k => ?_
      split
      · refine .take fun op op' hop => ?_
        refine (factor_parallel ih.expression).bind fun _ _ hright => ?_
        exact ih.moreFactors (paired_binary hleft hop hright)
      · exact .pure hleft

theorem budget_add (n slack : Nat) : 4 * (n + slack + 1) = 4 * (n + 1) + 4 * slack := by omega

theorem expression_parallel :
    Parallel place slack (Node.Paired place) expression expression := by
  show Parallel place slack (Node.Paired place)
    (get >>= fun r : Reader => expressionWithin (4 * (r.size + 1)))
    (get >>= fun r : Reader => expressionWithin (4 * (r.size + 1)))
  refine .look fun r r' hr => ?_
  rw [hr.size, budget_add]
  exact (parallelWithin _).expression

/-! ## Statements -/

theorem declaredType_parallel : Parallel place slack Eq declaredType declaredType := by
  refine .kind fun k => ?_
  split
  · refine .take fun t t' ht => .pure ?_
    rw [ht.text]
  · exact .pure rfl

theorem assignment_parallel (closed : Bool) :
    Parallel place slack (Node.Paired place) (assignment expression closed)
      (assignment expression closed) := by
  refine .here fun l l' hl => ?_
  refine declaredType_parallel.bind fun declares _ hdeclares => ?_
  subst hdeclares
  refine (Parallel.expect _).bind fun name name' hname => ?_
  refine (Parallel.expect _).bind fun _ _ _ => ?_
  refine .kind fun k => ?_
  split
  · exact .reject fun _ _ hr => by rw [hr.current.describe]
  · refine expression_parallel.bind fun value value' hvalue => ?_
    have hassign : (Node.assign name.text value declares l).Paired place
        (.assign name'.text value' declares l') := by
      unfold Node.Paired at *
      simp only [Node.mapPlaces, hvalue, hname.text, hl]
    cases closed with
    | false => exact .pure hassign
    | true => exact (Parallel.expect _).bind fun _ _ _ => .pure hassign

theorem condition_parallel :
    Parallel place slack (Node.Paired place) (condition expression) (condition expression) := by
  refine (Parallel.expect _).bind fun _ _ _ => ?_
  refine expression_parallel.bind fun _ _ he => ?_
  exact (Parallel.expect _).bind fun _ _ _ => .pure he

theorem returnStatement_parallel :
    Parallel place slack (Node.Paired place) (returnStatement expression)
      (returnStatement expression) := by
  refine .here fun l l' hl => ?_
  refine (Parallel.expect _).bind fun _ _ _ => ?_
  refine .kind fun k => ?_
  split
  · refine (Parallel.expect _).bind fun _ _ _ => .pure ?_
    simp [Node.Paired, Node.mapPlaces, hl]
  · refine expression_parallel.bind fun _ _ he => ?_
    refine (Parallel.expect _).bind fun _ _ _ => .pure ?_
    unfold Node.Paired at *
    simp only [Node.mapPlaces, he, hl]

section Blocks

variable {block block' : Parse Node} (h : Parallel place slack (Node.Paired place) block block')

include h

theorem branch_parallel :
    Parallel place slack (Node.Paired place) (branch expression block)
      (branch expression block') := by
  refine .here fun l l' hl => ?_
  refine (Parallel.expect _).bind fun _ _ _ => ?_
  refine condition_parallel.bind fun _ _ hc => ?_
  refine h.bind fun _ _ ht => ?_
  refine .kind fun k => ?_
  split
  · refine .take fun _ _ _ => ?_
    refine h.bind fun _ _ he => .pure ?_
    unfold Node.Paired at *
    simp only [Node.mapPlaces, hc, ht, he, hl]
  · refine .pure ?_
    unfold Node.Paired at *
    simp only [Node.mapPlaces, hc, ht, hl]

theorem forLoop_parallel :
    Parallel place slack (Node.Paired place) (forLoop expression (assignment expression) block)
      (forLoop expression (assignment expression) block') := by
  refine .here fun l l' hl => ?_
  refine (Parallel.expect _).bind fun _ _ _ => ?_
  refine (Parallel.expect _).bind fun _ _ _ => ?_
  refine (assignment_parallel true).bind fun _ _ hi => ?_
  refine expression_parallel.bind fun _ _ hc => ?_
  refine (Parallel.expect _).bind fun _ _ _ => ?_
  refine (assignment_parallel false).bind fun _ _ hu => ?_
  refine (Parallel.expect _).bind fun _ _ _ => ?_
  refine h.bind fun _ _ hb => .pure ?_
  unfold Node.Paired at *
  simp only [Node.mapPlaces, hi, hc, hu, hb, hl]

theorem whileLoop_parallel :
    Parallel place slack (Node.Paired place) (whileLoop expression block)
      (whileLoop expression block') := by
  refine .here fun l l' hl => ?_
  refine (Parallel.expect _).bind fun _ _ _ => ?_
  refine condition_parallel.bind fun _ _ hc => ?_
  refine h.bind fun _ _ hb => .pure ?_
  unfold Node.Paired at *
  simp only [Node.mapPlaces, hc, hb, hl]

end Blocks

/-- Some trees that differ in their places only. -/
def PairedAll (place : Option Location → Option Location) (ss ss' : List Node) : Prop :=
  ss.map (Node.mapPlaces place) = ss'.map (Node.mapPlaces place)

/-- The functions for statements, with a budget and with a larger one. -/
structure ParallelStatements (place : Option Location → Option Location) (slack n n' : Nat) :
    Prop where
  statement : Parallel place slack (Node.Paired place) (statementWithin n) (statementWithin n')
  block : Parallel place slack (Node.Paired place) (blockWithin n) (blockWithin n')
  statements : ∀ stop : Kind, Parallel place slack (PairedAll place) (statementsWithin n stop)
    (statementsWithin n' stop)

theorem parallelStatements (n : Nat) : ParallelStatements place slack n (n + 4 * slack) := by
  induction n with
  | zero =>
    refine ⟨?_, ?_, fun _ => ?_⟩ <;>
    · refine exhausted_parallel ?_
      rintro rfl
      rfl
  | succ n ih =>
    rw [Nat.add_right_comm]
    refine ⟨?_, ?_, fun stop => ?_⟩
    · rw [statementWithin, statementWithin]
      refine .kind fun k => ?_
      split
      · exact branch_parallel ih.block
      · exact forLoop_parallel ih.block
      · exact whileLoop_parallel ih.block
      · exact returnStatement_parallel
      · exact ih.block
      · exact assignment_parallel true
    · rw [blockWithin, blockWithin, braces, braces]
      refine .here fun l l' hl => ?_
      refine (Parallel.expect _).bind fun _ _ _ => ?_
      refine (ih.statements .rightBrace).bind fun ss ss' hss => ?_
      refine (Parallel.expect _).bind fun _ _ _ => .pure ?_
      unfold PairedAll at hss
      simp [Node.Paired, Node.mapPlaces, hss, hl]
    · rw [statementsWithin, statementsWithin]
      refine .kind fun k => ?_
      split
      · exact .pure rfl
      · refine ih.statement.bind fun s s' hs => ?_
        refine (ih.statements stop).bind fun ss ss' hss => .pure ?_
        unfold Node.Paired PairedAll at *
        rw [List.map_cons, List.map_cons, hs, hss]

/-- **The parser is parallel to itself.** -/
theorem program_parallel : Parallel place slack (PairedAll place) program program := by
  show Parallel place slack (PairedAll place)
    (get >>= fun r : Reader => statementsWithin (4 * (r.size + 1)) .endOfInput)
    (get >>= fun r : Reader => statementsWithin (4 * (r.size + 1)) .endOfInput)
  refine .look fun r r' hr => ?_
  rw [hr.size, budget_add]
  exact (parallelStatements _).statements .endOfInput

/-! ## At the end -/

/-- All tokens have been taken, and no fault lies behind them. -/
def AtEnd (r : Reader) : Prop := r.current = .endMark ∧ r.supply = ⟨[], none⟩

/-- What a step that starts at the end comes to: it stays there, and what it rejects is the end. -/
def StaysAt {α : Type} (r : Reader) (x : Parse α) : Prop :=
  Meets x r (fun _ s => s = r) fun p s => s = r ∧ ∃ cause, p = r.problem cause

theorem AtEnd.advance {r : Reader} (h : AtEnd r) : advance r = .ok .endMark r := by
  unfold Parse.advance
  rw [if_pos (by rw [h.1]; rfl), h.1]

/-- **The end of input is not left** by steps that are built like those of the parser. -/
theorem Parallel.staysAt {place : Option Location → Option Location} {α β : Type}
    {Goes : α → β → Prop} {x : Parse α} {x' : Parse β} (h : Parallel place 0 Goes x x')
    {r : Reader} (hr : AtEnd r) : StaysAt r x' := by
  have hcurrent : r.current.Paired place r.current := hr.1 ▸ .endMark
  induction h with
  | pure => exact .pure rfl
  | reject => exact ⟨rfl, _, rfl⟩
  | look _ ih => exact .bind (.ok rfl (ih r r ⟨hcurrent, rfl⟩))
  | take _ ih => exact .bind (.ok hr.advance (ih _ _ .endMark))
  | exhausted hslack => exact absurd rfl hslack

/-! ## In step -/

/-- Two supplies of tokens. The tokens are the same but for their places; where the first supply
ends in a fault, the second one may go on with more tokens. -/
structure Course where
  place : Option Location → Option Location
  /-- The tokens of the first supply. -/
  tokens : List Token
  fault : Option Problem
  more : List Token
  more_eq_nil : fault = none → more = []
  lines : List String
  lines' : List String

/-- The readers have taken the same tokens of two supplies. -/
structure InStep (c : Course) (r r' : Reader) : Prop where
  current : r.current.Paired c.place r'.current
  upcoming : ∃ us, List.Forall₂ (Token.Paired c.place) r.supply.upcoming us ∧
    r'.supply.upcoming = us ++ c.more
  fault : r.supply.fault = c.fault
  fault' : r'.supply.fault = none
  mem : c.fault ≠ none → ∀ t ∈ r.current :: r.supply.upcoming, t ∈ c.tokens
  lines : r.lines = c.lines
  lines' : r'.lines = c.lines'

theorem InStep.abreast {c : Course} {r r' : Reader} (h : InStep c r r') :
    Abreast c.place c.more.length r r' := by
  obtain ⟨us, hus, hupcoming⟩ := h.upcoming
  refine ⟨h.current, ?_⟩
  rw [Reader.size, Reader.size, hupcoming, List.length_append, hus.length_eq]
  omega

/-- What steps that are built alike come to on readers in step. -/
inductive Outcome (c : Course) {α β : Type} (Goes : α → β → Prop) :
    EStateM.Result Problem Reader α → EStateM.Result Problem Reader β → Prop
  | ok {a : α} {b : β} {r r' : Reader} :
      Goes a b → InStep c r r' → Outcome c Goes (.ok a r) (.ok b r')
  /-- Both reject the token at which they stand. -/
  | rejected {cause : Cause} {r r' : Reader} : InStep c r r' →
      Outcome c Goes (.error (r.problem cause) r) (.error (r'.problem cause) r')
  /-- The first runs into the fault; the second goes on, and if there are no more tokens then it
  does so at the end. -/
  | fault {q : Problem} {r : Reader} {o : EStateM.Result Problem Reader β} : c.fault = some q →
      (∀ p r', c.more = [] → o = .error p r' → p.location = none) →
      Outcome c Goes (.error q r) o
  /-- The first is out of budget. -/
  | exhausted {r : Reader} {o : EStateM.Result Problem Reader β} :
      Outcome c Goes (.error (r.problem .tooDeep) r) o

theorem Outcome.of_ok {c : Course} {α β : Type} {Goes : α → β → Prop} {a : α} {r : Reader}
    {o : EStateM.Result Problem Reader β} (h : Outcome c Goes (.ok a r) o) :
    ∃ b r', o = .ok b r' ∧ Goes a b ∧ InStep c r r' := by
  cases h with
  | ok hab hstep => exact ⟨_, _, rfl, hab, hstep⟩

theorem run_eq_ok_iff {α : Type} {step : Parse α} {r : Reader} {a : α} :
    (run step r).1 = .ok a ↔ ∃ s, step r = .ok a s := by
  unfold run
  cases step r <;> simp

theorem run_eq_error_iff {α : Type} {step : Parse α} {r : Reader} {p : Problem} :
    (run step r).1 = .error p ↔ ∃ s, step r = .error p s := by
  unfold run
  cases step r <;> simp

/-- Two readers in step take their tokens together, unless the first one has none left. -/
theorem InStep.advance {c : Course} {r r' : Reader} (h : InStep c r r') :
    (∃ s s', advance r = .ok r.current s ∧ advance r' = .ok r'.current s' ∧ InStep c s s') ∨
      ∃ q s s', c.fault = some q ∧ advance r = .error q s ∧
        (c.more = [] → advance r' = .ok r'.current s' ∧ AtEnd s') := by
  by_cases hend : r.current.kind = .endOfInput
  · have hend' : r'.current.kind = .endOfInput := h.current.kind ▸ hend
    refine .inl ⟨r, r', ?_, ?_, h⟩
    · rw [Parse.advance, if_pos hend]
    · rw [Parse.advance, if_pos hend']
  · have hend' : r'.current.kind ≠ .endOfInput := h.current.kind ▸ hend
    obtain ⟨current, ⟨upcoming, fault⟩, lines⟩ := r
    obtain ⟨current', ⟨upcoming', fault'⟩, lines'⟩ := r'
    obtain ⟨hcurrent, ⟨us, hus, rfl⟩, rfl, rfl, hmem, rfl, rfl⟩ := h
    rw [Parse.advance, if_neg hend, Parse.advance, if_neg hend']
    cases hus with
    | cons ht hus =>
      refine .inl ⟨_, _, rfl, rfl, ht, ⟨_, hus, rfl⟩, rfl, rfl, fun hfault => ?_, rfl, rfl⟩
      exact (List.forall_mem_cons.1 (hmem hfault)).2
    | nil =>
      cases hfault : c.fault with
      | none =>
        have hmore := c.more_eq_nil hfault
        rw [hmore]
        refine .inl ⟨_, _, rfl, rfl, .endMark, ⟨[], .nil, ?_⟩, hfault.symm, rfl, ?_, rfl, rfl⟩
        · rw [hmore]
        · exact fun h => absurd hfault h
      | some q =>
        refine .inr ⟨q, _, ⟨.endMark, ⟨[], none⟩, c.lines'⟩, rfl, rfl, fun hmore => ?_⟩
        rw [hmore]
        exact ⟨rfl, rfl, rfl⟩

/-- **Parallel steps on readers in step** come to results that go together, with readers in step;
or both reject the token that they have come to; or the first one finds that its tokens have run
out. -/
theorem Parallel.outcome {c : Course} {α β : Type} {Goes : α → β → Prop} {x : Parse α}
    {x' : Parse β} (h : Parallel c.place c.more.length Goes x x') {r r' : Reader}
    (hr : InStep c r r') : Outcome c Goes (x r) (x' r') := by
  induction h generalizing r r' with
  | pure hab => exact .ok hab hr
  | reject hcause =>
    rw [Parse.reject, Parse.reject, hcause r r' hr.abreast]
    exact .rejected hr
  | look _ ih => exact ih r r' hr.abreast hr
  | @take g g' hg ih =>
    rcases hr.advance with ⟨s, s', hs, hs', hstep⟩ | ⟨q, s, s', hfault, hs, hend⟩
    · rw [bind_of_ok hs, bind_of_ok hs']
      exact ih _ _ hr.current hstep
    · rw [bind_of_error hs]
      refine .fault hfault fun p t hmore hp => ?_
      obtain ⟨hs', hs'_end⟩ := hend hmore
      rw [bind_of_ok hs'] at hp
      have hslack : Parallel c.place 0 Goes (g r.current) (g' r'.current) := by
        simpa [hmore] using hg _ _ hr.current
      have hstays := hslack.staysAt hs'_end
      unfold StaysAt Meets at hstays
      rw [hp] at hstays
      obtain ⟨-, cause, rfl⟩ := hstays
      rw [Reader.problem, hs'_end.1]
      rfl
  | exhausted => exact .exhausted

end Grammar

end ThreeAddress
