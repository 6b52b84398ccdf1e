import ThreeAddress.Grammar.Reader
import ThreeAddress.Proofs.Steps
import ThreeAddress.Proofs.Token.Spelling

/-!
# Parsing steps and tokens

What a parsing step does to the tokens ahead of a reader, which are those before the end of input.
There are two views.

* `Takes`: whatever the tokens are, the step takes some of them and has a result that goes with
  them, or it rejects the program. Steps one after the other take tokens one after the other.
* `Becomes`: on certain tokens the step takes these and goes on as another step. The other step may
  be one that has a result already, but also a loop in the middle of its work.
-/

namespace ThreeAddress

/-! ## Tokens ahead -/

namespace Reader

/-- The tokens before the end of input. -/
def ahead (r : Reader) : List Token :=
  (r.current :: r.supply.upcoming).takeWhile (·.kind ≠ .endOfInput)

theorem ahead_of_end {r : Reader} (h : r.current.kind = .endOfInput) : r.ahead = [] := by
  rw [ahead, List.takeWhile_cons_of_neg]
  simpa using h

theorem ahead_of_ne {r : Reader} (h : r.current.kind ≠ .endOfInput) :
    r.ahead = r.current :: r.supply.upcoming.takeWhile (·.kind ≠ .endOfInput) := by
  rw [ahead, List.takeWhile_cons_of_pos]
  simpa using h

theorem kind_ne_of_mem_ahead {r : Reader} {t : Token} (h : t ∈ r.ahead) :
    t.kind ≠ .endOfInput := by
  simpa using List.mem_takeWhile_imp h

theorem ahead_length_le (r : Reader) : r.ahead.length ≤ r.size :=
  (List.takeWhile_sublist _).length_le

/-- All tokens ahead can be tokens of a source text. -/
def Lexical (r : Reader) : Prop := ∀ t ∈ r.ahead, t.Lexical

theorem Lexical.current {r : Reader} (h : r.Lexical) (hend : r.current.kind ≠ .endOfInput) :
    r.current.Lexical := by
  refine h _ ?_
  rw [ahead_of_ne hend]
  exact List.mem_cons_self

end Reader

namespace Parse

open Reader

/-- Taking a token takes the first of those ahead, unless the supply is at fault behind it. -/
theorem advance_cases {r : Reader} (h : r.current.kind ≠ .endOfInput) :
    (∃ r', advance r = .ok r.current r' ∧ r.ahead = r.current :: r'.ahead ∧
      r'.supply.fault = r.supply.fault) ∨
    ∃ p r', advance r = .error p r' ∧ r.supply.fault = some p := by
  obtain ⟨current, ⟨upcoming, fault⟩, lines⟩ := r
  rw [ahead_of_ne h, advance, if_neg h]
  cases upcoming with
  | cons t rest => exact .inl ⟨_, rfl, rfl, rfl⟩
  | nil =>
    cases fault with
    | none => exact .inl ⟨_, rfl, rfl, rfl⟩
    | some p => exact .inr ⟨p, _, rfl, rfl⟩

end Parse

/-! ## Taking tokens -/

namespace Grammar

/-- The causes for which the grammar rejects a program. -/
inductive Misfit : Cause → Prop
  | unexpectedToken {found expected : String} : Misfit (.unexpectedToken found expected)
  | missingExpression {found : String} : Misfit (.missingExpression found)
  | unreadableInteger {length : Nat} : Misfit (.unreadableInteger length)

/-- The tokens lie between two readers. -/
structure Moves (r : Reader) (ts : List Token) (r' : Reader) : Prop where
  ahead : r.ahead = ts ++ r'.ahead
  fault : r'.supply.fault = r.supply.fault

theorem Moves.refl (r : Reader) : Moves r [] r := ⟨rfl, rfl⟩

theorem Moves.trans {r r' r'' : Reader} {ts us : List Token} (h : Moves r ts r')
    (h' : Moves r' us r'') : Moves r (ts ++ us) r'' :=
  ⟨by rw [h.ahead, h'.ahead, List.append_assoc], h'.fault.trans h.fault⟩

theorem Moves.length {r r' : Reader} {ts : List Token} (h : Moves r ts r') :
    r.ahead.length = ts.length + r'.ahead.length := by
  rw [h.ahead, List.length_append]

theorem Moves.lexical {r r' : Reader} {ts : List Token} (h : Moves r ts r') (hr : r.Lexical) :
    r'.Lexical :=
  fun t ht => hr t (h.ahead ▸ List.mem_append_right ts ht)

/-- The program is rejected, or the supply is at fault. -/
def Rejects (r : Reader) (p : Problem) : Prop := Misfit p.cause ∨ r.supply.fault = some p

/-- The step takes tokens and has a good result for them, or it rejects the program. -/
def Takes {α : Type} (x : Parse α) (r : Reader) (good : List Token → α → Reader → Prop) : Prop :=
  r.Lexical → Meets x r (fun a r' => ∃ ts, Moves r ts r' ∧ good ts a r') fun p _ => Rejects r p

namespace Takes

open Parse

variable {α β : Type} {x : Parse α} {f : α → Parse β} {r : Reader}
  {good good' : List Token → α → Reader → Prop} {goodNext : List Token → β → Reader → Prop}

theorem pure {a : α} (h : good [] a r) : Takes (Pure.pure a) r good :=
  fun _ => .pure ⟨[], .refl r, h⟩

theorem congr {y : Parse α} (h : x r = y r) (hy : Takes y r good) : Takes x r good := by
  unfold Takes Meets at hy ⊢
  rwa [h]

theorem mono (hx : Takes x r good)
    (h : ∀ ts a r', Moves r ts r' → good ts a r' → good' ts a r') : Takes x r good' :=
  fun hr => (hx hr).mono (fun a r' ⟨ts, hm, hts⟩ => ⟨ts, hm, h ts a r' hm hts⟩) fun _ _ hp => hp

/-- The next step takes the tokens behind those of the first. -/
theorem bind (hx : Takes x r good)
    (hf : ∀ ts a r', Moves r ts r' → good ts a r' →
      Takes (f a) r' fun us b r'' => goodNext (ts ++ us) b r'') :
    Takes (x >>= f) r goodNext := by
  intro hr
  refine (hx hr).andThen ?_ fun _ _ hp => hp
  intro a r' hread
  obtain ⟨ts, hm, hts⟩ := hread
  refine (hf ts a r' hm hts (hm.lexical hr)).mono ?_ ?_
  · intro b r'' hread
    obtain ⟨us, hm', hus⟩ := hread
    exact ⟨ts ++ us, hm.trans hm', hus⟩
  · intro p _ hp
    exact hp.imp_right fun hfault => hm.fault ▸ hfault

/-- Looking at the reader takes no token. -/
theorem look {a : α} (hx : x r = .ok a r) (hf : Takes (f a) r goodNext) :
    Takes (x >>= f) r goodNext :=
  fun hr => .bind (.ok hx (hf hr))

/-- The tokens ahead are known to be tokens of a source text. -/
theorem of_lexical (h : r.Lexical → Takes x r good) : Takes x r good :=
  fun hr => h hr hr

theorem reject {cause : Reader → Cause} (h : Misfit (cause r)) :
    Takes (Parse.reject cause : Parse α) r good :=
  fun _ => .inl h

theorem advance (h : r.current.kind ≠ .endOfInput) :
    Takes Parse.advance r fun ts t _ => ts = [t] ∧ t = r.current := by
  intro _
  rcases advance_cases h with ⟨r', hx, hahead, hfault⟩ | ⟨p, r', hx, hfault⟩
  · exact .ok hx ⟨[r.current], ⟨hahead, hfault⟩, rfl, rfl⟩
  · exact .error hx (.inr hfault)

theorem expect {k : Kind} (hk : k ≠ .endOfInput) :
    Takes (Parse.expect k) r fun ts t _ => ts = [t] ∧ t.kind = k ∧ t = r.current := by
  unfold Parse.expect
  refine look rfl ?_
  by_cases h : r.current.kind = k
  · rw [if_pos h]
    refine (advance (h ▸ hk)).mono ?_
    intro ts t r' _ hread
    obtain ⟨rfl, rfl⟩ := hread
    exact ⟨rfl, h, rfl⟩
  · rw [if_neg h]
    exact reject .unexpectedToken

/-- Behind a token that is taken there is one token less. -/
theorem advance_bind {f : Token → Parse β} (h : r.current.kind ≠ .endOfInput)
    (hf : ∀ r', r.ahead.length = r'.ahead.length + 1 →
      Takes (f r.current) r' fun us b r'' => goodNext (r.current :: us) b r'') :
    Takes (Parse.advance >>= f) r goodNext := by
  refine (advance h).bind ?_
  intro ts t r' hm hread
  obtain ⟨rfl, rfl⟩ := hread
  have hlength := hm.length
  rw [List.length_singleton, Nat.add_comm] at hlength
  exact hf r' hlength

theorem expect_bind {k : Kind} {f : Token → Parse β} (hk : k ≠ .endOfInput)
    (hf : ∀ r', r.current.kind = k → r.ahead.length = r'.ahead.length + 1 →
      Takes (f r.current) r' fun us b r'' => goodNext (r.current :: us) b r'') :
    Takes (Parse.expect k >>= f) r goodNext := by
  refine (expect hk).bind ?_
  intro ts t r' hm hread
  obtain ⟨rfl, ht, rfl⟩ := hread
  have hlength := hm.length
  rw [List.length_singleton, Nat.add_comm] at hlength
  exact hf r' ht hlength

end Takes

/-! ## Going on behind tokens -/

/-- The reader has these tokens ahead and no fault behind them. -/
structure At (r : Reader) (ts : List Token) : Prop where
  ahead : r.ahead = ts
  fault : r.supply.fault = none

/-- The kind of the first of some tokens, or the end of input. -/
def kindOf : List Token → Kind
  | [] => .endOfInput
  | t :: _ => t.kind

theorem At.kind {r : Reader} {ts : List Token} (h : At r ts) : r.current.kind = kindOf ts := by
  by_cases hend : r.current.kind = .endOfInput
  · rw [← h.ahead, Reader.ahead_of_end hend]
    exact hend
  · rw [← h.ahead, Reader.ahead_of_ne hend]
    rfl

theorem At.current {r : Reader} {t : Token} {ts : List Token} (h : At r (t :: ts)) :
    r.current = t ∧ t.kind ≠ .endOfInput := by
  have hend : r.current.kind ≠ .endOfInput := by
    rw [h.kind]
    exact Reader.kind_ne_of_mem_ahead (h.ahead ▸ List.mem_cons_self)
  have hahead := h.ahead
  rw [Reader.ahead_of_ne hend] at hahead
  cases hahead
  exact ⟨rfl, hend⟩

/-- In front of the tokens `ts` and `rest`, the step takes `ts` and goes on as the other step. -/
def Becomes {α : Type} (x : Parse α) (ts rest : List Token) (y : Parse α) : Prop :=
  ∀ r, At r (ts ++ rest) → ∃ r', x r = y r' ∧ At r' rest

namespace Becomes

open Parse

variable {α β : Type} {x y z : Parse α} {f : α → Parse β} {w : Parse β} {a : α}
  {ts us rest : List Token} {t : Token}

theorem refl (x : Parse α) (rest : List Token) : Becomes x [] rest x :=
  fun r hr => ⟨r, rfl, hr⟩

theorem trans (hx : Becomes x ts (us ++ rest) y) (hy : Becomes y us rest z) :
    Becomes x (ts ++ us) rest z := by
  intro r hr
  rw [List.append_assoc] at hr
  obtain ⟨r', hxr, hr'⟩ := hx r hr
  obtain ⟨r'', hyr, hr''⟩ := hy r' hr'
  exact ⟨r'', hxr.trans hyr, hr''⟩

/-- The other step may go on without taking a token. -/
theorem settle (hx : Becomes x ts rest y) (hy : Becomes y [] rest z) : Becomes x ts rest z := by
  rw [← List.append_nil ts]
  exact trans hx hy

/-- A step that comes to a result, and the next one behind it. -/
theorem bind (hx : Becomes x ts (us ++ rest) (Pure.pure a)) (hf : Becomes (f a) us rest w) :
    Becomes (x >>= f) (ts ++ us) rest w := by
  intro r hr
  rw [List.append_assoc] at hr
  obtain ⟨r', hxr, hr'⟩ := hx r hr
  obtain ⟨r'', hfr, hr''⟩ := hf r' hr'
  refine ⟨r'', ?_, hr''⟩
  show EStateM.bind x f r = _
  rw [EStateM.bind, hxr]
  exact hfr

theorem cons_bind (hx : Becomes x [t] (us ++ rest) (Pure.pure a)) (hf : Becomes (f a) us rest w) :
    Becomes (x >>= f) (t :: us) rest w :=
  bind hx hf

/-- A step behind which no more tokens are taken. -/
theorem last (hx : Becomes x ts rest (Pure.pure a)) (hf : Becomes (f a) [] rest w) :
    Becomes (x >>= f) ts rest w := by
  rw [← List.append_nil ts]
  exact bind hx hf

/-- Looking at the kind of the current token takes no token. -/
theorem kind {f : Kind → Parse β} (hf : Becomes (f (kindOf (ts ++ rest))) ts rest w) :
    Becomes (Parse.kind >>= f) ts rest w := by
  intro r hr
  obtain ⟨r', hfr, hr'⟩ := hf r hr
  refine ⟨r', ?_, hr'⟩
  rw [← hr.kind] at hfr
  exact hfr

/-- Nor does looking at the token itself. -/
theorem look {f : Reader → Parse β}
    (hf : ∀ r, r.current = t → Becomes (f r) (t :: ts) rest w) :
    Becomes (get >>= f) (t :: ts) rest w :=
  fun r hr => hf r hr.current.1 r hr

/-- Nor does looking at its place. -/
theorem here {f : Option Location → Parse β} (hf : Becomes (f t.location) (t :: ts) rest w) :
    Becomes (Parse.here >>= f) (t :: ts) rest w := by
  intro r hr
  obtain ⟨r', hfr, hr'⟩ := hf r hr
  refine ⟨r', ?_, hr'⟩
  rw [← hr.current.1] at hfr
  exact hfr

theorem advance : Becomes Parse.advance [t] rest (Pure.pure t) := by
  intro r hr
  obtain ⟨hcurrent, hkind⟩ := hr.current
  rw [← hcurrent] at hkind
  rcases advance_cases hkind with ⟨r', hx, hahead, hfault⟩ | ⟨p, r', -, hfault⟩
  · refine ⟨r', hcurrent ▸ hx, ?_, hfault.trans hr.fault⟩
    rw [hr.ahead] at hahead
    exact (List.cons.inj hahead).2.symm
  · rw [hr.fault] at hfault
    cases hfault

theorem expect {k : Kind} (hk : t.kind = k) : Becomes (Parse.expect k) [t] rest (Pure.pure t) := by
  refine kind ?_
  rw [List.singleton_append, kindOf, if_pos hk]
  exact advance

end Becomes

end Grammar

end ThreeAddress
