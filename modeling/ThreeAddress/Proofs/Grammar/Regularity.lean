import ThreeAddress.Proofs.Grammar.Derivation
import ThreeAddress.Proofs.Literal.Written
import ThreeAddress.Proofs.Tree.Regular

/-!
# What the grammar derives is regular

An integer literal has at most as many digits as can be written again, a block is derived wherever a
branch or a loop takes one, and the head of a loop has its two assignments.

* `Derives.Program.regular`: the statements of a program are regular.
-/

namespace ThreeAddress.Grammar.Derives

theorem digit_lt {cs : List Char} {ds : List Nat} (h : cs.mapM Text.digitValue? = some ds) :
    ∀ d ∈ ds, d < 10 := by
  induction cs generalizing ds with
  | nil =>
    cases h
    exact fun d hd => absurd hd List.not_mem_nil
  | cons c cs ih =>
    rw [List.mapM_cons] at h
    obtain ⟨d, hd, h⟩ := Option.bind_eq_some_iff.1 h
    obtain ⟨rest, hrest, h⟩ := Option.bind_eq_some_iff.1 h
    cases h
    exact List.forall_mem_cons.2 ⟨Text.digitValue?_lt hd, ih hrest⟩

theorem Expression.regular {tier : Tier} {ts : List Token} {e : Node} (h : Expression tier ts e) :
    e.RegularExpression := by
  induction h with
  | int _ hdigits _ hlimit => exact .int (Literal.hasText_value (digit_lt hdigits) hlimit)
  | float => exact .float
  | string => exact .string
  | var => exact .var
  | parens _ _ _ ih | ofFactor _ ih | ofTerm _ ih => exact ih
  | high _ _ _ ihl ihr | low _ _ _ ihl ihr => exact .binary ihl ihr

theorem Update.regular {ts : List Token} {s : Node} (h : Update ts s) :
    s.isAssignment = true ∧ s.Regular := by
  cases h with
  | plain _ _ h => exact ⟨rfl, .assign h.regular⟩
  | typed _ _ _ h => exact ⟨rfl, .assign h.regular⟩

theorem Condition.regular {ts : List Token} {e : Node} (h : Condition ts e) :
    e.RegularExpression := by
  cases h with
  | parens _ h _ => exact h.regular

theorem Block.isBlock {ts : List Token} {s : Node} (h : Block ts s) : s.isBlock = true := by
  cases h with
  | braces => rfl

mutual

theorem Statement.regular {ts : List Token} {s : Node} : Statement ts s → s.Regular
  | .assignment h _ => h.regular.2
  | .block h => h.regular
  | .ifThen _ hc hb => .ifThen hc.regular hb.isBlock hb.regular
  | .ifElse _ hc hb _ hb' => .ifElse hc.regular hb.isBlock hb.regular hb'.isBlock hb'.regular
  | .forLoop _ _ hi _ hc _ hu _ hb =>
    .forLoop hi.regular.1 hi.regular.2 hc.regular hu.regular.1 hu.regular.2 hb.isBlock hb.regular
  | .whileLoop _ hc hb => .whileLoop hc.regular hb.isBlock hb.regular
  | .ret _ _ => .ret
  | .retValue _ h _ => .retValue h.regular

theorem Block.regular {ts : List Token} {s : Node} : Block ts s → s.Regular
  | .braces _ h _ => .block h.regular

/-- **The grammar derives regular statements.** -/
theorem Program.regular {ts : List Token} {ss : List Node} :
    Program ts ss → ∀ s ∈ ss, s.Regular
  | .nil => fun _ hs => absurd hs List.not_mem_nil
  | .cons h h' => List.forall_mem_cons.2 ⟨h.regular, h'.regular⟩

end

end ThreeAddress.Grammar.Derives
