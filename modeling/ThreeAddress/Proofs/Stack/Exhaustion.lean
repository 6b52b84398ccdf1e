import ThreeAddress.Proofs.Compilation.Concatenation
import ThreeAddress.Proofs.Compilation.Reparsing
import ThreeAddress.Proofs.Stack.Compilation

/-!
# Texts that take more room

The operators of an expression are read one after the other in the same room, and each of them puts
what stands before it one level down in the tree. So a long sum is read in little room, but the
check calls itself for every sign of it.

* `Node.leftDepth`: the operators on the way down the left side of a tree.
* `typed_exhausted`, `compileOn_exhausted`: the check of a tree that is deep on its left side is
  ended by the stack, and with it the compilation of a text that returns it.
* `sumText`: the texts `return 1 + ... + 1 ;`, which take as much room as one likes.
-/

namespace ThreeAddress

/-! ## Work that the stack ends -/

namespace Work

variable {α β : Type} {work : Work α} {next : α → Work β} {notices after : List Notice}

/-- The stack ends the work. -/
def Exhausts (work : Work α) (notices : List Notice) : Prop :=
  ∃ after, work notices = .error .exhausted after

theorem Exhausts.bind (h : work.Exhausts notices) : (work >>= next).Exhausts notices := by
  obtain ⟨after, hwork⟩ := h
  exact ⟨after, bind_of_error hwork⟩

theorem exhausts_bind_of_ok {a : α} (hwork : work notices = .ok a after)
    (h : (next a).Exhausts after) : (work >>= next).Exhausts notices := by
  obtain ⟨after', hnext⟩ := h
  exact ⟨after', (bind_of_ok hwork).trans hnext⟩

/-- If the stack ends the next step, then it ends the work, whatever the first step needs. -/
theorem exhausts_bind_of_settles {bound room : Nat} {x : Nat → Work α} {a : α}
    (hx : Settles Failure.IsExhausted bound x work notices) (hwork : work notices = .ok a after)
    (h : (next a).Exhausts after) : (x room >>= next).Exhausts notices := by
  obtain ⟨need, -, hroom⟩ := hx
  rcases Nat.lt_or_ge room need with hlt | hle
  · obtain ⟨_, after', hfull, rfl⟩ := (hroom room).2 hlt
    exact ⟨after', bind_of_error hfull⟩
  · exact exhausts_bind_of_ok (((hroom room).1 hle).trans hwork) h

end Work

/-! ## Trees that are deep on the left -/

namespace Node

/-- The number of operators on the way down the left side of a tree. -/
def leftDepth : Node → Nat
  | binary left _ _ _ => left.leftDepth + 1
  | _ => 0

theorem leftDepth_mapPlaces {f : Option Location → Option Location} (n : Node) :
    (n.mapPlaces f).leftDepth = n.leftDepth := by
  cases n with
  | binary left op right l =>
    rw [mapPlaces, leftDepth, leftDepth, leftDepth_mapPlaces left]
  | _ => rfl

end Node

namespace Typing

theorem typed_leaf_exhausted {lines : List String} {n : Node}
    (h : ∀ left op right l, n ≠ .binary left op right l) (s : State) :
    OnStack.typed lines 0 n s = .error .exhausted s := by
  rw [typed_leaf h]
  rfl

/-- **The check calls itself down the left side.** -/
theorem typed_exhausted (lines : List String) (n : Node) {room : Nat}
    (h : room ≤ 2 * n.leftDepth) (s : State) :
    OnStack.typed lines room n s = .error .exhausted s := by
  cases n with
  | binary left op right l =>
    rw [Node.leftDepth] at h
    rw [OnStack.typed, OnStack.call]
    by_cases hroom : 2 ≤ room
    · rw [Stack.enter_of_le hroom]
      exact bind_of_error (typed_exhausted lines left (by omega) s)
    · rw [Stack.enter_of_lt (Nat.lt_of_not_le hroom)]
      rfl
  | _ =>
    obtain rfl : room = 0 := Nat.le_zero.1 h
    exact typed_leaf_exhausted (fun _ _ _ _ h => by cases h) s

end Typing

section Return

variable {value : Node} {l : Option Location} {rest : List Node} {room : Nat}

theorem typecheckOn_exhausted (lines : List String) (hroom : room ≤ 2 * value.leftDepth)
    (notices : List Notice) :
    (typecheckOn (some room) lines (.retValue value l :: rest)).Exhausts notices := by
  have hcheck : Typing.OnStack.check lines room (.retValue value l) { notices } =
      .error .exhausted { notices } := by
    rw [Typing.OnStack.check, Typing.OnStack.call]
    by_cases hcalls : 2 ≤ room
    · rw [Stack.enter_of_le hcalls]
      exact bind_of_error (Typing.typed_exhausted lines value (by omega) _)
    · rw [Stack.enter_of_lt (Nat.lt_of_not_le hcalls)]
      rfl
  have hall : Typing.OnStack.checkAll lines room (.retValue value l :: rest) { notices } =
      .error .exhausted { notices } := by
    rw [Typing.OnStack.checkAll]
    exact bind_of_error hcheck
  refine ⟨notices, ?_⟩
  unfold typecheckOn tabulate Typing.run
  simp only [Typing.checkAllOn]
  rw [hall]

/-- **The compilation of a text that returns a deep tree is ended by the stack.** -/
theorem compileOn_exhausted {options : Options} {source file : String}
    (hreads : Reads source file (.retValue value l :: rest)) (hanalyze : options.analyze = true)
    (hroom : room ≤ 2 * value.leftDepth) (notices : List Notice) :
    (compileOn (some room) options source file).Exhausts notices := by
  obtain ⟨tokens, hscan, hparse⟩ := hreads
  have haccept : ∀ after, Work.accept (Scan.ofSource source file).result after =
      .ok tokens after := by
    intro after
    rw [hscan]
    rfl
  have hread : ∀ after, Work.accept (Grammar.ofTokens tokens (Text.lines source)) after =
      .ok (.retValue value l :: rest) after := by
    intro after
    rw [hparse]
    rfl
  unfold compileOn
  refine Work.exhausts_bind_of_ok rfl (Work.exhausts_bind_of_ok (haccept _) ?_)
  refine Work.exhausts_bind_of_ok rfl ?_
  -- Reading may be what the stack ends already; if it is not, then it gives the tree.
  refine Work.exhausts_bind_of_settles
    (ofTokens_settles (Grammar.lexical_of_result hscan) (Text.lines source)) (hread _) ?_
  refine Work.exhausts_bind_of_ok rfl ?_
  simp only [hanalyze, if_true]
  exact (typecheckOn_exhausted _ hroom _).bind

end Return

/-! ## Sums -/

/-- The sum of ones with so many signs. -/
def Node.sumOfOnes : Nat → Node
  | 0 => .int 1 none
  | n + 1 => .binary (sumOfOnes n) .add (.int 1 none) none

/-- The tokens of the sum. -/
def Token.sumOfOnes : Nat → List Token
  | 0 => [⟨.intLiteral, "1", none⟩]
  | n + 1 => sumOfOnes n ++ [⟨.plus, "+", none⟩, ⟨.intLiteral, "1", none⟩]

/-- The tokens of a statement that returns the sum. -/
def Token.sumReturn (n : Nat) : List Token :=
  ⟨.returnWord, "return", none⟩ :: (sumOfOnes n ++ [⟨.semicolon, ";", none⟩])

/-- A text that returns the sum of ones with so many signs. -/
def sumText (n : Nat) : String := Token.spaced (Token.sumReturn n)

theorem Node.leftDepth_sumOfOnes (n : Nat) : (sumOfOnes n).leftDepth = n := by
  induction n with
  | zero => rfl
  | succ n ih => rw [sumOfOnes, leftDepth, ih]

theorem Token.sumOfOnes_derives (n : Nat) :
    Grammar.Derives.Expression .expression (sumOfOnes n) (.sumOfOnes n) := by
  have hone : Grammar.Derives.Expression .term [⟨.intLiteral, "1", none⟩] (.int 1 none) :=
    .ofFactor (@Grammar.Derives.Expression.int ⟨.intLiteral, "1", none⟩ [1] rfl rfl
      (List.cons_ne_nil _ _) (by decide))
  induction n with
  | zero => exact .ofTerm hone
  | succ n ih =>
    exact @Grammar.Derives.Expression.low _ _ ⟨.plus, "+", none⟩ _ _ ih rfl hone

/-- The words of such a text. -/
def Token.sumWords : List Token :=
  [⟨.returnWord, "return", none⟩, ⟨.intLiteral, "1", none⟩, ⟨.plus, "+", none⟩,
    ⟨.semicolon, ";", none⟩]

theorem Token.sumReturn_subset (n : Nat) : sumReturn n ⊆ sumWords := by
  have hsum : ∀ n, sumOfOnes n ⊆ sumWords := by
    intro n
    induction n with
    | zero => simp [sumOfOnes, sumWords]
    | succ n ih =>
      rw [sumOfOnes, List.append_subset]
      exact ⟨ih, by simp [sumWords]⟩
  rw [sumReturn, List.cons_subset, List.append_subset]
  exact ⟨by simp [sumWords], hsum n, by simp [sumWords]⟩

theorem Token.sumReturn_wellFormed (n : Nat) : AllWellFormed (sumReturn n) := by
  have hwords : AllWellFormed sumWords := by
    refine .cons ?_ (.cons ?_ (.cons ?_ (.cons ?_ .nil)))
    · exact @Spelling.word 'r' ['e', 't', 'u', 'r', 'n'] (by decide)
        (List.all_eq_true.1 (by decide))
    · exact @Spelling.int ['1'] (List.cons_ne_nil _ _) (List.all_eq_true.1 (by decide))
    · exact .symbol rfl
    · exact .symbol rfl
  exact fun t ht => hwords t (sumReturn_subset n ht)

theorem Token.mem_toList_spaced {ts : List Token} {c : Char} (h : c ∈ (spaced ts).toList) :
    c = ' ' ∨ ∃ t ∈ ts, c ∈ written t.kind t.text.toList := by
  induction ts with
  | nil => exact absurd h List.not_mem_nil
  | cons t ts ih =>
    rw [toList_spaced_cons, List.mem_append] at h
    rcases h with hword | htail
    · exact .inr ⟨t, List.mem_cons_self, hword⟩
    · cases ts with
      | nil => exact absurd htail List.not_mem_nil
      | cons u us =>
        rcases List.mem_cons.1 htail with rfl | htail
        · exact .inl rfl
        · exact (ih htail).imp_right fun ⟨v, hv, hc⟩ => ⟨v, List.mem_cons_of_mem _ hv, hc⟩

/-- The characters of such a text. -/
theorem mem_toList_sumText {n : Nat} {c : Char} (h : c ∈ (sumText n).toList) :
    c ∈ "return1+; ".toList := by
  have hwords : ∀ t ∈ Token.sumWords,
      Token.written t.kind t.text.toList ⊆ "return1+; ".toList := by decide
  rcases Token.mem_toList_spaced h with rfl | ⟨t, ht, hc⟩
  · decide
  · exact hwords t (Token.sumReturn_subset n ht) hc

/-- The text is read as the return of the sum. -/
theorem sumText_reads (n : Nat) (file : String) :
    ∃ value l, Reads (sumText n) file [.retValue value l] ∧ value.leftDepth = n := by
  have hwellFormed := Token.sumReturn_wellFormed n
  have hderives : Grammar.Derives.Program (Token.sumReturn n) [.retValue (.sumOfOnes n) none] := by
    have hstatement := @Grammar.Derives.Statement.retValue ⟨.returnWord, "return", none⟩
      ⟨.semicolon, ";", none⟩ _ _ rfl (Token.sumOfOnes_derives n) rfl
    have hprogram := Grammar.Derives.Program.cons hstatement .nil
    rwa [List.append_nil] at hprogram
  obtain ⟨pieces, hpieces, hcut⟩ := Token.decomposes_spaced hwellFormed 0
  obtain ⟨tokens, hscan, hwords⟩ := Scan.words_of_decomposes hpieces file
  have hfront : ∀ w ∈ (Token.sumReturn n).map Token.word, w.1 ≠ .endOfInput := by
    rintro _ hw
    obtain ⟨t, ht, rfl⟩ := List.mem_map.1 hw
    exact hderives.grammatical.ne_endOfInput ht
  obtain ⟨ss, hparse, hsame⟩ := Grammar.ofTokens_of_words (fun t ht => .inl (hwellFormed t ht))
    hderives (Grammar.map_word_beforeEnd (hwords.trans hcut) hfront) (Text.lines (sumText n))
  obtain ⟨s, rfl, hs⟩ := List.map_eq_singleton_iff.1 hsame
  cases s with
  | retValue value l =>
    have hdepth := congrArg Node.leftDepth (Node.retValue.inj hs).1
    rw [Node.leftDepth_mapPlaces, Node.leftDepth_mapPlaces, Node.leftDepth_sumOfOnes] at hdepth
    exact ⟨value, l, ⟨tokens, hscan, hparse⟩, hdepth⟩
  | _ => cases hs

/-- **No room is enough for all texts.** A sum takes more than two calls for each of its signs. -/
theorem sumText_exhausts {options : Options} (hanalyze : options.analyze = true) {n room : Nat}
    (hroom : room ≤ 2 * n) (file : String) (notices : List Notice) :
    (compileOn (some room) options (sumText n) file).Exhausts notices := by
  obtain ⟨value, l, hreads, rfl⟩ := sumText_reads n file
  exact compileOn_exhausted hreads hanalyze hroom notices

/-- The usual room is not enough for a sum of six thousand ones. -/
theorem exists_exhausted_compilation :
    ∃ notices, compileOn .usual {} (sumText 5999) "p.mt" [] = .error .exhausted notices :=
  sumText_exhausts rfl (by decide) "p.mt" []

end ThreeAddress
