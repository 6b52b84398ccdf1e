import ThreeAddress.Proofs.Compilation.Lazy
import ThreeAddress.Proofs.Grammar.Viable
import ThreeAddress.Proofs.Token.Seam

/-!
# The token that is rejected

A program is rejected at the first token that cannot stand where it does.

* `Fork`: two readers with the same tokens for a while, and then with different ones.
* `Parallel.fork`: what is rejected in front of a fork is rejected on both sides of it.
* `not_opens_of_rejected`: no program begins with the tokens up to a rejected one.

**Theorem (`rejected_first`).** If the tokens of a source text are rejected, then at one of them: the
tokens in front of it are the beginning of a program, and with it they are not. The end of input is
rejected only where the tokens in front of it are no program.

What stands in front is a viable prefix (`program_fits`). What has been rejected is rejected with
any tokens behind it that are long enough (`Parallel.fork`), so the tokens up to there are not
viable, so the parser stops at one of them, also where it finds a fault behind them
(`ofSupply_of_fault`), and then it does not matter what follows.
-/

namespace ThreeAddress.Grammar

open Parse

/-! ## Forks -/

/-- The readers have the same tokens up to the given rest of the first one. The second one goes on
in another way, with some more tokens. -/
structure Fork (slack : Nat) (rest : List Token) (r r' : Reader) : Prop where
  current : r.current.Paired id r'.current
  upcoming : ∃ us rest', r.supply.upcoming = us ++ rest ∧ r'.supply.upcoming = us ++ rest' ∧
    rest'.length = rest.length + slack
  readable : ∀ t ∈ r.tokens, t.Paired id t

section Forks

variable {slack : Nat} {rest : List Token} {r r' : Reader}

theorem Fork.abreast (h : Fork slack rest r r') : Abreast id slack r r' := by
  obtain ⟨us, rest', hus, hus', hlength⟩ := h.upcoming
  refine ⟨h.current, ?_⟩
  rw [Reader.size, Reader.size, hus, hus', List.length_append, List.length_append, hlength]
  omega

theorem advance_end (h : r.current.kind = .endOfInput) : advance r = .ok r.current r := by
  rw [advance, if_pos h]

theorem advance_cons {current t : Token} {more : List Token} {fault : Option Problem}
    {lines : List String} (h : current.kind ≠ .endOfInput) :
    advance ⟨current, ⟨t :: more, fault⟩, lines⟩ = .ok current ⟨t, ⟨more, fault⟩, lines⟩ := by
  rw [advance, if_neg h]
  rfl

/-- No step makes the tokens more. -/
theorem advance_shrinks (h : ∀ t ∈ r.tokens, t.Paired id t) :
    Meets advance r (fun t s => t = r.current ∧
        s.supply.upcoming.length ≤ r.supply.upcoming.length ∧ ∀ t ∈ s.tokens, t.Paired id t)
      fun _ s => s.supply.upcoming.length ≤ r.supply.upcoming.length := by
  by_cases hend : r.current.kind = .endOfInput
  · exact .ok (advance_end hend) ⟨rfl, Nat.le_refl _, h⟩
  · obtain ⟨current, ⟨upcoming, fault⟩, lines⟩ := r
    unfold Meets advance
    rw [if_neg hend]
    cases upcoming with
    | cons t rest => exact ⟨rfl, Nat.le_succ _, fun u hu => h u (List.mem_cons_of_mem _ hu)⟩
    | nil =>
      cases fault with
      | none => exact ⟨rfl, Nat.le_refl _, List.forall_mem_singleton.2 .endMark⟩
      | some p => exact Nat.le_refl _

theorem Parallel.shrinks {α β : Type} {Goes : α → β → Prop} {x : Parse α} {x' : Parse β}
    (h : Parallel id slack Goes x x') (hr : ∀ t ∈ r.tokens, t.Paired id t) :
    Meets x r (fun _ s => s.supply.upcoming.length ≤ r.supply.upcoming.length)
      fun _ s => s.supply.upcoming.length ≤ r.supply.upcoming.length := by
  induction h generalizing r with
  | pure => exact .pure (Nat.le_refl _)
  | reject | exhausted => exact Nat.le_refl _
  | look _ ih =>
    -- The second run has a reader with more tokens.
    let more : Reader :=
      ⟨r.current, ⟨r.supply.upcoming ++ List.replicate slack .endMark, none⟩, r.lines⟩
    have habreast : Abreast id slack r more := by
      refine ⟨hr _ List.mem_cons_self, ?_⟩
      simp only [more, Reader.size, List.length_append, List.length_replicate]
      omega
    exact .bind (.ok rfl (ih r more habreast hr))
  | take _ ih =>
    refine (advance_shrinks hr).andThen ?_ fun _ _ hs => hs
    rintro t s ⟨rfl, hle, hs⟩
    refine (ih _ _ (hr _ List.mem_cons_self) hs).mono ?_ ?_
    · exact fun _ _ hle' => Nat.le_trans hle' hle
    · exact fun _ _ hle' => Nat.le_trans hle' hle

/-- In front of a fork both readers take the same token; at the fork the first one goes past it. -/
theorem Fork.advance (hrest : rest ≠ []) (h : Fork slack rest r r') :
    (∃ s s', advance r = .ok r.current s ∧ advance r' = .ok r'.current s' ∧
      Fork slack rest s s') ∨
    ∃ s, advance r = .ok r.current s ∧ s.supply.upcoming.length < rest.length ∧
      ∀ t ∈ s.tokens, t.Paired id t := by
  by_cases hend : r.current.kind = .endOfInput
  · exact .inl ⟨r, r', advance_end hend, advance_end (h.current.kind ▸ hend), h⟩
  · have hend' : r'.current.kind ≠ .endOfInput := h.current.kind ▸ hend
    obtain ⟨current, ⟨_, fault⟩, lines⟩ := r
    obtain ⟨current', ⟨_, fault'⟩, lines'⟩ := r'
    obtain ⟨-, ⟨us, rest', rfl, rfl, hlength⟩, hreadable⟩ := h
    obtain ⟨-, hreadable⟩ := List.forall_mem_cons.1 hreadable
    cases us with
    | cons t us =>
      refine .inl ⟨_, _, advance_cons hend, advance_cons hend', ?_⟩
      exact ⟨hreadable t List.mem_cons_self, ⟨us, rest', rfl, rfl, hlength⟩, hreadable⟩
    | nil =>
      obtain ⟨t, more, rfl⟩ := List.exists_cons_of_ne_nil hrest
      exact .inr ⟨_, advance_cons hend, Nat.lt_succ_self _, hreadable⟩

/-- **What is rejected in front of a fork** is rejected on both sides of it. -/
theorem Parallel.fork {α β : Type} {Goes : α → β → Prop} {x : Parse α} {x' : Parse β}
    (h : Parallel id slack Goes x x') (hrest : rest ≠ []) (hr : Fork slack rest r r')
    {p : Problem} {s : Reader} (hx : x r = .error p s)
    (hs : rest.length ≤ s.supply.upcoming.length) :
    p.cause = .tooDeep ∨ ∃ p' s', x' r' = .error p' s' := by
  induction h generalizing r r' with
  | pure => cases hx
  | reject => exact .inr ⟨_, _, rfl⟩
  | look _ ih => exact ih r r' hr.abreast hr hx
  | exhausted =>
    cases hx
    exact .inl rfl
  | @take g g' hg ih =>
    rcases hr.advance hrest with ⟨t, t', ht, ht', hfork⟩ | ⟨t, ht, hlt, hreadable⟩
    · rw [bind_of_ok ht] at hx
      rw [bind_of_ok ht']
      exact ih _ _ hr.current hfork hx
    · rw [bind_of_ok ht] at hx
      have hpaired := hr.readable _ List.mem_cons_self
      have hle := ((hg _ _ hpaired).shrinks hreadable).of_error hx
      omega

end Forks

/-! ## Tokens up to a rejected one -/

/-- What is read is derived, whatever stands behind the end of input. -/
theorem derives_of_ofTokens {tokens : List Token} {lines : List String} {ss : List Node}
    (hlexical : ∀ t ∈ beforeEnd tokens, t.Lexical) (h : ofTokens tokens lines = .ok ss) :
    Derives.Program (beforeEnd tokens) ss := by
  obtain ⟨r, hr, heq⟩ := ofTokens_eq tokens lines
  rw [heq] at h
  obtain ⟨r', hrun⟩ := run_eq_ok_iff.1 h
  have hlexical' : r.Lexical := by
    rw [Reader.Lexical, hr.ahead]
    exact hlexical
  obtain ⟨ts, hm, hss, hend⟩ := (program_takes r hlexical').of_ok hrun
  have hahead := hm.ahead
  rw [hr.ahead, Reader.ahead_of_end hend, List.append_nil] at hahead
  exact hahead ▸ hss

section Rejected

variable {ts rest : List Token} {c : Token} {lines : List String} {p : Problem}

theorem beforeEnd_append_end (hts : ∀ t ∈ ts, t.kind ≠ .endOfInput) (hc : c.kind = .endOfInput) :
    beforeEnd (ts ++ c :: rest) = ts := by
  rw [beforeEnd, List.takeWhile_append_of_pos fun t ht => decide_eq_true (hts t ht)]
  simp [hc]

/-- **No program begins with the tokens up to a rejected one.** -/
theorem not_opens_of_rejected {t : Token} {us : List Token} {s : Reader}
    (hlexical : ∀ u ∈ t :: (us ++ rest), u.Lexical) (hrest : rest ≠ [])
    (hrun : program ⟨t, ⟨us ++ rest, none⟩, lines⟩ = .error p s) (hp : Misfit p.cause)
    (hs : rest.length ≤ s.supply.upcoming.length) :
    ¬ Phrases.program.Opens (t :: us) := by
  rintro ⟨more, -, ss, hss⟩
  let rest' := more ++ Token.endMark :: List.replicate rest.length .endMark
  have hlength : rest'.length = rest.length + (more.length + 1) := by
    simp only [rest', List.length_append, List.length_cons, List.length_replicate]
    omega
  have hpaired : ∀ u ∈ t :: (us ++ rest), u.Paired id u :=
    fun u hu => (hlexical u hu).paired rfl rfl rfl
  have hfork : Fork (more.length + 1) rest ⟨t, ⟨us ++ rest, none⟩, lines⟩
      ⟨t, ⟨us ++ rest', none⟩, lines⟩ :=
    ⟨hpaired t List.mem_cons_self, ⟨us, rest', rfl, rfl, hlength⟩, hpaired⟩
  rcases program_parallel.fork hrest hfork hrun hs with hdeep | ⟨p', s', hrun'⟩
  · rw [hdeep] at hp
    cases hp
  · have hend : beforeEnd (t :: us ++ rest') = t :: us ++ more := by
      rw [← List.append_assoc]
      exact beforeEnd_append_end (fun u hu => hss.grammatical.ne_endOfInput hu) rfl
    have hread := ofTokens_of_derives (hend.symm ▸ hss) lines
    have hrejected : ofTokens (t :: us ++ rest') lines = .error p' :=
      run_eq_error_iff.2 ⟨s', hrun'⟩
    rw [hread] at hrejected
    cases hrejected

/-- Tokens that no program begins with are rejected, whatever stands behind them. -/
theorem ofTokens_of_not_opens (hlexical : ∀ t ∈ ts, t.Lexical)
    (hend : ∀ t ∈ ts, t.kind ≠ .endOfInput) (h : ¬ Phrases.program.Opens ts)
    (lines : List String) (more : List Token) : ∃ p, ofTokens (ts ++ more) lines = .error p := by
  cases ts with
  | nil => exact absurd Phrases.program.opens_nil h
  | cons t us =>
    let q : Problem := ⟨.unterminatedString, none, none⟩
    obtain ⟨p, hp, hcases⟩ := ofSupply_of_fault (q := q) lines hlexical hend rfl
    rcases hcases with ⟨rfl, -⟩ | ⟨-, -, hmore⟩
    · -- The parser would find the fault behind the tokens, and so they would open a program.
      obtain ⟨s, hrun⟩ : ∃ s, program ⟨t, ⟨us, some q⟩, lines⟩ = .error q s := run_eq_error_iff.1 hp
      have hahead : Reader.ahead ⟨t, ⟨us, some q⟩, lines⟩ = t :: us :=
        List.takeWhile_eq_self_iff.2 fun u hu => decide_eq_true (hend u hu)
      have hlexical' : Reader.Lexical ⟨t, ⟨us, some q⟩, lines⟩ := by
        rw [Reader.Lexical, hahead]
        exact hlexical
      rcases (program_fits _ hlexical' nofun).of_error hrun with ⟨_, cause, -, -, hmisfit, hq⟩ | hopens
      · cases congrArg Problem.cause hq
        cases hmisfit
      · rw [hahead] at hopens
        exact absurd hopens.2 h
    · exact ⟨p, hmore more⟩

/-- **Tokens are rejected at one of them**, if the end of input is among them. Those in front of it
open a program, and with it they do not. -/
theorem ofTokens_rejected {tokens : List Token} (hlexical : ∀ t ∈ tokens, t.Lexical)
    (hend : ∃ t ∈ tokens, t.kind = .endOfInput) (h : ofTokens tokens lines = .error p) :
    ∃ ts c rest cause, tokens = ts ++ c :: rest ∧ (∀ t ∈ ts, t.kind ≠ .endOfInput) ∧
      Misfit cause ∧ p = ⟨cause, c.location, quoteLine lines c.location⟩ ∧
      Phrases.program.Opens ts ∧
      (c.kind ≠ .endOfInput → ¬ Phrases.program.Opens (ts ++ [c])) := by
  obtain ⟨t, rest, rfl⟩ := List.exists_cons_of_ne_nil (List.ne_nil_of_mem hend.choose_spec.1)
  obtain ⟨s, hrun⟩ : ∃ s, program ⟨t, ⟨rest, none⟩, lines⟩ = .error p s := run_eq_error_iff.1 h
  have hlexical' : Reader.Lexical ⟨t, ⟨rest, none⟩, lines⟩ :=
    fun u hu => hlexical u ((List.takeWhile_sublist _).mem hu)
  obtain ⟨ts, cause, hm, hopens, hmisfit, rfl⟩ | ⟨hfault, -⟩ :=
    (program_fits _ hlexical' fun _ => hend).of_error hrun
  · have htokens : t :: rest = ts ++ s.current :: s.supply.upcoming := hm.tokens
    have hlines : s.lines = lines := hm.lines
    refine ⟨ts, s.current, s.supply.upcoming, cause, htokens, hm.inner, hmisfit, ?_, hopens,
      fun hcurrent => ?_⟩
    · rw [Reader.problem, hlines]
    · obtain ⟨us, hus⟩ : ∃ us, ts ++ [s.current] = t :: us := by
        cases ts with
        | nil => exact ⟨[], by rw [(List.cons.inj htokens).1]; rfl⟩
        | cons u us => exact ⟨us ++ [s.current], by rw [(List.cons.inj htokens).1]; rfl⟩
      obtain rfl : rest = us ++ s.supply.upcoming := by
        have hcons : t :: rest = t :: us ++ s.supply.upcoming := by simp [htokens, ← hus]
        exact (List.cons.inj hcons).2
      have hupcoming : s.supply.upcoming ≠ [] := by
        obtain ⟨u, hu, huend⟩ := hm.sealed (fun _ => hend) hm.fault
        rcases List.mem_cons.1 hu with rfl | hu
        · exact absurd huend hcurrent
        · exact List.ne_nil_of_mem hu
      rw [hus]
      exact not_opens_of_rejected hlexical hupcoming hrun hmisfit (Nat.le_refl _)
  · cases hfault

end Rejected

/-! ## Source texts -/

theorem exists_endOfInput {source file : String} {tokens : List Token}
    (h : (Scan.ofSource source file).result = .ok tokens) :
    ∃ t ∈ tokens, t.kind = .endOfInput := by
  obtain ⟨front, hwords, -⟩ := Scan.exists_front h
  have hmem : endWord ∈ tokens.map Token.word := by simp [hwords]
  obtain ⟨t, ht, hword⟩ := List.mem_map.1 hmem
  exact ⟨t, ht, congrArg Prod.fst hword⟩

/-- **The first token that cannot stand where it does is the one that is rejected.** -/
theorem rejected_first {source file : String} {tokens : List Token} {lines : List String}
    {p : Problem} (hscan : (Scan.ofSource source file).result = .ok tokens)
    (h : ofTokens tokens lines = .error p) :
    ∃ k, ∃ hk : k < tokens.length, p.location = tokens[k].location ∧
      (∃ more ss, (∀ t ∈ more, t.Lexical) ∧ ofTokens (tokens.take k ++ more) lines = .ok ss) ∧
      (∀ more ss, ofTokens (tokens.take (k + 1) ++ more) lines ≠ .ok ss) ∧
      (tokens[k].kind = .endOfInput → ∀ ss, ofTokens (tokens.take k) lines ≠ .ok ss) := by
  have hlexical := lexical_of_result hscan
  obtain ⟨ts, c, rest, cause, rfl, hts, -, rfl, hopens, hnot⟩ :=
    ofTokens_rejected hlexical (exists_endOfInput hscan) h
  have hlexical_ts : ∀ t ∈ ts, t.Lexical := fun t ht => hlexical t (List.mem_append_left _ ht)
  -- If the end of input is rejected, then there is no program in front of it.
  have hprogram : c.kind = .endOfInput → ∀ ss, ¬ Derives.Program ts ss := by
    intro hc ss hss
    have hbefore : beforeEnd (ts ++ c :: rest) = ts := beforeEnd_append_end hts hc
    have hread := ofTokens_of_derives (hbefore.symm ▸ hss) lines
    rw [h] at hread
    cases hread
  refine ⟨ts.length, by simp, by simp, ?_, fun more ss hread => ?_, fun hc ss hread => ?_⟩
  · obtain ⟨more, hmore, ss, hss⟩ := hopens
    refine ⟨more, ss, hmore, ?_⟩
    rw [List.take_left]
    exact ofTokens_of_derives (hss.grammatical.beforeEnd_eq.symm ▸ hss) lines
  · rw [List.take_length_add_append, List.take_succ_cons, List.take_zero] at hread
    by_cases hc : c.kind = .endOfInput
    · have hbefore : beforeEnd (ts ++ [c] ++ more) = ts := by
        rw [List.append_assoc]
        exact beforeEnd_append_end hts hc
      have hss := derives_of_ofTokens (by rwa [hbefore]) hread
      rw [hbefore] at hss
      exact hprogram hc ss hss
    · have hlexical_c : ∀ t ∈ ts ++ [c], t.Lexical :=
        fun t ht => hlexical t (List.append_cons ts c rest ▸ List.mem_append_left rest ht)
      have hend_c : ∀ t ∈ ts ++ [c], t.kind ≠ .endOfInput :=
        List.forall_mem_append.2 ⟨hts, List.forall_mem_singleton.2 hc⟩
      obtain ⟨p, hp⟩ := ofTokens_of_not_opens hlexical_c hend_c (hnot hc) lines more
      rw [hp] at hread
      cases hread
  · rw [List.take_left] at hread
    have hbefore : beforeEnd ts = ts :=
      List.takeWhile_eq_self_iff.2 fun t ht => decide_eq_true (hts t ht)
    have hss := derives_of_ofTokens (by rwa [hbefore]) hread
    rw [hbefore] at hss
    exact hprogram (by simpa using hc) ss hss

/-- The tokens of `x=;`. -/
def emptyAssignment : List Token :=
  [⟨.identifier, "x", some ⟨"", 1, 1, 0⟩⟩, ⟨.assign, "=", some ⟨"", 1, 2, 1⟩⟩,
    ⟨.semicolon, ";", some ⟨"", 1, 3, 2⟩⟩, ⟨.endOfInput, "", some ⟨"", 1, 4, 3⟩⟩]

theorem emptyAssignment_rejected :
    (Scan.ofSource "x=;" "").result = .ok emptyAssignment ∧
    ofTokens emptyAssignment [] =
      .error ⟨.missingExpression "SEMICOLON ';'", some ⟨"", 1, 3, 2⟩, none⟩ ∧
    ∃ k, ∃ hk : k < emptyAssignment.length,
      some ⟨"", 1, 3, 2⟩ = emptyAssignment[k].location ∧
        (∃ more ss, (∀ t ∈ more, t.Lexical) ∧
          ofTokens (emptyAssignment.take k ++ more) [] = .ok ss) ∧
        ∀ more ss, ofTokens (emptyAssignment.take (k + 1) ++ more) [] ≠ .ok ss := by
  have hscan : (Scan.ofSource "x=;" "").result = .ok emptyAssignment := by decide
  have hrejected : ofTokens emptyAssignment [] =
      .error ⟨.missingExpression "SEMICOLON ';'", some ⟨"", 1, 3, 2⟩, none⟩ := rfl
  obtain ⟨k, hk, hlocation, hopens, hnot, -⟩ := rejected_first hscan hrejected
  exact ⟨hscan, hrejected, k, hk, hlocation, hopens, hnot⟩

end ThreeAddress.Grammar
