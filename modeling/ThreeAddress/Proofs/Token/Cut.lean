import ThreeAddress.Proofs.Token.Place

/-!
# Texts cut in two

Where a text can be cut so that the tokens of the parts are those of the whole.

* `IsGap.restrict`, `Ends.restrict`: a gap and a lexeme are the same when text behind them is left
  out.
* `Lexes.cut`: a text is cut in front of any of its pieces.
* `Piece.token`: the token of a piece. Nothing else tells two tokens at one offset apart.
* `Scan.CutsAt`: reading a text is reading it up to an offset and reading on from there.

**Theorem (`scan_cut`).** A text can be cut at the offset of any of its tokens, and in front of a
string that is not closed.

A comment that is not closed has its place at the end of the text, so a cut there leaves nothing
behind it, and its token is the last one in front of the cut.
-/

namespace ThreeAddress

open Token

namespace Token

variable {g value before behind text : List Char} {k : Kind} {n : Nat} {pieces : List Piece}
  {p : Piece} {fault : Option Nat}

theorem head?_restrict {P : Char → Prop} (h : ∀ c ∈ (before ++ behind).head?, P c) :
    ∀ c ∈ before.head?, P c := by
  cases before with
  | nil => exact nofun
  | cons => exact h

theorem IsGap.restrict (h : IsGap g (before ++ behind)) : IsGap g before := by
  generalize htext : before ++ behind = text at h
  induction h with
  | nil => exact .nil
  | blank hc _ ih => exact .blank hc (ih htext)
  | line hbody hend _ ih =>
    subst htext
    rw [← List.append_assoc] at hend
    exact .line hbody (head?_restrict hend) (ih rfl)
  | block hbody _ ih => exact .block hbody (ih htext)

/-- Any gap is one at the end of a text. -/
theorem IsGap.last (h : IsGap g behind) : IsGap g [] :=
  .restrict (show IsGap g ([] ++ behind) from h)

theorem Ends.restrict (h : Ends k value (before ++ behind)) : Ends k value before :=
  head?_restrict h

/-- **A text is cut in front of any of its pieces.** -/
theorem Lexes.cut (h : Lexes n text pieces fault) (hp : p ∈ pieces) :
    ∃ before behind front back, text = before ++ behind ∧
      p.offset = some ((n + before.length : Nat) : Int) ∧ pieces = front ++ back ∧
      Lexes n before (front ++ [⟨.endOfInput, "", p.offset⟩]) none ∧
      Lexes (n + before.length) behind back fault := by
  induction h with
  | @finish n g hg =>
    obtain rfl := List.mem_singleton.1 hp
    exact ⟨g, [], [], _, (List.append_nil g).symm, rfl, rfl, .finish hg, .finish .nil⟩
  | @unclosed n g body hg hbody =>
    have hoffset : p.offset = some ((n + (g ++ '/' :: '*' :: body).length : Nat) : Int) := by
      rcases List.mem_pair.1 hp with rfl | rfl <;> rfl
    refine ⟨_, [], [_], [_], (List.append_nil _).symm, hoffset, rfl, ?_, .finish .nil⟩
    rw [hoffset]
    exact .unclosed hg hbody
  | openString => cases hp
  | @lexeme n g value rest k pieces fault hg hspelling hends hrest ih =>
    rcases List.mem_cons.1 hp with rfl | hp
    · exact ⟨g, _, [], _, rfl, rfl, rfl, .finish hg.last, .lexeme .nil hspelling hends hrest⟩
    · obtain ⟨before, behind, front, back, rfl, hoffset, rfl, hbefore, hbehind⟩ := ih hp
      have hlength : n + (g ++ (written k value ++ before)).length =
          n + g.length + (written k value).length + before.length := by
        simp only [List.length_append, Nat.add_assoc]
      rw [← List.append_assoc] at hg
      refine ⟨g ++ (written k value ++ before), behind, _ :: front, back, ?_, ?_, rfl,
        .lexeme hg.restrict hspelling hends.restrict hbefore, ?_⟩
      · simp only [List.append_assoc]
      · rw [hlength, hoffset]
      · rw [hlength]
        exact hbehind

/-- A text is cut in front of a string that is not closed. -/
theorem Lexes.cut_open {k : Nat} (h : Lexes n text pieces (some k)) :
    ∃ before behind, text = before ++ behind ∧ k = n + before.length ∧
      Lexes n before (pieces ++ [⟨.endOfInput, "", some k⟩]) none := by
  generalize hfault : some k = fault at h
  induction h with
  | finish | unclosed => cases hfault
  | @openString n g body hg =>
    cases hfault
    exact ⟨g, _, rfl, rfl, .finish hg.last⟩
  | @lexeme n g value rest k' pieces fault hg hspelling hends _ ih =>
    obtain ⟨before, behind, rfl, hk, hbefore⟩ := ih hfault
    rw [← List.append_assoc] at hg
    refine ⟨g ++ (written k' value ++ before), behind, ?_, ?_,
      .lexeme hg.restrict hspelling hends.restrict hbefore⟩
    · simp only [List.append_assoc]
    · simp only [hk, List.length_append, Nat.add_assoc]

end Token

/-! ## Tokens and pieces -/

/-- The text in front of an offset fixes its place. -/
theorem Text.rowStart_take (text : List Char) {k o : Nat} (h : k ≤ o) :
    rowStart (text.take o) k = rowStart text k := by
  induction k with
  | zero => rfl
  | succ k ih =>
    have hlast : (text.take o)[k + 1 - 1]? = text[k + 1 - 1]? := List.getElem?_take_of_lt h
    have hfront := ih (Nat.le_of_succ_le h)
    unfold rowStart at hfront ⊢
    simp only [Nat.findGreatest_succ, hlast, hfront]

theorem Location.ofOffset_take (file : String) (text : List Char) {k o : Nat} (h : k ≤ o) :
    ofOffset file (text.take o) k = ofOffset file text k := by
  rw [ofOffset, Text.rowStart_take text h, List.take_take, Nat.min_eq_left h, ofOffset]

/-- The token of a piece of a text. -/
def Piece.token (p : Piece) (file : String) (text : List Char) : Token :=
  ⟨p.kind, p.text, p.offset.map fun k => .ofOffset file text k.toNat⟩

namespace Token.PlacedIn

variable {t : Token} {file : String} {text : List Char}

theorem token_piece (h : t.PlacedIn file text) : t.piece.token file text = t := by
  obtain ⟨kind, value, location⟩ := t
  obtain ⟨k, -, rfl⟩ := h
  rfl

theorem of_take {o : Nat} (h : t.PlacedIn file (text.take o)) : t.PlacedIn file text := by
  obtain ⟨k, hk, hlocation⟩ := h
  rw [List.length_take] at hk
  refine ⟨k, Nat.le_trans hk (Nat.min_le_right _ _), ?_⟩
  rw [hlocation, Location.ofOffset_take _ _ (Nat.le_trans hk (Nat.min_le_left _ _))]

theorem map_token_piece {tokens : List Token} (h : ∀ t ∈ tokens, t.PlacedIn file text) :
    (tokens.map Token.piece).map (·.token file text) = tokens := by
  rw [List.map_map]
  exact (List.map_congr_left fun t ht => (h t ht).token_piece).trans (List.map_id tokens)

/-- Tokens of one text that have the same pieces are the same. -/
theorem eq_of_piece {tokens tokens' : List Token} (h : ∀ t ∈ tokens, t.PlacedIn file text)
    (h' : ∀ t ∈ tokens', t.PlacedIn file text)
    (heq : tokens.map Token.piece = tokens'.map Token.piece) : tokens = tokens' := by
  rw [← map_token_piece h, heq, map_token_piece h']

end Token.PlacedIn

/-! ## Source texts -/

namespace Scan

variable {source : String} {n : Nat} {pieces : List Piece} {fault : Option Nat}

theorem fault_eq_none_iff (h : Lexes 0 source.toList pieces fault) (file : String) :
    (ofSource source file).fault = none ↔ fault = none := by
  rw [← Option.map_eq_none_iff, (ofSource_of_lexes h file).2, Option.map_eq_none_iff]

/-- The words of a text that is cut into pieces from some offset on. -/
theorem words_of_lexes (h : Lexes n source.toList pieces fault) (file : String) :
    (ofSource source file).tokens.map Token.word = pieces.map Piece.word ∧
      ((ofSource source file).fault = none ↔ fault = none) := by
  obtain ⟨pieces', fault', hlexes, hwords, hfault⟩ := h.shift 0
  refine ⟨?_, (fault_eq_none_iff hlexes file).trans hfault⟩
  rw [Token.map_word, (ofSource_of_lexes hlexes file).1, hwords]

/-- Reading the text is reading it up to the offset, and in place of the end of input reading on
from there. A problem is come to in the whole text just if it is in the second part. -/
structure CutsAt (source file : String) (o : Nat) : Prop where
  clean : (ofSource (String.ofList (source.toList.take o)) file).fault = none
  words : ∃ front,
    (ofSource (String.ofList (source.toList.take o)) file).tokens.map Token.word =
      front ++ [endWord] ∧
    (ofSource source file).tokens.map Token.word =
      front ++ (ofSource (String.ofList (source.toList.drop o)) file).tokens.map Token.word
  fault : (ofSource source file).fault = none ↔
    (ofSource (String.ofList (source.toList.drop o)) file).fault = none

theorem cutsAt_of_piece (h : Lexes 0 source.toList pieces fault) {p : Piece} (hp : p ∈ pieces)
    (file : String) : ∃ o : Nat, p.offset = some (o : Int) ∧ CutsAt source file o := by
  obtain ⟨before, behind, front, back, htext, hoffset, hpieces, hbefore, hbehind⟩ := h.cut hp
  have htake : (String.ofList (source.toList.take before.length)).toList = before := by
    rw [String.toList_ofList, htext, List.take_left]
  have hdrop : (String.ofList (source.toList.drop before.length)).toList = behind := by
    rw [String.toList_ofList, htext, List.drop_left]
  rw [← htake] at hbefore
  rw [← hdrop] at hbehind
  obtain ⟨hwords, hfault⟩ := words_of_lexes h file
  obtain ⟨hwords', hfault'⟩ := words_of_lexes hbefore file
  obtain ⟨hwords'', hfault''⟩ := words_of_lexes hbehind file
  refine ⟨before.length, ?_, hfault'.2 rfl, ⟨front.map Piece.word, ?_, ?_⟩, ?_⟩
  · rw [hoffset, Nat.zero_add]
  · rw [hwords', List.map_append]
    rfl
  · rw [hwords, hwords'', hpieces, List.map_append]
  · rw [hfault, hfault'']

/-- In front of a string that is not closed, the tokens are those of the text up to there. -/
theorem tokens_before_fault {p : Problem} {o : Nat} {file : String}
    (hfault : (ofSource source file).fault = some p) (h : p.OpensAt file source.toList o) :
    (ofSource (String.ofList (source.toList.take o)) file).fault = none ∧
      (ofSource (String.ofList (source.toList.take o)) file).tokens =
        (ofSource source file).tokens ++ [⟨.endOfInput, "", p.location⟩] := by
  obtain ⟨pieces, fault, hlexes⟩ := exists_lexes 0 source.toList
  obtain ⟨hpieces, hproblem⟩ := ofSource_of_lexes hlexes file
  rw [hfault, Option.map_some, h.location] at hproblem
  obtain ⟨k, rfl, hoffset⟩ := Option.map_eq_some_iff.1 hproblem.symm
  obtain rfl : k = o := Int.ofNat_inj.1 (Option.some.inj hoffset)
  obtain ⟨before, behind, htext, hlength, hbefore⟩ := hlexes.cut_open
  rw [Nat.zero_add] at hlength
  have htake : source.toList.take k = before := by rw [htext, hlength, List.take_left]
  have hk : k ≤ source.toList.length := by
    rw [htext, hlength]
    exact (List.prefix_append _ _).length_le
  rw [← htake, ← String.toList_ofList (l := source.toList.take k)] at hbefore
  refine ⟨(fault_eq_none_iff hbefore file).2 rfl, ?_⟩
  obtain ⟨-, -, -, hplaced, -⟩ := places_exact source file
  obtain ⟨-, -, -, hplaced', -⟩ := places_exact (String.ofList (source.toList.take k)) file
  rw [String.toList_ofList] at hplaced'
  refine Token.PlacedIn.eq_of_piece (fun t ht => (hplaced' t ht).of_take) ?_ ?_
  · refine List.forall_mem_append.2 ⟨hplaced, List.forall_mem_singleton.2 ?_⟩
    exact ⟨k, hk, h.location⟩
  · rw [(ofSource_of_lexes hbefore file).1, List.map_append, hpieces, h.location]
    rfl

end Scan

/-- **A text can be cut at the offset of a token**, and in front of a string that is not closed. -/
theorem scan_cut (source file : String) :
    (∀ t ∈ (Scan.ofSource source file).tokens, ∃ o ≤ source.length,
      t.location = some (.ofOffset file source.toList o) ∧ Scan.CutsAt source file o) ∧
      ∀ p, (Scan.ofSource source file).fault = some p → ∃ o, p.OpensAt file source.toList o ∧
        (Scan.ofSource (String.ofList (source.toList.take o)) file).fault = none ∧
        (Scan.ofSource (String.ofList (source.toList.take o)) file).tokens =
          (Scan.ofSource source file).tokens ++ [⟨.endOfInput, "", p.location⟩] := by
  obtain ⟨pieces, fault, hlexes⟩ := exists_lexes 0 source.toList
  obtain ⟨hpieces, -⟩ := Scan.ofSource_of_lexes hlexes file
  obtain ⟨-, -, -, hplaced, hopens⟩ := places_exact source file
  constructor
  · intro t ht
    obtain ⟨k, hk, hlocation⟩ := hplaced t ht
    have hmem : t.piece ∈ pieces := hpieces ▸ List.mem_map_of_mem ht
    obtain ⟨o, hoffset, hcut⟩ := Scan.cutsAt_of_piece hlexes hmem file
    rw [Token.piece, hlocation] at hoffset
    obtain rfl : k = o := Int.ofNat_inj.1 (Option.some.inj hoffset)
    exact ⟨k, hk, hlocation, hcut⟩
  · intro p hp
    obtain ⟨o, hopen⟩ := hopens p hp
    exact ⟨o, hopen, Scan.tokens_before_fault hp hopen⟩

/-- A cut at a comment that is not closed, and one in front of a string that is not closed. -/
theorem openEnds_cut :
    (∃ o ≤ "a/*b".length,
      (⟨.unknown, unclosedComment, some ⟨"f", 1, 5, 4⟩⟩ : Token).location =
        some (.ofOffset "f" "a/*b".toList o) ∧ Scan.CutsAt "a/*b" "f" o) ∧
      ∃ o, (⟨.unterminatedString, some ⟨"f", 1, 6, 5⟩, some "x/**/\"b"⟩ : Problem).OpensAt "f"
          "x/**/\"b".toList o ∧
        (Scan.ofSource (String.ofList ("x/**/\"b".toList.take o)) "f").fault = none ∧
        (Scan.ofSource (String.ofList ("x/**/\"b".toList.take o)) "f").tokens =
          (Scan.ofSource "x/**/\"b" "f").tokens ++
            [⟨.endOfInput, "", some ⟨"f", 1, 6, 5⟩⟩] :=
  ⟨(scan_cut "a/*b" "f").1 _ (by decide +kernel), (scan_cut "x/**/\"b" "f").2 _ (by decide +kernel)⟩

end ThreeAddress
