import ThreeAddress.Proofs.Compilation.Concatenation
import ThreeAddress.Proofs.Tree.Writing

/-!
# Reading written trees

A tree that is written in tokens is read back, with redundant parentheses or without them.

* `Node.same_mapPlaces`: places take no part in comparing trees.
* `Node.tier`, `operandTier`: the tier that an expression is of without redundant parentheses, and
  the one that an operator asks for on each side.
* `Derives.Expression.operand`: the needed parentheses lead from the one to the other.
* `Regular.exists_derived`: a written statement is derived as one tree.
* `ofTokens_of_words`: words that are derived are read, wherever they stand.

**Theorem (`written_reparsed`).** The tokens of a program can be read from a source text, and are
read as the program. Redundant parentheses do not change what is read.

The grammar derives an expression in parentheses as the expression, so the derived tree is chosen
before the number of redundant pairs is known. It is the written tree but for the floats, which are
equal as numbers only.
-/

namespace ThreeAddress

open Grammar

/-! ## Trees up to places -/

namespace Node

mutual

/-- **Places take no part in comparing trees.** -/
theorem same_mapPlaces (f : Option Location → Option Location) :
    ∀ s t : Node, s.same (t.mapPlaces f) = s.same t
  | assign _ v _ _, t => by cases t <;> simp only [mapPlaces, same, same_mapPlaces f v]
  | binary l _ r _, t => by
    cases t <;> simp only [mapPlaces, same, same_mapPlaces f l, same_mapPlaces f r]
  | int .., t | float .., t | string .., t | var .., t | ret _, t | bare _, t => by
    cases t <;> simp only [mapPlaces, same]
  | ifThen c b _, t => by
    cases t <;> simp only [mapPlaces, same, same_mapPlaces f c, same_mapPlaces f b]
  | ifElse c b b' _, t => by
    cases t <;>
      simp only [mapPlaces, same, same_mapPlaces f c, same_mapPlaces f b, same_mapPlaces f b']
  | forLoop i c u b _, t => by
    cases t <;>
      simp only [mapPlaces, same, same_mapPlaces f i, same_mapPlaces f c, same_mapPlaces f u,
        same_mapPlaces f b]
  | whileLoop c b _, t => by
    cases t <;> simp only [mapPlaces, same, same_mapPlaces f c, same_mapPlaces f b]
  | retValue v _, t => by cases t <;> simp only [mapPlaces, same, same_mapPlaces f v]
  | block ss _, t => by
    cases t <;> simp only [mapPlaces, mapPlacesAll_eq_map, same, sameAll_mapPlaces f ss]

theorem sameAll_mapPlaces (f : Option Location → Option Location) :
    ∀ ss ts : List Node, sameAll ss (ts.map (mapPlaces f)) = sameAll ss ts
  | [], [] | [], _ :: _ | _ :: _, [] => rfl
  | s :: ss, t :: ts => by
    rw [List.map_cons, sameAll, sameAll, same_mapPlaces f s t, sameAll_mapPlaces f ss ts]

end

/-- Trees that are equal without their places are the same as the same trees. -/
theorem sameAll_of_unplaced {ss ts us : List Node} (h : ts.map unplaced = us.map unplaced) :
    sameAll ss ts = sameAll ss us := by
  rw [← sameAll_mapPlaces (fun _ => none) ss ts, h, sameAll_mapPlaces]

end Node

/-! ## Operators -/

namespace Operator

theorem isHighOperator_kind : ∀ op ∈ known, isHighOperator op.kind = op.isHigh := by decide

theorem isLowOperator_kind : ∀ op ∈ known, isLowOperator op.kind = !op.isHigh := by decide

end Operator

/-! ## Tiers -/

open Derives

/-- The tightest tier that the tokens of a tree without redundant parentheses belong to. -/
def Node.tier : Node → Tier
  | .binary _ op _ _ => if op.isHigh then .term else .expression
  | _ => .factor

/-- The tier that the grammar asks for to the left or to the right of an operator. -/
def operandTier (op : Operator) (right : Bool) : Tier :=
  match op.isHigh, right with
  | true, true => .factor
  | true, false | false, true => .term
  | false, false => .expression

namespace Grammar.Derives.Expression

variable {tier : Tier} {ts us : List Token} {e : Node}

/-- A factor stands wherever an expression can stand. -/
theorem lift (h : Expression .factor ts e) : ∀ tier, Expression tier ts e
  | .factor => h
  | .term => .ofFactor h
  | .expression => .ofTerm (.ofFactor h)

theorem loosen (h : Expression tier ts e) : Expression .expression ts e := by
  cases tier with
  | factor => exact h.lift _
  | term => exact .ofTerm h
  | expression => exact h

/-- Parentheses leave no trace, and what is in them is a factor. -/
theorem enclosed (h : Expression tier ts e) (tier' : Tier) :
    Expression tier' (ThreeAddress.enclose 1 ts) e :=
  lift (.parens rfl h.loosen rfl) tier'

theorem enclose (h : Expression tier ts e) (n : Nat) : Expression tier (enclose n ts) e := by
  induction n with
  | zero => exact h
  | succ n ih => exact ih.enclosed tier

/-- **An operand with the parentheses that it needs** is of the tier that is asked for. -/
theorem operand {n : Node} (h : Expression n.tier ts e) (op : Operator) (right : Bool) :
    Expression (operandTier op right) (ThreeAddress.enclose (needsParens op right n).toNat ts)
      e := by
  cases n with
  | binary left inner right' l =>
    simp only [Node.tier] at h
    simp only [needsParens, operandTier]
    -- Without parentheses the operand is at least as tight as what is asked for.
    cases hinner : inner.isHigh <;> cases op.isHigh <;> cases right <;>
      simp only [hinner, if_true, if_false, Bool.false_eq_true] at h ⊢
    all_goals first
      | exact h.enclosed _
      | exact h
      | exact .ofTerm h
  | _ => exact h.lift _

/-- An operator between two operands of the tiers that it asks for. -/
theorem join {left right : Node} {op : Operator} (hop : op ∈ Operator.known)
    (hleft : Expression (operandTier op false) ts left)
    (hright : Expression (operandTier op true) us right) (l r : Node) (p : Option Location) :
    Expression (Node.binary l op r p).tier (ts ++ .free op.kind op.symbol :: us)
      (.binary left op right none) := by
  have hhigh := Operator.isHighOperator_kind op hop
  have hlow := Operator.isLowOperator_kind op hop
  have htree : Node.binary left op right none =
      .binary left (.ofSymbol (Token.free op.kind op.symbol).text) right none := by
    rw [Token.free, Operator.ofSymbol_symbol op hop]
  rw [htree]
  unfold operandTier at hleft hright
  cases htier : op.isHigh with
  | true =>
    rw [htier] at hleft hright hhigh
    simp only [Node.tier, htier, if_true]
    exact .high hleft hhigh hright
  | false =>
    rw [htier] at hleft hright hlow
    simp only [Node.tier, htier, if_false, Bool.false_eq_true]
    exact .low hleft hlow hright

end Grammar.Derives.Expression

/-! ## Derivations of written trees -/

namespace Node

variable {float : List Nat → Float → String}

/-- Whatever redundant parentheses stand in it, an expression is derived as one tree. -/
theorem RegularExpression.exists_derived {e : Node} (he : e.RegularExpression)
    (hwritable : ∀ n ∈ e.parts, n.Writable float) (way : List Nat) :
    ∃ e₀, e.same e₀ = true ∧
      ∀ pairs, Derives.Expression e.tier (e.expressionTokens ⟨float, pairs⟩ way) e₀ := by
  induction he generalizing way with
  | @int value l htext =>
    have hvalue : 0 ≤ value := hwritable (.int value l) List.mem_cons_self
    obtain ⟨digits, hdigits, hne, hlimit, heq⟩ := Literal.exists_digits hvalue htext
    have hint : Derives.Expression .factor [.free .intLiteral (Literal.intText value)]
        (.int (Literal.value digits) none) :=
      .int rfl hdigits hne hlimit
    refine ⟨.int (Literal.value digits) none, ?_, fun pairs => hint.enclose _⟩
    simp only [same, heq, decide_true]
  | @float value l =>
    have hvalue : (Node.float value l).Writable float := hwritable _ List.mem_cons_self
    obtain ⟨-, x, hread, hx⟩ := hvalue way
    have hfloat : Derives.Expression .factor [.free .floatLiteral (float way value)]
        (.float x none) :=
      .float rfl hread
    exact ⟨.float x none, hx, fun pairs => hfloat.enclose _⟩
  | @string value l =>
    exact ⟨.string value none, decide_eq_true rfl, fun pairs => .enclose (.string rfl) _⟩
  | @var name l =>
    exact ⟨.var name none, decide_eq_true rfl, fun pairs => .enclose (.var rfl) _⟩
  | @binary left right op l _ _ ihl ihr =>
    obtain ⟨hop, hleft, hright⟩ := forall_parts_binary.1 hwritable
    obtain ⟨left₀, hsame, hleft⟩ := ihl hleft (0 :: way)
    obtain ⟨right₀, hsame', hright⟩ := ihr hright (1 :: way)
    refine ⟨.binary left₀ op right₀ none, ?_, fun pairs => .enclose ?_ _⟩
    · simp only [same, hsame, hsame', decide_true, Bool.and_self]
    · exact .join hop ((hleft _).operand op false) ((hright _).operand op true) left right l

theorem exists_derived_update {s : Node} (hs : s.Regular) (hassign : s.isAssignment = true)
    (hwritable : ∀ n ∈ s.parts, n.Writable float) (way : List Nat) :
    ∃ s₀, s.same s₀ = true ∧ ∀ pairs, Derives.Update (s.updateTokens ⟨float, pairs⟩ way) s₀ := by
  cases hs with
  | @assign name value declares l hvalue =>
    obtain ⟨⟨-, hdeclares⟩, hparts⟩ := List.forall_mem_cons.1 hwritable
    obtain ⟨value₀, hsame, hderives⟩ := hvalue.exists_derived hparts (0 :: way)
    refine ⟨.assign name value₀ declares none, ?_, fun pairs => ?_⟩
    · simp only [same, hsame, decide_true, Bool.and_self]
    · cases declares with
      | none => exact .plain rfl rfl (hderives _).loosen
      | some type =>
        have htype := hdeclares type rfl
        simp only [List.mem_cons, List.not_mem_nil, or_false] at htype
        rcases htype with rfl | rfl | rfl
        all_goals exact .typed (by decide) rfl rfl (hderives _).loosen
  | _ => cases hassign

theorem exists_derived_program {ss : List Node}
    (h : ∀ s ∈ ss, ∀ way, ∃ s₀, s.same s₀ = true ∧
      ∀ pairs, Derives.Statement (s.statementTokens ⟨float, pairs⟩ way) s₀) (way : List Nat) :
    ∃ ss₀, sameAll ss ss₀ = true ∧
      ∀ pairs, Derives.Program (programTokens ⟨float, pairs⟩ way ss) ss₀ := by
  induction ss generalizing way with
  | nil => exact ⟨[], rfl, fun pairs => .nil⟩
  | cons s ss ih =>
    obtain ⟨hs, hss⟩ := List.forall_mem_cons.1 h
    obtain ⟨s₀, hsame, hs⟩ := hs (0 :: way)
    obtain ⟨ss₀, hsameAll, hss⟩ := ih hss (1 :: way)
    refine ⟨s₀ :: ss₀, ?_, fun pairs => .cons (hs _) (hss _)⟩
    rw [sameAll, hsame, hsameAll, Bool.and_self]

/-- A statement is derived as one tree, and a block as a block. -/
theorem Regular.exists_derived {s : Node} (hs : s.Regular)
    (hwritable : ∀ n ∈ s.parts, n.Writable float) (way : List Nat) :
    ∃ s₀, s.same s₀ = true ∧
      (∀ pairs, Derives.Statement (s.statementTokens ⟨float, pairs⟩ way) s₀) ∧
      (s.isBlock = true → ∀ pairs, Derives.Block (s.statementTokens ⟨float, pairs⟩ way) s₀) := by
  induction hs generalizing way with
  | @assign name value declares l hvalue =>
    obtain ⟨s₀, hsame, hderives⟩ := exists_derived_update (.assign hvalue) rfl hwritable way
    exact ⟨s₀, hsame, fun pairs => .assignment (hderives _) rfl, nofun⟩
  | block _ ih =>
    obtain ⟨-, hparts⟩ := forall_parts_block.1 hwritable
    obtain ⟨ss₀, hsame, hderives⟩ := exists_derived_program (fun s hs way => by
      obtain ⟨s₀, hsame, hderives, -⟩ := ih s hs (hparts s hs) way
      exact ⟨s₀, hsame, hderives⟩) (0 :: way)
    have hblock : ∀ pairs,
        Derives.Block ((Node.block _ none).statementTokens ⟨float, pairs⟩ way) (.block ss₀ none) :=
      fun _ => .braces rfl (hderives _) rfl
    exact ⟨.block ss₀ none, hsame, fun _ => .block (hblock _), fun _ => hblock⟩
  | ifThen hc hblock _ iht =>
    obtain ⟨-, hcondition, hthen⟩ := forall_parts_ifThen.1 hwritable
    obtain ⟨c₀, hsame, hc⟩ := hc.exists_derived hcondition (0 :: way)
    obtain ⟨b₀, hsame', -, hb⟩ := iht hthen (1 :: way)
    refine ⟨.ifThen c₀ b₀ none, ?_, fun pairs => ?_, nofun⟩
    · simp only [same, hsame, hsame', Bool.and_self]
    · exact .ifThen rfl (.parens rfl (hc _).loosen rfl) (hb hblock _)
  | ifElse hc hblock _ hblock' _ iht ihe =>
    obtain ⟨-, hcondition, hthen, helse⟩ := forall_parts_ifElse.1 hwritable
    obtain ⟨c₀, hsamec, hc⟩ := hc.exists_derived hcondition (0 :: way)
    obtain ⟨b₀, hsameb, -, hb⟩ := iht hthen (1 :: way)
    obtain ⟨b₁, hsameb', -, hb'⟩ := ihe helse (2 :: way)
    refine ⟨.ifElse c₀ b₀ b₁ none, ?_, fun pairs => ?_, nofun⟩
    · simp only [same, hsamec, hsameb, hsameb', Bool.and_self]
    · exact .ifElse rfl (.parens rfl (hc _).loosen rfl) (hb hblock _) rfl (hb' hblock' _)
  | forLoop hi hiregular hc hu huregular hblock _ _ _ ihb =>
    obtain ⟨-, hinit, hcondition, hupdate, hbody⟩ := forall_parts_forLoop.1 hwritable
    obtain ⟨i₀, hsamei, hi⟩ := exists_derived_update hiregular hi hinit (0 :: way)
    obtain ⟨c₀, hsamec, hc⟩ := hc.exists_derived hcondition (1 :: way)
    obtain ⟨u₀, hsameu, hu⟩ := exists_derived_update huregular hu hupdate (2 :: way)
    obtain ⟨b₀, hsameb, -, hb⟩ := ihb hbody (3 :: way)
    refine ⟨.forLoop i₀ c₀ u₀ b₀ none, ?_, fun pairs => ?_, nofun⟩
    · simp only [same, hsamei, hsamec, hsameu, hsameb, Bool.and_self]
    · exact .forLoop rfl rfl (hi _) rfl (hc _).loosen rfl (hu _) rfl (hb hblock _)
  | whileLoop hc hblock _ ihb =>
    obtain ⟨-, hcondition, hbody⟩ := forall_parts_whileLoop.1 hwritable
    obtain ⟨c₀, hsame, hc⟩ := hc.exists_derived hcondition (0 :: way)
    obtain ⟨b₀, hsame', -, hb⟩ := ihb hbody (1 :: way)
    refine ⟨.whileLoop c₀ b₀ none, ?_, fun pairs => ?_, nofun⟩
    · simp only [same, hsame, hsame', Bool.and_self]
    · exact .whileLoop rfl (.parens rfl (hc _).loosen rfl) (hb hblock _)
  | ret => exact ⟨.ret none, rfl, fun _ => .ret rfl rfl, nofun⟩
  | retValue hvalue =>
    obtain ⟨-, hparts⟩ := List.forall_mem_cons.1 hwritable
    obtain ⟨value₀, hsame, hderives⟩ := hvalue.exists_derived hparts (0 :: way)
    exact ⟨.retValue value₀ none, hsame, fun _ => .retValue rfl (hderives _).loosen rfl, nofun⟩

end Node

/-! ## Reading -/

namespace Grammar

theorem lexical_of_words {ts us : List Token} (h : ∀ t ∈ ts, t.Lexical)
    (hwords : us.map Token.word = ts.map Token.word) : ∀ u ∈ us, u.Lexical := by
  intro u hu
  have hmem := List.mem_map_of_mem (f := Token.word) hu
  rw [hwords] at hmem
  obtain ⟨t, ht, hword⟩ := List.mem_map.1 hmem
  obtain ⟨hkind, htext⟩ := Prod.mk.inj hword
  have hlexical := h t ht
  rwa [Token.Lexical, hkind, htext] at hlexical

/-- **Derived words are read**, wherever they stand, as the derived tree but for its places. -/
theorem ofTokens_of_words {ts tokens : List Token} {ss : List Node}
    (hlexical : ∀ t ∈ ts, t.Lexical) (hderives : Derives.Program ts ss)
    (hwords : (beforeEnd tokens).map Token.word = ts.map Token.word) (lines : List String) :
    ∃ ss', ofTokens tokens lines = .ok ss' ∧ ss'.map Node.unplaced = ss.map Node.unplaced := by
  have hread : ofTokens ts lines = .ok ss :=
    ofTokens_of_derives (hderives.grammatical.beforeEnd_eq.symm ▸ hderives) lines
  rcases ofTokens_agrees hlexical hwords.symm lines lines with
    ⟨ss₁, ss', hok, hok', hsame⟩ | ⟨p, -, herror, -⟩
  · rw [hread] at hok
    cases hok
    have hderives' := program_of_ofTokens (lexical_of_words hlexical hwords) hok'
    have hend : beforeEnd (beforeEnd tokens) = beforeEnd tokens := List.takeWhile_idem
    rw [hend] at hderives'
    exact ⟨ss', ofTokens_of_derives hderives' lines, hsame.symm⟩
  · rw [hread] at herror
    cases herror

end Grammar

/-- **A written tree is read back**, and redundant parentheses change nothing. -/
theorem written_reparsed (float : List Nat → Float → String) {ss : List Node}
    (hshape : ∀ s ∈ ss, s.Regular) (hwritable : ∀ n ∈ Node.partsAll ss, n.Writable float) :
    ∃ ss₀, ∀ pairs : List Nat → Nat,
      AllWellFormed (Node.programTokens ⟨float, pairs⟩ [] ss) ∧
      ∀ tokens lines,
        (beforeEnd tokens).map Token.word =
          (Node.programTokens ⟨float, pairs⟩ [] ss).map Token.word →
        ∃ ss', ofTokens tokens lines = .ok ss' ∧ Node.sameAll ss ss' = true ∧
          ss'.map Node.unplaced = ss₀ := by
  obtain ⟨ss₀, hsame, hderives⟩ := Node.exists_derived_program (fun s hs way => by
    obtain ⟨s₀, hsame, hderives, -⟩ :=
      (hshape s hs).exists_derived (Node.forall_partsAll.1 hwritable s hs) way
    exact ⟨s₀, hsame, hderives⟩) []
  refine ⟨ss₀.map Node.unplaced, fun pairs => ?_⟩
  have hwellFormed : AllWellFormed (Node.programTokens ⟨float, pairs⟩ [] ss) :=
    Node.wellFormed_programTokens hshape hwritable []
  refine ⟨hwellFormed, fun tokens lines hwords => ?_⟩
  obtain ⟨ss', hok, heq⟩ := ofTokens_of_words (fun t ht => .inl (hwellFormed t ht))
    (hderives pairs) hwords lines
  exact ⟨ss', hok, (Node.sameAll_of_unplaced heq).trans hsame, heq⟩

namespace Node

/-- `int x=9-(x-2); for(x=0;x<1.5;x=(x+1.5)*(x/x)){while(x){return;}}
if(x*x==(x!=x)){return "a b";}else{if(x){}}` as a tree. -/
def groupedProgram : List Node :=
  let x := Node.var "x" none
  [.assign "x" (.binary (.int 9 none) .sub (.binary x .sub (.int 2 none) none) none) (some .int)
      none,
    .forLoop (.assign "x" (.int 0 none) none none) (.binary x .lt (.float 1.5 none) none)
      (.assign "x" (.binary (.binary x .add (.float 1.5 none) none) .mul (.binary x .div x none)
        none) none none)
      (.block [.whileLoop x (.block [.ret none] none) none] none) none,
    .ifElse (.binary (.binary x .mul x none) .eq (.binary x .ne x none) none)
      (.block [.retValue (.string "a b" none) none] none)
      (.block [.ifThen x (.block [] none) none] none) none]

theorem groupedProgram_regular : ∀ s ∈ groupedProgram, s.Regular := by
  have hint : ∀ {value : Int}, value.natAbs < 10 → (Node.int value none).RegularExpression := by
    intro value h
    have hlimit : Literal.digitLimit ≠ 0 := by decide
    refine .int (Literal.hasText_iff.2 ?_)
    generalize Literal.digitLimit = limit at hlimit ⊢
    exact h.trans_le (Nat.le_self_pow hlimit 10)
  have hnil : ∀ s ∈ ([] : List Node), s.Regular := fun _ hs => absurd hs List.not_mem_nil
  simp only [groupedProgram, List.forall_mem_cons]
  refine ⟨.assign (.binary (hint (by decide)) (.binary .var (hint (by decide)))), ?_, ?_, hnil⟩
  · refine .forLoop rfl (.assign (hint (by decide))) (.binary .var .float) rfl
      (.assign (.binary (.binary .var .float) (.binary .var .var))) rfl
      (.block (List.forall_mem_singleton.2 (.whileLoop .var rfl ?_)))
    exact .block (List.forall_mem_singleton.2 .ret)
  · exact .ifElse (.binary (.binary .var .var) (.binary .var .var)) rfl
      (.block (List.forall_mem_singleton.2 (.retValue .string))) rfl
      (.block (List.forall_mem_singleton.2 (.ifThen .var rfl (.block hnil))))

/-- The float is written in two ways. Each expression is in as many parentheses as it is deep. -/
def groupedManner : Manner where
  float way _ := if way.length = 4 then "1.5" else "01.50"
  pairs := List.length

theorem groupedProgram_writable :
    ∀ n ∈ partsAll groupedProgram, n.Writable groupedManner.float := by
  have hname : Token.Spelling .identifier "x".toList := @Token.spelling_word 'x' [] rfl rfl
  have hfloat : ∀ way, Token.Spelling .floatLiteral (groupedManner.float way 1.5).toList ∧
      ∃ x, Literal.readFloat? (groupedManner.float way 1.5).toList = some x ∧
        ((1.5 : Float) == x) = true := by
    intro way
    unfold groupedManner
    dsimp only
    split
    · refine ⟨@Token.Spelling.float ['1'] ['5'] (by decide) ?_ ?_, _, rfl, by decide +kernel⟩
      · exact List.all_eq_true.1 rfl
      · exact List.all_eq_true.1 rfl
    · refine ⟨@Token.Spelling.float ['0', '1'] ['5', '0'] (by decide) ?_ ?_, _, rfl,
        by decide +kernel⟩
      · exact List.all_eq_true.1 rfl
      · exact List.all_eq_true.1 rfl
  have hleaves := And.intro hname (And.intro hfloat (And.intro hname (And.intro hfloat hname)))
  simpa [groupedProgram, partsAll, parts, Writable, Operator.known] using hleaves

theorem groupedProgram_reparsed :
    (∀ s ∈ groupedProgram, s.Regular) ∧
      (∀ n ∈ partsAll groupedProgram, n.Writable groupedManner.float) ∧
      ∃ ss', ofTokens (programTokens groupedManner [] groupedProgram) [] = .ok ss' ∧
        sameAll groupedProgram ss' = true := by
  obtain ⟨ss₀, hread⟩ :=
    written_reparsed groupedManner.float groupedProgram_regular groupedProgram_writable
  obtain ⟨ss', hok, hsame, -⟩ := (hread groupedManner.pairs).2
    (programTokens groupedManner [] groupedProgram) [] (by decide +kernel)
  exact ⟨groupedProgram_regular, groupedProgram_writable, ss', hok, hsame⟩

end Node

end ThreeAddress
