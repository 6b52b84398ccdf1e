import ThreeAddress.Proofs.Tree.Parts
import ThreeAddress.Proofs.Typing.Judgement

/-!
# The typing rule

When a program is well typed, said about the whole program and one table, without a walk that builds
the table.

* `Occurrence`: a variable is used or declared; `Node.occurrences` lists the occurrences in the
  order of the walk.
* `Node.typeUnder`: the type of an expression under a table.
* `Typing.Sound`: one node is well typed under a table, if its parts are.
* `Typing.Obeys`: the rule for a program and its table.
* `AgreeOn`: what a rule says about a node depends on the variables in it only.
-/

namespace ThreeAddress

/-! ## Occurrences -/

/-- What happens to a variable on a walk through a program: it is read or set, or it is declared. -/
inductive Occurrence where
  | use (name : String)
  | declare (name : String) (type : Ty)
  deriving DecidableEq, Repr

namespace Node

mutual

/-- The occurrences of variables in the order of the walk: the value of an assignment before its
target, and the step of a loop before its body. -/
def occurrences : Node → List Occurrence
  | assign name value declares _ =>
    value.occurrences ++ ((declares.map (Occurrence.declare name)).toList ++ [.use name])
  | binary left _ right _ => left.occurrences ++ right.occurrences
  | var name _ => [.use name]
  | ifThen condition thenBranch _ => condition.occurrences ++ thenBranch.occurrences
  | ifElse condition thenBranch elseBranch _ =>
    condition.occurrences ++ (thenBranch.occurrences ++ elseBranch.occurrences)
  | forLoop init condition update body _ =>
    init.occurrences ++ (condition.occurrences ++ (update.occurrences ++ body.occurrences))
  | whileLoop condition body _ => condition.occurrences ++ body.occurrences
  | retValue value _ => value.occurrences
  | block statements _ => occurrencesAll statements
  | _ => []

/-- The occurrences of variables in some trees. -/
def occurrencesAll : List Node → List Occurrence
  | [] => []
  | s :: ss => s.occurrences ++ occurrencesAll ss

end

theorem mem_occurrencesAll {ss : List Node} {o : Occurrence} :
    o ∈ occurrencesAll ss ↔ ∃ s ∈ ss, o ∈ s.occurrences := by
  induction ss with
  | nil => simp [occurrencesAll]
  | cons s ss ih => simp only [occurrencesAll, List.mem_append, ih, List.mem_cons, exists_eq_or_imp]

/-- What occurs in a part of a tree occurs in the tree. -/
theorem occurrences_subset {n m : Node} (h : m ∈ n.parts) : m.occurrences ⊆ n.occurrences := by
  induction n with
  | int | float | string | var | ret | bare =>
    exact List.mem_singleton.1 h ▸ fun _ ho => ho
  | assign _ _ _ _ ih =>
    rcases List.mem_cons.1 h with rfl | h
    · exact fun _ ho => ho
    · exact fun o ho => List.mem_append_left _ (ih h ho)
  | retValue _ _ ih =>
    rcases List.mem_cons.1 h with rfl | h
    · exact fun _ ho => ho
    · exact ih h
  | block ss l ih =>
    rcases List.mem_cons.1 h with rfl | h
    · exact fun _ ho => ho
    · obtain ⟨s, hs, hm⟩ := mem_partsAll.1 h
      exact fun o ho => mem_occurrencesAll.2 ⟨s, hs, ih s hs hm ho⟩
  | binary _ _ _ _ ih ih' | ifThen _ _ _ ih ih' | whileLoop _ _ _ ih ih' =>
    rcases List.mem_cons.1 h with rfl | h
    · exact fun _ ho => ho
    · exact fun o ho => List.mem_append.2 ((List.mem_append.1 h).imp (ih · ho) (ih' · ho))
  | ifElse _ _ _ _ ihc iht ihe =>
    simp only [parts, List.mem_cons, List.mem_append] at h
    rcases h with rfl | h
    · exact fun _ ho => ho
    · intro o ho
      simp only [occurrences, List.mem_append]
      exact h.imp (ihc · ho) (.imp (iht · ho) (ihe · ho))
  | forLoop _ _ _ _ _ ihi ihc ihu ihb =>
    simp only [parts, List.mem_cons, List.mem_append] at h
    rcases h with rfl | h
    · exact fun _ ho => ho
    · intro o ho
      simp only [occurrences, List.mem_append]
      exact h.imp (ihi · ho) (.imp (ihc · ho) (.imp (ihu · ho) (ihb · ho)))

/-- What an expression does with variables is to use them. -/
theorem IsExpression.use {e : Node} (he : e.IsExpression) :
    ∀ o ∈ e.occurrences, ∃ x, o = .use x := by
  induction he with
  | int | float | string => exact fun o ho => absurd ho List.not_mem_nil
  | var => exact List.forall_mem_singleton.2 ⟨_, rfl⟩
  | binary _ _ ihl ihr => exact List.forall_mem_append.2 ⟨ihl, ihr⟩

end Node

/-- The variables that are declared, with their types. -/
def declarations (occurrences : List Occurrence) : List (String × Ty) :=
  occurrences.filterMap fun
    | .declare name type => some (name, type)
    | .use _ => none

theorem declarations_append (os os' : List Occurrence) :
    declarations (os ++ os') = declarations os ++ declarations os' := List.filterMap_append

theorem mem_declarations {os : List Occurrence} {name : String} {type : Ty} :
    (name, type) ∈ declarations os ↔ .declare name type ∈ os := by
  induction os with
  | nil => simp [declarations]
  | cons o os ih => cases o <;> simp_all [declarations]

/-! ## Types -/

/-- The type of an expression whose variables have the types of a table. -/
def Node.typeUnder (G : String → Option Ty) : Node → Option Ty
  | int .. => some .int
  | float .. => some .float
  | string .. => some .string
  | var name _ => G name
  | binary left _ right _ =>
    some (if left.typeUnder G = some .int ∧ right.typeUnder G = some .int then .int else .float)
  | _ => none

/-- The expression is a number. -/
def Node.IsNumber (G : String → Option Ty) (e : Node) : Prop :=
  e.typeUnder G = some .int ∨ e.typeUnder G = some .float

theorem Node.isNumber_iff {G : String → Option Ty} {e : Node} :
    e.IsNumber G ↔ ∃ type, e.typeUnder G = some type ∧ (type = .int ∨ type = .float) := by
  constructor
  · rintro (h | h)
    · exact ⟨_, h, .inl rfl⟩
    · exact ⟨_, h, .inr rfl⟩
  · rintro ⟨_, h, rfl | rfl⟩
    · exact .inl h
    · exact .inr h

namespace Typing

/-- A node whose parts are well typed is itself well typed: operands and conditions are numbers, and
a value has the type of its target or is an integer that goes into a float. -/
def Sound (G : String → Option Ty) : Node → Prop
  | .assign name value _ _ => ∃ target type, G name = some target ∧
      value.typeUnder G = some type ∧ (type = target ∨ type = .int ∧ target = .float)
  | .binary left _ right _ => left.IsNumber G ∧ right.IsNumber G
  | .ifThen condition _ _ | .ifElse condition _ _ _ | .forLoop _ condition _ _ _
  | .whileLoop condition _ _ => condition.IsNumber G
  | _ => True

/-- The notice on an integer that goes into a float variable. -/
def widening? (G : String → Option Ty) : Node → Option Notice
  | .assign name value _ _ =>
    if G name = some .float ∧ value.typeUnder G = some .int then some (.widened name) else none
  | _ => none

/-- The notices on a program, in the order of the walk. -/
def widenings (G : String → Option Ty) (program : List Node) : List Notice :=
  (Node.partsAll program).filterMap (widening? G)

/-- **The typing rule.** -/
structure Obeys (G : String → Option Ty) (program : List Node) : Prop where
  /-- No variable is declared twice. -/
  once : ((declarations (Node.occurrencesAll program)).map Prod.fst).Nodup
  /-- The table has the declared variables with their types. -/
  table : ∀ name type,
    G name = some type ↔ (name, type) ∈ declarations (Node.occurrencesAll program)
  /-- A variable is used behind its declaration. -/
  ordered : ∀ before name after, Node.occurrencesAll program = before ++ .use name :: after →
    ∃ type, (name, type) ∈ declarations before
  /-- Under the table of the whole program all nodes are well typed. -/
  sound : ∀ n ∈ Node.partsAll program, Sound G n

end Typing

/-! ## Locality -/

section Locality

variable {G G' : String → Option Ty}

/-- Two tables have the same types for what is used. -/
def AgreeOn (os : List Occurrence) (G G' : String → Option Ty) : Prop :=
  ∀ name, .use name ∈ os → G name = G' name

theorem AgreeOn.subset {os os' : List Occurrence} (h : AgreeOn os G G') (hsub : os' ⊆ os) :
    AgreeOn os' G G' := fun name hname => h name (hsub hname)

theorem AgreeOn.append {os os' : List Occurrence} :
    AgreeOn (os ++ os') G G' ↔ AgreeOn os G G' ∧ AgreeOn os' G G' := by
  simp only [AgreeOn, List.mem_append, or_imp, forall_and]

/-- The type of an expression depends on the variables in it only. -/
theorem Node.typeUnder_congr {e : Node} (h : AgreeOn e.occurrences G G') :
    e.typeUnder G = e.typeUnder G' := by
  induction e with
  | var name l => exact h name (List.mem_singleton.2 rfl)
  | binary left op right l ihl ihr =>
    rw [occurrences, AgreeOn.append] at h
    rw [typeUnder, typeUnder, ihl h.1, ihr h.2]
  | int | float | string | assign | ifThen | ifElse | forLoop | whileLoop | ret | retValue | block
  | bare => rfl

theorem Node.isNumber_congr {e : Node} (h : AgreeOn e.occurrences G G') :
    e.IsNumber G ↔ e.IsNumber G' := by
  rw [IsNumber, IsNumber, typeUnder_congr h]

theorem Typing.sound_congr {n : Node} (h : AgreeOn n.occurrences G G') :
    Sound G n ↔ Sound G' n := by
  cases n with
  | assign name value declares l =>
    rw [Node.occurrences, AgreeOn.append, AgreeOn.append] at h
    rw [Sound, Sound, Node.typeUnder_congr h.1, h.2.2 name (List.mem_singleton.2 rfl)]
  | binary left op right l =>
    rw [Node.occurrences, AgreeOn.append] at h
    rw [Sound, Sound, Node.isNumber_congr h.1, Node.isNumber_congr h.2]
  | ifThen | ifElse | whileLoop =>
    rw [Node.occurrences, AgreeOn.append] at h
    exact Node.isNumber_congr h.1
  | forLoop =>
    rw [Node.occurrences, AgreeOn.append, AgreeOn.append] at h
    exact Node.isNumber_congr h.2.1
  | int | float | string | var | ret | retValue | block | bare => exact Iff.rfl

end Locality

end ThreeAddress
