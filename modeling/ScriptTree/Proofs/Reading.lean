import ScriptTree.Grammar.Declaration
import ScriptTree.Proofs.Running

/-!
# Reading without mistakes

A parse in which nothing goes wrong does not depend on offsets, skipped tokens, limits or earlier
reports.  A `Reading` is what is left of its state: the significant tokens ahead and the trees of
the frame.  `Script.Reads` says which readings a script leads to if it never complains; a lenient
one may warn.

Each step of a grammar has a `@[simp]` lemma here, so that `simp` turns the script of a rule into
what it demands of the tokens ahead (`Fragment.reads_bump`, `Fragment.reads_require`, …).

## Key results

- `Rule.parses_iff`: a rule reads what its script reads
- `Rule.Parses.induct`: what every script keeps if its calls do, every rule keeps
-/

namespace ScriptTree

/-- The significant tokens ahead, and the trees of the frame. -/
structure Reading where
  input : List (Kind × String)
  frame : List Tree

/-- The current token, which is of kind `k`, moves from the input to the frame. -/
def Reading.Eats (k : Kind) (x y : Reading) : Prop :=
  ∃ text, x.input = (k, text) :: y.input ∧ y.frame = x.frame ++ [.leaf k text]

/-- The kind of the `n`-th token, or `error` past the end. -/
def kindAt (input : List (Kind × String)) (n : Nat) : Kind := (input[n]?.map (·.1)).getD .error

/-- The text of the first token. -/
def frontText (input : List (Kind × String)) : String := (input.head?.map (·.2)).getD ""

section

variable {k : Kind} {text : String} {p : Kind × String} {rest : List (Kind × String)} {n : Nat}

@[simp] theorem kindAt_nil : kindAt [] n = .error := by simp [kindAt]

@[simp] theorem kindAt_cons_zero : kindAt ((k, text) :: rest) 0 = k := by simp [kindAt]

@[simp] theorem kindAt_cons_succ : kindAt (p :: rest) (n + 1) = kindAt rest n := by simp [kindAt]

/-- Within some labels, the kind ahead does not depend on those behind them. -/
theorem kindAt_append {labels : List (Kind × String)} (h : n < labels.length) :
    kindAt (labels ++ rest) n = kindAt labels n := by
  simp [kindAt, List.getElem?_append_left h]

/-- At the end of the input nothing can be eaten. -/
@[simp] theorem eats_nil {frame : List Tree} {y : Reading} :
    (⟨[], frame⟩ : Reading).Eats k y ↔ False := by
  simp [Reading.Eats]

/-- The first label is eaten if it is of the kind, and becomes a leaf. -/
@[simp] theorem eats_cons {j : Kind} {frame : List Tree} {y : Reading} :
    (⟨(j, text) :: rest, frame⟩ : Reading).Eats k y ↔
      j = k ∧ y = ⟨rest, frame ++ [Tree.leaf j text]⟩ := by
  constructor
  · intro h
    obtain ⟨text', hinput, hframe⟩ := h
    obtain ⟨hlabel, hrest⟩ := List.cons.inj hinput
    cases hlabel
    exact ⟨rfl, by cases y; simp_all⟩
  · intro h
    obtain ⟨rfl, rfl⟩ := h
    exact ⟨text, rfl, rfl⟩

/-- What is eaten was there. -/
theorem Reading.Eats.kindAt_eq {x y : Reading} (h : x.Eats k y) : kindAt x.input 0 = k := by
  obtain ⟨text, hinput, -⟩ := h
  rw [hinput, kindAt_cons_zero]

/-- What was second is first after something was eaten. -/
theorem Reading.Eats.kindAt_succ {x y : Reading} (h : x.Eats k y) :
    kindAt x.input (n + 1) = kindAt y.input n := by
  obtain ⟨text, hinput, -⟩ := h
  rw [hinput, kindAt_cons_succ]

/-- What is not there cannot be eaten. -/
theorem Reading.eats_of_ne {x y : Reading} (h : kindAt x.input 0 ≠ k) : x.Eats k y ↔ False := by
  constructor
  · intro heats
    exact h heats.kindAt_eq
  · exact False.elim

/-- That a kind can be eaten says that it is there. -/
theorem Reading.kindAt_and_eats_iff {x y : Reading} :
    kindAt x.input 0 = k ∧ x.Eats k y ↔ x.Eats k y := by
  constructor
  · intro h
    exact h.2
  · intro h
    exact ⟨h.kindAt_eq, h⟩

/-- What is entered or demanded is there. -/
theorem Reading.enclosed_iff {x x' : Reading} {P : Reading → Prop} :
    (if kindAt x.input 0 = k then ∃ y, x.Eats (kindAt x.input 0) y ∧ P y else x.Eats k x') ↔
      ∃ y, x.Eats k y ∧ P y := by
  by_cases hk : kindAt x.input 0 = k <;> simp [hk, eats_of_ne]

@[simp] theorem frontText_cons : frontText ((k, text) :: rest) = text := by simp [frontText]

end

/-! ## Steps -/

/-- Where a reading may lead to. -/
abbrev Step := Reading → Reading → Prop

namespace Step

/-- Is the current token of a kind? -/
def isAt (k : Kind) (input : List (Kind × String)) : Bool := kindAt input 0 == k

/-- Is the kind of the current token in a set? -/
def isAtAny (set : TokenSet) (input : List (Kind × String)) : Bool :=
  set.contains (kindAt input 0)

/-- The current token is eaten. -/
def any : Step := fun x y => x.Eats (kindAt x.input 0) y

/-- A token of a kind is eaten. -/
def token (k : Kind) : Step := Reading.Eats k

/-- A token of a set is eaten. -/
def tokens (set : TokenSet) : Step := fun x y => isAtAny set x.input = true ∧ any x y

/-- Steps one after the other. -/
def row : List Step → Step
  | [] => fun x y => y = x
  | step :: steps => fun x z => ∃ y, step x y ∧ row steps y z

/-- One step or another, depending on the tokens ahead. -/
def branch (c : List (Kind × String) → Bool) (step other : Step) : Step := fun x y =>
  if c x.input then step x y else other x y

/-- A step that is taken if the current token is of a kind. -/
def may (k : Kind) (step : Step) : Step := branch (isAt k) step (row [])

/-- A token that is eaten if it is there. -/
def mayToken (k : Kind) : Step := may k (token k)

/-- A step that can only be taken if the tokens ahead allow it. -/
def guarded (c : List (Kind × String) → Bool) (step : Step) : Step := fun x y =>
  c x.input = true ∧ step x y

/-- A step that makes the children of a node. -/
def node (k : Kind) (step : Step) : Step := fun x x' =>
  ∃ y, step ⟨x.input, []⟩ y ∧ x' = ⟨y.input, x.frame ++ [.node k y.frame]⟩

/-- A step with a frame of its own. -/
def group (step : Step) : Step := fun x x' =>
  ∃ y, step ⟨x.input, []⟩ y ∧ x' = ⟨y.input, x.frame ++ y.frame⟩

/-- A step after which the whole frame makes up a node. -/
def wrap (k : Kind) (step : Step) : Step := fun x x' =>
  ∃ y, step x y ∧ x' = ⟨y.input, [.node k y.frame]⟩

/-- The test for a kind tells whether it is there. -/
@[simp] theorem isAt_iff {k : Kind} {input : List (Kind × String)} :
    isAt k input = true ↔ kindAt input 0 = k := by
  simp [isAt]

variable {c : List (Kind × String) → Bool} {steps : List Step} {other : Step}

@[simp] theorem row_nil {x y : Reading} : row [] x y ↔ y = x := Iff.rfl

/-- A row of steps is the first step and then the row of the others. -/
@[simp] theorem row_cons {step : Step} {x z : Reading} :
    row (step :: steps) x z ↔ ∃ y, step x y ∧ row steps y z := Iff.rfl

/-- A step need only be right where it is taken. -/
private theorem branch_congr {step step' : Step}
    (h : ∀ x y, c x.input = true → (step x y ↔ step' x y)) :
    branch c step other = branch c step' other := by
  funext x y
  by_cases hc : c x.input = true
  · simp [branch, hc, h x y hc]
  · simp [branch, hc]

/-- To eat any token is to eat the one that is there. -/
private theorem any_iff_token {k : Kind} {x y : Reading} (hk : kindAt x.input 0 = k) :
    any x y ↔ token k x y := by
  rw [any, token, hk]

/-- Two rows of steps are one. -/
theorem row_append_iff {others : List Step} {x z : Reading} :
    row (steps ++ others) x z ↔ ∃ y, row steps x y ∧ row others y z := by
  induction steps generalizing x with
  | nil => simp
  | cons step steps ih =>
    simp only [List.cons_append, row_cons, ih]
    constructor
    · intro h
      obtain ⟨y, hstep, w, hsteps, h⟩ := h
      exact ⟨w, ⟨y, hstep, hsteps⟩, h⟩
    · intro h
      obtain ⟨w, ⟨y, hstep, hsteps⟩, h⟩ := h
      exact ⟨y, hstep, w, hsteps, h⟩

/-- What follows a step that may be left out follows it in either case. -/
theorem row_may_iff {k : Kind} {step : Step} {x z : Reading} :
    row (may k step :: steps) x z ↔
      if kindAt x.input 0 = k then ∃ y, step x y ∧ row steps y z else row steps x z := by
  by_cases hk : kindAt x.input 0 = k <;> simp [may, branch, hk]

/-- A row that may be left out is part of the row around it, by what is there. -/
theorem row_may_row_iff {k : Kind} {others : List Step} {x z : Reading} :
    row (may k (row others) :: steps) x z ↔
      if kindAt x.input 0 = k then row (others ++ steps) x z else row steps x z := by
  rw [row_may_iff, row_append_iff]

/-- A guard in a row is a condition on the input. -/
theorem row_guarded_iff {step : Step} {x z : Reading} :
    row (guarded c step :: steps) x z ↔ c x.input = true ∧ row (step :: steps) x z := by
  simp [guarded, and_assoc]

/-- What follows a node has the node in its frame. -/
theorem exists_node_iff {k : Kind} {step : Step} {x : Reading} {P : Reading → Prop} :
    (∃ y, node k step x y ∧ P y) ↔
      ∃ y, step ⟨x.input, []⟩ y ∧ P ⟨y.input, x.frame ++ [Tree.node k y.frame]⟩ := by
  constructor
  · intro h
    obtain ⟨-, ⟨y, hstep, rfl⟩, h⟩ := h
    exact ⟨y, hstep, h⟩
  · intro h
    obtain ⟨y, hstep, h⟩ := h
    exact ⟨_, ⟨y, hstep, rfl⟩, h⟩

/-- A node in a row is made in an empty frame, and put behind what was there. -/
theorem row_node_iff {k : Kind} {step : Step} {x z : Reading} :
    row (node k step :: steps) x z ↔
      ∃ y, step ⟨x.input, []⟩ y ∧ row steps ⟨y.input, x.frame ++ [Tree.node k y.frame]⟩ z :=
  exists_node_iff

/-- What follows a node that may be left out follows it in either case. -/
theorem row_may_node_iff {k j : Kind} {step : Step} {x z : Reading} :
    row (may k (node j step) :: steps) x z ↔
      if kindAt x.input 0 = k then
        ∃ y, step ⟨x.input, []⟩ y ∧ row steps ⟨y.input, x.frame ++ [Tree.node j y.frame]⟩ z
      else row steps x z := by
  rw [row_may_iff, ← row_node_iff, row_cons]

/-- Behind a test for a kind, any token is one of the kind. -/
theorem may_node_any (k j : Kind) (steps : List Step) :
    may k (node j (row (any :: steps))) = may k (node j (row (token k :: steps))) := by
  apply branch_congr
  intro x y hk
  have hk : kindAt (⟨x.input, []⟩ : Reading).input 0 = k := isAt_iff.mp hk
  simp [node, any_iff_token hk]

/-- Behind a test for a kind, any token is one of the kind. -/
theorem may_wrap_any (k j : Kind) (steps : List Step) :
    may k (wrap j (row (any :: steps))) = may k (wrap j (row (token k :: steps))) := by
  apply branch_congr
  intro x y hk
  simp [wrap, any_iff_token (isAt_iff.mp hk)]

/-- Behind a test for a set, any token is one of the set. -/
theorem branch_wrap_any (set : TokenSet) (j : Kind) (steps : List Step) :
    branch (isAtAny set) (wrap j (row (any :: steps))) other =
      branch (isAtAny set) (wrap j (row (tokens set :: steps))) other := by
  apply branch_congr
  intro x y hk
  simp [wrap, any, tokens, hk]

end Step

/-! ## Scripts -/

/-- Where the rules lead to: for each of them, the readings before and after it and its answer. -/
abbrev Calls := Rule → Reading → Bool → Reading → Prop

/-- Where a rule leads to, whatever its answer. -/
def Calls.To (calls : Calls) (rule : Rule) (x x' : Reading) : Prop := ∃ a, calls rule x a x'

/-- What a script reads without mistakes; `calls` says what the rules do.  Only a `lenient` reading
    gets over a warning. -/
@[simp] def Script.Reads (lenient : Bool) (calls : Calls) : Script → Reading → Bool → Reading → Prop
  | .done answer, x, a, x' => a = answer ∧ x' = x
  | .fail _, _, _, _ => False
  | .look n next, x, a, x' => (next (kindAt x.input n)).Reads lenient calls x a x'
  | .text next, x, a, x' => (next (frontText x.input)).Reads lenient calls x a x'
  | .stopped next, x, a, x' => (next x.input.isEmpty).Reads lenient calls x a x'
  | .exhausted next, x, a, x' => (next false).Reads lenient calls x a x'
  | .bump next, x, a, x' => ∃ k y, x.Eats k y ∧ next.Reads lenient calls y a x'
  | .flush next, x, a, x' => next.Reads lenient calls x a x'
  -- A complaint is always an error, and a reading without mistakes makes none.
  | .complain _ _, _, _, _ => False
  | .remark problem next, x, a, x' =>
    lenient = true ∧ problem.severity = .warning ∧ next.Reads lenient calls x a x'
  | .node k body next, x, a, x' =>
    ∃ b y, body.Reads lenient calls ⟨x.input, []⟩ b y ∧
      next.Reads lenient calls ⟨y.input, x.frame ++ [.node k y.frame]⟩ a x'
  | .group body next, x, a, x' =>
    ∃ b y, body.Reads lenient calls ⟨x.input, []⟩ b y ∧
      next.Reads lenient calls ⟨y.input, x.frame ++ y.frame⟩ a x'
  | .wrap k body next, x, a, x' =>
    ∃ b y, body.Reads lenient calls x b y ∧
      next.Reads lenient calls ⟨y.input, [.node k y.frame]⟩ a x'
  -- The nesting is not counted here: a reading goes as deep as it has to.
  | .deeper body next, x, a, x' =>
    ∃ b y, body.Reads lenient calls x b y ∧ (next true).Reads lenient calls y a x'
  | .enclosed d _ ifEmpty body next, x, a, x' =>
    ∃ k y, x.Eats k y ∧ ∃ b z, body.Reads lenient calls y b z ∧
      (ifEmpty.isSome = true → b = true) ∧
      ∃ w, z.Eats d.closer w ∧ next.Reads lenient calls w a x'
  | .call rule next, x, a, x' =>
    ∃ b y, calls rule x b y ∧ (next b).Reads lenient calls y a x'

namespace Fragment

variable {α β : Type} {lenient : Bool} {calls : Calls} {x x' : Reading} {a : Bool}

/-! ## Steps -/

/-- A script that is done answers and leads nowhere else. -/
@[simp] theorem reads_done {answer : Bool} :
    (Script.done answer).Reads lenient calls x a x' ↔ a = answer ∧ x' = x := Iff.rfl

/-- Fragments in sequence are read in sequence. -/
@[simp] theorem reads_bind (m : Fragment α) (f : α → Fragment β) (next : β → Script) :
    ((m >>= f) next).Reads lenient calls x a x' ↔
      (m fun v => f v next).Reads lenient calls x a x' := Iff.rfl

/-- Handing on a value reads nothing. -/
@[simp] theorem reads_pure (v : α) (next : α → Script) :
    ((pure v : Fragment α) next).Reads lenient calls x a x' ↔
      (next v).Reads lenient calls x a x' := Iff.rfl

/-- The branch that is taken is read. -/
@[simp] theorem reads_ite (c : Prop) [Decidable c] (m n : Fragment α) (next : α → Script) :
    ((if c then m else n) next).Reads lenient calls x a x' ↔
      if c then (m next).Reads lenient calls x a x' else (n next).Reads lenient calls x a x' := by
  split <;> rfl

/-- The kind ahead is that of the input. -/
@[simp] theorem reads_ahead (n : Nat) (next : Kind → Script) :
    (ahead n next).Reads lenient calls x a x' ↔
      (next (kindAt x.input n)).Reads lenient calls x a x' := Iff.rfl

/-- The current kind is that of the input. -/
@[simp] theorem reads_current (next : Kind → Script) :
    (current next).Reads lenient calls x a x' ↔
      (next (kindAt x.input 0)).Reads lenient calls x a x' := Iff.rfl

/-- The current text is that of the input. -/
@[simp] theorem reads_currentText (next : String → Script) :
    (currentText next).Reads lenient calls x a x' ↔
      (next (frontText x.input)).Reads lenient calls x a x' := Iff.rfl

/-- A parse that was not cut short stops at the end of the input. -/
@[simp] theorem reads_stopped (next : Bool → Script) :
    (stopped next).Reads lenient calls x a x' ↔
      (next x.input.isEmpty).Reads lenient calls x a x' := Iff.rfl

/-- Nothing runs out where nothing is complained about. -/
@[simp] theorem reads_exhausted (next : Bool → Script) :
    (exhausted next).Reads lenient calls x a x' ↔ (next false).Reads lenient calls x a x' :=
  Iff.rfl

/-- The current token is eaten. -/
@[simp] theorem reads_bump (next : Unit → Script) :
    (bump next).Reads lenient calls x a x' ↔
      ∃ y, x.Eats (kindAt x.input 0) y ∧ (next ()).Reads lenient calls y a x' := by
  simp only [bump, Script.Reads]
  constructor
  · intro h
    obtain ⟨k, y, heats, h⟩ := h
    exact ⟨y, by rwa [heats.kindAt_eq], h⟩
  · intro h
    obtain ⟨y, heats, h⟩ := h
    exact ⟨_, y, heats, h⟩

/-- The tokens that the grammar skips are no part of a reading. -/
@[simp] theorem reads_flush (next : Unit → Script) :
    (flush next).Reads lenient calls x a x' ↔ (next ()).Reads lenient calls x a x' := Iff.rfl

/-- What never complains does not get past a complaint. -/
@[simp] theorem reads_complain (problem : Problem) (detail expected : Option String)
    (next : Unit → Script) :
    (complain problem detail expected next).Reads lenient calls x a x' ↔ False := Iff.rfl

/-- What never complains does not get past a complaint. -/
@[simp] theorem reads_missing (problem : Problem) (what : String) (next : Unit → Script) :
    (missing problem what next).Reads lenient calls x a x' ↔ False := Iff.rfl

/-- A lenient reading gets past a warning, and others do not. -/
@[simp] theorem reads_remark (problem : Problem) (next : Unit → Script) :
    (remark problem next).Reads lenient calls x a x' ↔
      lenient = true ∧ problem.severity = .warning ∧ (next ()).Reads lenient calls x a x' :=
  Iff.rfl

/-- A node is made of what its body adds to an empty frame. -/
@[simp] theorem reads_node (k : Kind) (body : Fragment Unit) (next : Unit → Script) :
    (node k body next).Reads lenient calls x a x' ↔
      ∃ b y, body.unit.Reads lenient calls ⟨x.input, []⟩ b y ∧
        (next ()).Reads lenient calls ⟨y.input, x.frame ++ [Tree.node k y.frame]⟩ a x' := Iff.rfl

/-- What the group adds to an empty frame is put behind what was there. -/
@[simp] theorem reads_group (body : Fragment Unit) (next : Unit → Script) :
    (group body next).Reads lenient calls x a x' ↔
      ∃ b y, body.unit.Reads lenient calls ⟨x.input, []⟩ b y ∧
        (next ()).Reads lenient calls ⟨y.input, x.frame ++ y.frame⟩ a x' := Iff.rfl

/-- The new node takes all that is in the frame. -/
@[simp] theorem reads_wrap (k : Kind) (body : Fragment Unit) (next : Unit → Script) :
    (wrap k body next).Reads lenient calls x a x' ↔
      ∃ b y, body.unit.Reads lenient calls x b y ∧
        (next ()).Reads lenient calls ⟨y.input, [.node k y.frame]⟩ a x' := Iff.rfl

/-- No level is refused. -/
@[simp] theorem reads_deeper (body : Fragment Unit) (next : Bool → Script) :
    (deeper body next).Reads lenient calls x a x' ↔
      ∃ b y, body.unit.Reads lenient calls x b y ∧ (next true).Reads lenient calls y a x' :=
  Iff.rfl

/-- The opener is eaten, the body read, and the closer eaten. -/
@[simp] theorem reads_enclosed (d : Delimiter) (construct : String) (body : Fragment Unit)
    (next : Unit → Script) :
    (enclosed d construct body next).Reads lenient calls x a x' ↔
      ∃ y, x.Eats (kindAt x.input 0) y ∧ ∃ b z, body.unit.Reads lenient calls y b z ∧
        ∃ w, z.Eats d.closer w ∧ (next ()).Reads lenient calls w a x' := by
  simp only [enclosed, Script.Reads]
  constructor
  · intro h
    obtain ⟨k, y, heats, b, z, hbody, -, h⟩ := h
    exact ⟨y, by rwa [heats.kindAt_eq], b, z, hbody, h⟩
  · intro h
    obtain ⟨y, heats, b, z, hbody, h⟩ := h
    exact ⟨_, y, heats, b, z, hbody, by simp, h⟩

/-- As `reads_enclosed`, and a body that answers that it is empty would be complained about. -/
@[simp] theorem reads_enclosedNonempty (d : Delimiter) (construct : String) (ifEmpty : Problem)
    (body : Fragment Bool) (next : Unit → Script) :
    (enclosedNonempty d construct ifEmpty body next).Reads lenient calls x a x' ↔
      ∃ y, x.Eats (kindAt x.input 0) y ∧ ∃ z, body.script.Reads lenient calls y true z ∧
        ∃ w, z.Eats d.closer w ∧ (next ()).Reads lenient calls w a x' := by
  simp only [enclosedNonempty, Script.Reads]
  constructor
  · intro h
    obtain ⟨k, y, heats, b, z, hbody, hanswer, h⟩ := h
    obtain rfl := hanswer rfl
    exact ⟨y, by rwa [heats.kindAt_eq], z, hbody, h⟩
  · intro h
    obtain ⟨y, heats, z, hbody, h⟩ := h
    exact ⟨_, y, heats, true, z, hbody, by simp, h⟩

/-- A rule leads to where its call leads, with an answer. -/
@[simp] theorem reads_ask (rule : Rule) (next : Bool → Script) :
    (ask rule next).Reads lenient calls x a x' ↔
      ∃ b y, calls rule x b y ∧ (next b).Reads lenient calls y a x' := Iff.rfl

/-- A rule leads to where its call leads, whatever the answer. -/
@[simp] theorem reads_call (rule : Rule) (next : Unit → Script) :
    (call rule next).Reads lenient calls x a x' ↔
      ∃ y, calls.To rule x y ∧ (next ()).Reads lenient calls y a x' := by
  simp only [call, Script.Reads, Calls.To]
  constructor
  · intro h
    obtain ⟨b, y, hcall, h⟩ := h
    exact ⟨y, ⟨b, hcall⟩, h⟩
  · intro h
    obtain ⟨y, ⟨b, hcall⟩, h⟩ := h
    exact ⟨b, y, hcall, h⟩

/-! ## Combinations -/

/-- Whether the kind is there is told by the input. -/
@[simp] theorem reads_isAt (k : Kind) (next : Bool → Script) :
    (isAt k next).Reads lenient calls x a x' ↔
      (next (kindAt x.input 0 == k)).Reads lenient calls x a x' := Iff.rfl

/-- Whether a kind of the set is there is told by the input. -/
@[simp] theorem reads_isAtAny (set : TokenSet) (next : Bool → Script) :
    (isAtAny set next).Reads lenient calls x a x' ↔
      (next (set.contains (kindAt x.input 0))).Reads lenient calls x a x' := Iff.rfl

/-- A token of a kind that is there is eaten; `error` is no kind of a token. -/
@[simp] theorem reads_eat (k : Kind) (next : Bool → Script) :
    (eat k next).Reads lenient calls x a x' ↔
      if kindAt x.input 0 = k then ∃ y, x.Eats k y ∧ (next true).Reads lenient calls y a x'
      else (next false).Reads lenient calls x a x' := by
  by_cases h : kindAt x.input 0 = k <;> simp [eat, h]

/-- A token that may be missing is eaten if it is there. -/
@[simp] theorem reads_optionally (k : Kind) (next : Unit → Script) :
    (optionally k next).Reads lenient calls x a x' ↔
      ∃ y, Step.mayToken k x y ∧ (next ()).Reads lenient calls y a x' := by
  simp only [optionally, reads_bind, reads_eat, reads_pure, Step.mayToken, Step.may, Step.branch,
    Step.isAt_iff, Step.token, Step.row_nil]
  by_cases h : kindAt x.input 0 = k <;> simp [h]

/-- What a rule demands must be there. -/
theorem exists_eats_iff {k : Kind} {P : Reading → Prop} :
    (kindAt x.input 0 = k ∧ ∃ y, x.Eats k y ∧ P y) ↔ ∃ y, x.Eats k y ∧ P y := by
  constructor
  · intro h
    exact h.2
  · intro h
    obtain ⟨y, heats, h⟩ := h
    exact ⟨heats.kindAt_eq, y, heats, h⟩

/-- A token that is expected is there. -/
@[simp] theorem reads_expect (k : Kind) (what : String) (next : Bool → Script) :
    (expect k what next).Reads lenient calls x a x' ↔
      ∃ y, x.Eats k y ∧ (next true).Reads lenient calls y a x' := by
  simp [expect, exists_eats_iff]

/-- A token that is required is there. -/
@[simp] theorem reads_require (k : Kind) (what : String) (next : Unit → Script) :
    (require k what next).Reads lenient calls x a x' ↔
      ∃ y, x.Eats k y ∧ (next ()).Reads lenient calls y a x' := by
  simp [require]

/-- A name is there. -/
@[simp] theorem reads_identifier (what : String) (next : Unit → Script) :
    (identifier what next).Reads lenient calls x a x' ↔
      ∃ y, x.Eats .identifier y ∧ (next ()).Reads lenient calls y a x' := by
  simp [identifier, exists_eats_iff]

/-- A rule is entered only at its first token. -/
@[simp] theorem reads_entered (k : Kind) (next : Unit → Script) :
    (entered k next).Reads lenient calls x a x' ↔
      kindAt x.input 0 = k ∧ (next ()).Reads lenient calls x a x' := by
  unfold entered
  show (if kindAt x.input 0 = k then next () else .fail _ : Script).Reads lenient calls x a x' ↔ _
  split <;> simp_all [Script.Reads]

/-- What is set aside is a mistake. -/
@[simp] theorem reads_setAside (problem : Problem) (what : String) (stops : TokenSet)
    (rest : Fragment Unit) (next : Unit → Script) :
    (setAside problem what stops rest next).Reads lenient calls x a x' ↔ False := by
  simp [setAside, unit]

end Fragment

/-! ## Lookahead -/

/-- Does `{ name :` start here, without a second colon? -/
def startsRecord (input : List (Kind × String)) : Bool :=
  TokenSet.identifierNames.contains (kindAt input 1) && kindAt input 2 = .colon &&
    kindAt input 3 != .colon

/-- Does `( )` or `( name :` start here, without a second colon? -/
def startsFnLiteral (input : List (Kind × String)) : Bool :=
  kindAt input 1 = .rParen ||
    (kindAt input 1 = .identifier && kindAt input 2 = .colon && kindAt input 3 != .colon)

/-- Does `scalar [` start here? -/
def startsArray (input : List (Kind × String)) : Bool :=
  kindAt input 1 = .lBracket && scalarTypeNames.contains (frontText input)

/-- The accessor that starts here. -/
def accessorAt (input : List (Kind × String)) : Option Grammar.Accessor :=
  match kindAt input 0 with
  | .dot => some .field
  | .colon => if kindAt input 1 = .colon then some .static else none
  | .lBracket => some .index
  | .lParen => some .arguments
  | .exclMark => some .nonNull
  | _ => none

namespace Grammar

variable {lenient : Bool} {calls : Calls} {x x' : Reading} {a : Bool}

/-- The look at whether a record begins is decided by the tokens ahead. -/
@[simp] theorem reads_atRecordBody (next : Bool → Script) :
    (atRecordBody next).Reads lenient calls x a x' ↔
      (next (startsRecord x.input)).Reads lenient calls x a x' := by
  simp only [atRecordBody, startsRecord, Fragment.reads_bind, Fragment.reads_ahead,
    Fragment.reads_ite, Fragment.reads_pure]
  by_cases hname : TokenSet.identifierNames.contains (kindAt x.input 1) = true
  · by_cases hcolon : kindAt x.input 2 = .colon <;> simp [hname, hcolon]
  · simp [hname]

/-- The look at whether a function literal begins is decided by the tokens ahead. -/
@[simp] theorem reads_atFnLiteral (next : Bool → Script) :
    (atFnLiteral next).Reads lenient calls x a x' ↔
      (next (startsFnLiteral x.input)).Reads lenient calls x a x' := by
  simp only [atFnLiteral, startsFnLiteral, Fragment.reads_bind, Fragment.reads_ahead]
  generalize kindAt x.input 1 = k
  split
  · simp
  · by_cases hcolon : kindAt x.input 2 = .colon <;> simp [hcolon]
  · simp_all

/-- The look at which accessor comes is decided by the tokens ahead. -/
@[simp] theorem reads_accessorHere (next : Option Accessor → Script) :
    (accessorHere next).Reads lenient calls x a x' ↔
      (next (accessorAt x.input)).Reads lenient calls x a x' := by
  simp only [accessorHere, accessorAt, Fragment.reads_bind, Fragment.reads_current]
  generalize kindAt x.input 0 = k
  split <;> simp
  split <;> simp_all

/-- What begins with a name is an array, a record or a name, by the token behind it. -/
@[simp] theorem reads_namePrimary (next : Unit → Script) :
    (namePrimary next).Reads lenient calls x a x' ↔
      ((if startsArray x.input = true then
          Fragment.node .arrayLiteral do
            Fragment.bump
            delimited .array
        else if kindAt x.input 1 = .lCurly then
          Fragment.node .recordLiteral do
            Fragment.bump
            delimited .record
        else Fragment.node .nameRef Fragment.bump : Fragment Unit) next).Reads
          lenient calls x a x' := by
  by_cases hbracket : kindAt x.input 1 = .lBracket
  · have harray : startsArray x.input = scalarTypeNames.contains (frontText x.input) := by
      simp [startsArray, hbracket]
    simp only [namePrimary, harray, Fragment.reads_bind, Fragment.reads_ahead,
      Fragment.reads_currentText, Fragment.reads_ite, Fragment.reads_pure, if_pos hbracket]
  · have harray : startsArray x.input = false := by simp [startsArray, hbracket]
    simp only [namePrimary, harray, Fragment.reads_bind, Fragment.reads_ahead,
      Fragment.reads_ite, Fragment.reads_pure, if_neg hbracket]

/-- Any word may be the name of a member. -/
@[simp] theorem reads_memberName (after : String) (next : Unit → Script) :
    (memberName after next).Reads lenient calls x a x' ↔
      TokenSet.identifierNames.contains (kindAt x.input 0) = true ∧
        ∃ y, x.Eats (kindAt x.input 0) y ∧ (next ()).Reads lenient calls y a x' := by
  simp only [memberName, Fragment.reads_bind, Fragment.reads_isAtAny, Fragment.reads_ite,
    Fragment.reads_bump, Fragment.reads_missing]
  split <;> simp_all

/-- A variable has a name. -/
@[simp] theorem reads_missingVariable (next : Unit → Script) :
    (missingVariable next).Reads lenient calls x a x' ↔ False := by
  simp [missingVariable, Fragment.unit]

end Grammar

/-! ## Rules -/

variable {lenient : Bool} {calls calls' : Calls} {x x' : Reading} {a : Bool}

/-- The more the rules can do, the more a script can. -/
theorem Script.Reads.mono (hcalls : ∀ rule x a x', calls rule x a x' → calls' rule x a x')
    {script : Script} (h : script.Reads lenient calls x a x') :
    script.Reads lenient calls' x a x' := by
  -- Induction on the script.
  induction script generalizing x a x' with
  | done answer => exact h
  | fail fault => exact h
  | look n next ih => exact ih _ h
  | text next ih => exact ih _ h
  | stopped next ih => exact ih _ h
  | exhausted next ih => exact ih _ h
  | bump next ih =>
    obtain ⟨k, y, heats, h⟩ := h
    exact ⟨k, y, heats, ih h⟩
  | flush next ih => exact ih h
  | complain x next ih => exact h
  | remark problem next ih => exact ⟨h.1, h.2.1, ih h.2.2⟩
  | node k body next ihbody ihnext =>
    obtain ⟨b, y, hbody, h⟩ := h
    exact ⟨b, y, ihbody hbody, ihnext h⟩
  | group body next ihbody ihnext =>
    obtain ⟨b, y, hbody, h⟩ := h
    exact ⟨b, y, ihbody hbody, ihnext h⟩
  | wrap k body next ihbody ihnext =>
    obtain ⟨b, y, hbody, h⟩ := h
    exact ⟨b, y, ihbody hbody, ihnext h⟩
  | deeper body next ihbody ihnext =>
    obtain ⟨b, y, hbody, h⟩ := h
    exact ⟨b, y, ihbody hbody, ihnext _ h⟩
  | enclosed d construct ifEmpty body next ihbody ihnext =>
    obtain ⟨k, y, heats, b, z, hbody, hempty, w, heats', h⟩ := h
    exact ⟨k, y, heats, b, z, ihbody hbody, hempty, w, heats', ihnext h⟩
  | call rule next ih =>
    obtain ⟨b, y, hcall, h⟩ := h
    exact ⟨b, y, hcalls _ _ _ _ hcall, ih _ h⟩

namespace Rule

/-- What a rule reads without mistakes, with calls nested at most `budget` deep. -/
def Reads (lenient : Bool) : (budget : Nat) → Calls
  | 0, _, _, _, _ => False
  | budget + 1, rule, x, a, x' => rule.script.Reads lenient (Reads lenient budget) x a x'

/-- What a rule reads without mistakes. -/
def Parses (lenient : Bool) : Calls := fun rule x a x' => ∃ budget, Reads lenient budget rule x a x'

/-- What is read with few rounds of calls is read with more. -/
theorem Reads.mono {m n : Nat} (hmn : m ≤ n) {rule : Rule} (h : Reads lenient m rule x a x') :
    Reads lenient n rule x a x' := by
  induction m generalizing n rule x a x' with
  | zero => cases h
  | succ m ih =>
    obtain ⟨n, rfl⟩ : ∃ k, n = k + 1 := ⟨n - 1, by omega⟩
    exact Script.Reads.mono (fun _ _ _ _ => ih (by omega)) h

/-- One budget is enough for all calls of a script. -/
private theorem exists_budget {script : Script} (h : script.Reads lenient (Parses lenient) x a x') :
    ∃ budget, script.Reads lenient (Reads lenient budget) x a x' := by
  -- Budgets can be raised to the largest that any of the calls needs.
  have lift : ∀ {m n : Nat} (_ : m ≤ n) {script : Script} {x a x'},
      script.Reads lenient (Reads lenient m) x a x' →
        script.Reads lenient (Reads lenient n) x a x' := fun hmn _ _ _ _ h =>
    Script.Reads.mono (fun _ _ _ _ => Reads.mono hmn) h
  -- Induction on the script: with a body and a rest, the larger of the two budgets does.
  induction script generalizing x a x' with
  | done answer => exact ⟨0, h⟩
  | fail fault => cases h
  | look n next ih => exact ih _ h
  | text next ih => exact ih _ h
  | stopped next ih => exact ih _ h
  | exhausted next ih => exact ih _ h
  | bump next ih =>
    obtain ⟨k, y, heats, h⟩ := h
    obtain ⟨n, h⟩ := ih h
    exact ⟨n, k, y, heats, h⟩
  | flush next ih => exact ih h
  | complain x next ih => cases h
  | remark problem next ih =>
    obtain ⟨hlenient, hwarning, h⟩ := h
    obtain ⟨n, h⟩ := ih h
    exact ⟨n, hlenient, hwarning, h⟩
  | node k body next ihbody ihnext =>
    obtain ⟨b, y, hbody, h⟩ := h
    obtain ⟨m, hbody⟩ := ihbody hbody
    obtain ⟨n, h⟩ := ihnext h
    exact ⟨max m n, b, y, lift (by omega) hbody, lift (by omega) h⟩
  | group body next ihbody ihnext =>
    obtain ⟨b, y, hbody, h⟩ := h
    obtain ⟨m, hbody⟩ := ihbody hbody
    obtain ⟨n, h⟩ := ihnext h
    exact ⟨max m n, b, y, lift (by omega) hbody, lift (by omega) h⟩
  | wrap k body next ihbody ihnext =>
    obtain ⟨b, y, hbody, h⟩ := h
    obtain ⟨m, hbody⟩ := ihbody hbody
    obtain ⟨n, h⟩ := ihnext h
    exact ⟨max m n, b, y, lift (by omega) hbody, lift (by omega) h⟩
  | deeper body next ihbody ihnext =>
    obtain ⟨b, y, hbody, h⟩ := h
    obtain ⟨m, hbody⟩ := ihbody hbody
    obtain ⟨n, h⟩ := ihnext _ h
    exact ⟨max m n, b, y, lift (by omega) hbody, lift (by omega) h⟩
  | enclosed d construct ifEmpty body next ihbody ihnext =>
    obtain ⟨k, y, heats, b, z, hbody, hempty, w, heats', h⟩ := h
    obtain ⟨m, hbody⟩ := ihbody hbody
    obtain ⟨n, h⟩ := ihnext h
    exact ⟨max m n, k, y, heats, b, z, lift (by omega) hbody, hempty, w, heats',
      lift (by omega) h⟩
  -- The call has a budget of its own.
  | call rule next ih =>
    obtain ⟨b, y, ⟨m, hcall⟩, h⟩ := h
    obtain ⟨n, h⟩ := ih _ h
    exact ⟨max m n, b, y, Reads.mono (by omega) hcall, lift (by omega) h⟩

/-- A rule reads what its script reads. -/
theorem parses_iff {rule : Rule} :
    rule.Parses lenient x a x' ↔ rule.script.Reads lenient (Parses lenient) x a x' := by
  constructor
  · intro h
    obtain ⟨n, h⟩ := h
    cases n with
    | zero => cases h
    | succ n => exact Script.Reads.mono (fun _ _ _ _ h => ⟨n, h⟩) h
  · intro h
    obtain ⟨n, h⟩ := exists_budget h
    exact ⟨n + 1, h⟩

/-- What every script keeps as long as the rules it calls do, every rule keeps. -/
theorem Parses.induct {P : Calls}
    (hscript : ∀ rule x a x', rule.script.Reads lenient P x a x' → P rule x a x')
    {rule : Rule} (h : rule.Parses lenient x a x') : P rule x a x' := by
  obtain ⟨n, h⟩ := h
  induction n generalizing rule x a x' with
  | zero => cases h
  | succ n ih => exact hscript rule x a x' (Script.Reads.mono (fun _ _ _ _ => ih) h)

end Rule

end ScriptTree
