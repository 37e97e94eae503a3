import ScriptTree.Proofs.OpenNodes
import ScriptTree.Routine.Declaration

/-!
# Routines carry out the rules

A rule is a script that encloses what it opens; a routine opens and closes on its own.  On a builder
both do the same: each routine runs as the fragment of its rule does (`Fragment.RunsAs`), provided
that the routines and loops that it calls do what the rules do (`Callees.Carry`), and so, by
induction on the depth of calls, all of them do.

A loop that leaves nodes open is compared together with what closes them.  Where a rule nests, the
loop counts, and the nodes that `closeLevels` finishes one after the other are those that the
scripts finish on their way back.

## Key results

- `Script.build_node`, `Script.build_call`, …: each step of a script as an action
- `typeList_runsAs`, `expr_runsAs`, …: one for each function of the grammar
- `Callees.upTo_carry`: what can be called does what the rules do
- `Routine.run_eq`: a routine does what its script does
-/

namespace ScriptTree

/-! ## Actions -/

namespace Action

variable {α β : Type}

/-- What comes after a conditional comes after each of its branches. -/
@[simp] theorem ite_bind (p : Prop) [Decidable p] (x y : Action α) (f : α → Action β) :
    (if p then x else y) >>= f = if p then x >>= f else y >>= f := by
  split <;> rfl

/-- To ask for the place changes nothing. -/
@[simp] theorem place_bind (x : Action α) : (do let _ ← place; x) = x := rfl

/-- The token that is noted as an opener need not be looked up before. -/
@[simp] theorem currentSpan_pushDelimiter (d : Delimiter) (f : Unit → Action α) :
    (do let _ ← currentSpan; pushDelimiter d >>= f) = pushDelimiter d >>= f := by
  funext g b
  change (pushDelimiter d >>= f) g { b with toState := b.skip g } = _
  rw [bind_apply, bind_apply, pushDelimiter, onState, onState, State.skip_skip]

/-- A step on the state answers what it answers there. -/
theorem onState_eq_ok_iff {step : Setting → State → Except Fault (α × State)} {g : Setting}
    {b b' : Build} {a : α} : onState step g b = .ok (a, b') ↔
      ∃ s', step g b.toState = .ok (a, s') ∧ b' = { b with toState := s' } := by
  rw [onState, bind_eq_ok_iff]
  constructor
  · rintro ⟨⟨a, s'⟩, hstep, h⟩
    cases h
    exact ⟨s', hstep, rfl⟩
  · rintro ⟨s', hstep, rfl⟩
    exact ⟨(a, s'), hstep, rfl⟩

/-- The same for a step that answers nothing. -/
theorem onState_unit_eq_ok_iff {step : Setting → State → Except Fault State} {g : Setting}
    {b b' : Build} {u : Unit} :
    onState (fun g s => do return ((), ← step g s)) g b = .ok (u, b') ↔
      ∃ s', step g b.toState = .ok s' ∧ b' = { b with toState := s' } := by
  rw [onState_eq_ok_iff]
  refine exists_congr fun s' => and_congr_left fun _ => ?_
  rw [bind_eq_ok_iff]
  constructor
  · rintro ⟨s₁, hstep, h⟩
    cases h
    exact hstep
  · exact fun hstep => ⟨s', hstep, rfl⟩

/-- Two continuations need to agree only on what the first action leads to. -/
private theorem bind_congr_at {g : Setting} {b : Build} {x : Action α} {f f' : α → Action β}
    (h : ∀ a b', x g b = .ok (a, b') → f a g b' = f' a g b') : (x >>= f) g b = (x >>= f') g b := by
  rw [bind_apply, bind_apply]
  cases hx : x g b with
  | error fault => rfl
  | ok r => exact h r.1 r.2 hx

/-- No levels to close is nothing to do. -/
@[simp] theorem closeLevels_zero : closeLevels 0 = pure () := rfl

/-- To close levels in bulk, close the innermost one and then the others. -/
@[simp] theorem closeLevels_succ (nested : Nat) : closeLevels (nested + 1) = (do
    finishNode
    leaveLevel
    closeLevels nested) := rfl

end Action

/-! ## Fragments on a builder -/

namespace Script

variable {α β : Type} (rules : Nat → Rule → Action Bool) (mark : Nat)

/-- Fragments in sequence are built in sequence. -/
@[simp] theorem build_bind (m : Fragment α) (f : α → Fragment β) (next : β → Script) :
    ((m >>= f) next).build rules mark = (m fun a => f a next).build rules mark := rfl

/-- A value is handed on. -/
@[simp] theorem build_pure (a : α) (next : α → Script) :
    ((pure a : Fragment α) next).build rules mark = (next a).build rules mark := rfl

/-- A choice is built as the branch that is taken. -/
@[simp] theorem build_ite (p : Prop) [Decidable p] (m n : Fragment α) (next : α → Script) :
    ((if p then m else n) next).build rules mark =
      if p then (m next).build rules mark else (n next).build rules mark := by
  split <;> rfl

/-- A script that is done answers. -/
@[simp] theorem build_done (answer : Bool) : (done answer).build rules mark = pure answer := rfl

/-- Looking ahead is the action of that name. -/
@[simp] theorem build_ahead (n : Nat) (next : Kind → Script) :
    (Fragment.ahead n next).build rules mark =
      Action.ahead n >>= fun k => (next k).build rules mark := rfl

/-- Looking at the current token is the action of that name. -/
@[simp] theorem build_current (next : Kind → Script) :
    (Fragment.current next).build rules mark =
      Action.current >>= fun k => (next k).build rules mark := rfl

/-- The text of the current token is asked for by the action of that name. -/
@[simp] theorem build_currentText (next : String → Script) :
    (Fragment.currentText next).build rules mark =
      Action.currentText >>= fun t => (next t).build rules mark := rfl

/-- The loops ask for the end as the action does. -/
@[simp] theorem build_stopped (next : Bool → Script) :
    (Fragment.stopped next).build rules mark =
      Action.stopped >>= fun b => (next b).build rules mark := rfl

/-- The steps that are left are asked for as the action does. -/
@[simp] theorem build_exhausted (next : Bool → Script) :
    (Fragment.exhausted next).build rules mark =
      Action.exhausted >>= fun b => (next b).build rules mark := rfl

/-- A token is consumed as the action does it. -/
@[simp] theorem build_bump (next : Unit → Script) :
    (Fragment.bump next).build rules mark =
      Action.bump >>= fun u => (next u).build rules mark := rfl

/-- The skipped tokens are placed as the action does it. -/
@[simp] theorem build_flush (next : Unit → Script) :
    (Fragment.flush next).build rules mark =
      Action.flush >>= fun u => (next u).build rules mark := rfl

/-- A complaint is made as the action makes it. -/
@[simp] theorem build_complain (problem : Problem) (detail expected : Option String)
    (next : Unit → Script) : (Fragment.complain problem detail expected next).build rules mark =
      Action.complain problem detail expected >>= fun u => (next u).build rules mark := rfl

/-- What is missing is complained about as the action does it. -/
@[simp] theorem build_missing (problem : Problem) (what : String) (next : Unit → Script) :
    (Fragment.missing problem what next).build rules mark =
      Action.missing problem what >>= fun u => (next u).build rules mark := rfl

/-- A warning is given as the action gives it. -/
@[simp] theorem build_remark (problem : Problem) (next : Unit → Script) :
    (Fragment.remark problem next).build rules mark =
      Action.remark problem >>= fun u => (next u).build rules mark := rfl

/-- A test for a kind is the action of that name. -/
@[simp] theorem build_isAt (kind : Kind) (next : Bool → Script) :
    (Fragment.isAt kind next).build rules mark =
      Action.isAt kind >>= fun b => (next b).build rules mark := by
  simp [Fragment.isAt, Action.isAt]

/-- A test for a set is the action of that name. -/
@[simp] theorem build_isAtAny (set : TokenSet) (next : Bool → Script) :
    (Fragment.isAtAny set next).build rules mark =
      Action.isAtAny set >>= fun b => (next b).build rules mark := by
  simp [Fragment.isAtAny, Action.isAtAny]

/-- A token is eaten as the action eats it. -/
@[simp] theorem build_eat (kind : Kind) (next : Bool → Script) :
    (Fragment.eat kind next).build rules mark =
      Action.eat kind >>= fun b => (next b).build rules mark := by
  simp [Fragment.eat, Action.eat]

/-- A token that may be missing is eaten, and the answer dropped. -/
@[simp] theorem build_optionally (kind : Kind) (next : Unit → Script) :
    (Fragment.optionally kind next).build rules mark =
      Action.optionally kind >>= fun u => (next u).build rules mark := by
  simp [Fragment.optionally, Action.optionally]

/-- A token is expected as the action expects it. -/
@[simp] theorem build_expect (kind : Kind) (what : String) (next : Bool → Script) :
    (Fragment.expect kind what next).build rules mark =
      Action.expect kind what >>= fun b => (next b).build rules mark := by
  simp [Fragment.expect, Action.expect]

/-- A token is required as the action requires it. -/
@[simp] theorem build_require (kind : Kind) (what : String) (next : Unit → Script) :
    (Fragment.require kind what next).build rules mark =
      Action.require kind what >>= fun u => (next u).build rules mark := by
  simp [Fragment.require, Action.require]

/-- A name is asked for as the action does it. -/
@[simp] theorem build_identifier (what : String) (next : Unit → Script) :
    (Fragment.identifier what next).build rules mark =
      Action.identifier what >>= fun u => (next u).build rules mark := by
  simp [Fragment.identifier, Action.identifier]

/-- The assertion about where a rule begins is the action of that name. -/
@[simp] theorem build_entered (kind : Kind) (next : Unit → Script) :
    (Fragment.entered kind next).build rules mark =
      Action.assertAt kind >>= fun u => (next u).build rules mark := by
  have hbuild : (Fragment.entered kind next).build rules mark =
      Action.current >>= fun found =>
        (if found = kind then next () else .fail (.misplaced kind found)).build rules mark := rfl
  rw [hbuild, Action.assertAt]
  simp only [bind_assoc]
  refine bind_congr fun found => ?_
  split <;> rfl

/-- A node is opened, its body built and the node closed, and the body has a place of its own. -/
@[simp] theorem build_node (kind : Kind) (body : Fragment Unit) (next : Unit → Script) :
    (Fragment.node kind body next).build rules mark = (do
      Action.startNode kind
      let inner ← Action.place
      let _ ← (body fun _ => .done true).build rules inner
      Action.finishNode
      (next ()).build rules mark) := rfl

/-- A group is nothing but a checkpoint that its body may open nodes at. -/
@[simp] theorem build_group (body : Fragment Unit) (next : Unit → Script) :
    (Fragment.group body next).build rules mark = (do
      let inner ← Action.checkpoint
      let _ ← (body fun _ => .done true).build rules inner
      (next ()).build rules mark) := rfl

/-- To wrap is to open a node at the mark that has been set before. -/
@[simp] theorem build_wrap (kind : Kind) (body : Fragment Unit) (next : Unit → Script) :
    (Fragment.wrap kind body next).build rules mark = (do
      Action.startNodeAt mark kind
      let _ ← (body fun _ => .done true).build rules mark
      Action.finishNode
      (next ()).build rules mark) := rfl

/-- A level is entered and left again, if it is granted. -/
@[simp] theorem build_deeper (body : Fragment Unit) (next : Bool → Script) :
    (Fragment.deeper body next).build rules mark = (do
      if ← Action.enterLevel then
        let _ ← (body fun _ => .done true).build rules mark
        Action.leaveLevel
        (next true).build rules mark
      else (next false).build rules mark) := rfl

/-- A delimiter is pushed, its opener consumed, the body built and the delimiter closed. -/
@[simp] theorem build_enclosed (d : Delimiter) (construct : String) (body : Fragment Unit)
    (next : Unit → Script) : (Fragment.enclosed d construct body next).build rules mark = (do
      Action.pushDelimiter d
      Action.bump
      let _ ← (body fun _ => .done true).build rules mark
      Action.closeDelimiter d construct
      (next ()).build rules mark) :=
  Action.currentSpan_pushDelimiter d fun _ => do
    Action.bump
    let _ ← (body fun _ => .done true).build rules mark
    Action.closeDelimiter d construct
    (next ()).build rules mark

/-- As `build_enclosed`, with a warning about the opener if the body answers that it is empty. -/
@[simp] theorem build_enclosedNonempty (d : Delimiter) (construct : String) (ifEmpty : Problem)
    (body : Fragment Bool) (next : Unit → Script) :
    (Fragment.enclosedNonempty d construct ifEmpty body next).build rules mark = (do
      let opener ← Action.currentSpan
      Action.pushDelimiter d
      Action.bump
      let answer ← (body .done).build rules mark
      Action.closeDelimiter d construct
      unless answer do Action.remarkSince ifEmpty opener
      (next ()).build rules mark) := by
  -- The check for emptiness is the same on both sides.
  have hempty (answer : Bool) (opener : Span) : Action.closeEmpty (some ifEmpty) answer opener =
      if answer = true then pure () else Action.remarkSince ifEmpty opener := by
    cases answer <;> rfl
  have hbuild : (Fragment.enclosedNonempty d construct ifEmpty body next).build rules mark = (do
      let opener ← Action.currentSpan
      Action.pushDelimiter d
      Action.bump
      let answer ← (body .done).build rules mark
      Action.closeDelimiter d construct
      Action.closeEmpty (some ifEmpty) answer opener
      (next ()).build rules mark) := rfl
  simp [hbuild, hempty]

/-- A rule is called, whatever it answers. -/
@[simp] theorem build_call (rule : Rule) (next : Unit → Script) :
    (Fragment.call rule next).build rules mark = (do
      let _ ← rules mark rule
      (next ()).build rules mark) := rfl

/-- A rule is called for its answer. -/
@[simp] theorem build_ask (rule : Rule) (next : Bool → Script) :
    (Fragment.ask rule next).build rules mark = (do
      let answer ← rules mark rule
      (next answer).build rules mark) := rfl

end Script

/-- Whatever comes after it, the fragment does what the action does. -/
def Fragment.RunsAs {α : Type} (rules : Nat → Rule → Action Bool) (mark : Nat) (m : Fragment α)
    (x : Action α) : Prop :=
  ∀ next : α → Script, (m next).build rules mark = x >>= fun a => (next a).build rules mark

namespace Fragment.RunsAs

variable {α β : Type} {rules : Nat → Rule → Action Bool} {mark : Nat}

/-- Fragments in sequence run as actions in sequence. -/
theorem bind {m : Fragment α} {x : Action α} {f : α → Fragment β} {f' : α → Action β}
    (hm : m.RunsAs rules mark x) (hf : ∀ a, (f a).RunsAs rules mark (f' a)) :
    (m >>= f).RunsAs rules mark (x >>= f') := by
  intro next
  rw [Script.build_bind, hm]
  exact (bind_congr fun a => hf a next).trans (LawfulMonad.bind_assoc x f' _).symm

/-- A choice of fragments runs as the choice of actions. -/
private theorem ite {p : Prop} [Decidable p] {m n : Fragment α} {x y : Action α}
    (hm : m.RunsAs rules mark x) (hn : n.RunsAs rules mark y) :
    (if p then m else n).RunsAs rules mark (if p then x else y) := by
  split
  · exact hm
  · exact hn

/-- The fragment as the whole of a rule. -/
theorem unit {m : Fragment Unit} {x : Action Unit} (h : m.RunsAs rules mark x) :
    m.unit.build rules mark = do
      x
      return true :=
  h _

/-- To hand on a value is the same in both. -/
theorem pure (a : α) : (Pure.pure a : Fragment α).RunsAs rules mark (Pure.pure a) :=
  fun _ => rfl

/-- To look at the current token is the same in both. -/
theorem current : Fragment.current.RunsAs rules mark Action.current := fun _ => rfl

/-- To look ahead is the same in both. -/
theorem ahead (n : Nat) : (Fragment.ahead n).RunsAs rules mark (Action.ahead n) := fun _ => rfl

/-- To ask for the end is the same in both. -/
theorem stopped : Fragment.stopped.RunsAs rules mark Action.stopped := fun _ => rfl

end Fragment.RunsAs

/-! ## What is called -/

/-- The rule that a routine is, if other rules refer to it. -/
def Routine.rule? : Routine → Option Rule
  | item => some .item
  | importDecl => some .importDecl
  | fnDecl => some .fnDecl
  | fnTail => some .fnTail
  | param => some .param
  | typeDecl => some .typeDecl
  | typeMember => some .member
  | statement => some .statement
  | block true => some .block
  | block false => some .body
  | ifStmt terminated => some (.ifStmt terminated)
  | initializer => some .initializer
  | expr => some .expr
  | operand => some .operand
  | primary => some .primary
  | recordProp => some .recordProp
  | typeList => some .typeList
  | typeName => some .typeName
  | _ => none

/-- The routines and loops do what the rules do, whatever the mark of the caller. -/
structure Callees.Carry (c : Callees) (rules : Nat → Rule → Action Bool) : Prop where
  routine {rule : Rule} (r : Routine) (h : r.rule? = some rule) (mark : Nat) :
    rules mark rule = do
      c.routine r
      return true
  imports (mark : Nat) : rules mark .imports = do
    c.imports
    return true
  items (mark : Nat) : rules mark .items = do
    c.items
    return true
  members (mark : Nat) : rules mark .members = do
    c.members
    return true
  /-- The loop counts the statements of which the rule knows only whether there are any. -/
  statements (mark count : Nat) : rules mark (.statements (count != 0)) = do
    return (← c.statements count) != 0
  elements (mark : Nat) (form : ListForm) : rules mark (.elements form) = do
    c.elements form
    return true
  /-- The nodes that the loop leaves open are closed by the rule. -/
  operators (nested mark : Nat) : (do Action.closeLevels (← c.operators nested mark)) = do
    let _ ← rules mark .chain
    Action.closeLevels nested
  prefixes (mark nested : Nat) : (do Action.closeLevels (← c.prefixes nested)) = do
    let _ ← rules mark (.prefixes nested)
    Action.closeLevels nested
  /-- The node that the loop opens is closed by the rule. -/
  accessors (mark : Nat) : (do if ← c.accessors false mark then Action.finishNode) = do
    let _ ← rules mark (.accessors false)
  /-- A node that is open already is closed by the caller, and its mark no longer matters. -/
  furtherAccessors (mark inner : Nat) :
    (do if ← c.accessors true mark then Action.finishNode) = do
      let _ ← rules inner (.accessors true)
      Action.finishNode
  unionTail (mark : Nat) : rules mark .unionTail = do
    c.unionTail
    return true
  typeArgTail (mark : Nat) : rules mark .typeArgTail = do
    c.typeArgTail
    return true
  discard (mark : Nat) (stops : TokenSet) : rules mark (.discard stops) = do
    c.discard stops
    return true
  skipTo (mark : Nat) (stops : TokenSet) : rules mark (.skipTo stops) = do
    c.skipTo stops
    return true

namespace Callees.Carry

variable {α : Type} {rules : Nat → Rule → Action Bool} {c : Callees} (h : c.Carry rules)
include h

/-- `operators`, with something that comes after it. -/
private theorem operators_then (nested mark : Nat) (f : Unit → Action α) :
    (c.operators nested mark >>= fun n => Action.closeLevels n >>= f) =
      rules mark .chain >>= fun _ => Action.closeLevels nested >>= f := by
  rw [← bind_assoc, h.operators nested mark, bind_assoc]

/-- `prefixes`, with something that comes after it. -/
private theorem prefixes_then (mark nested : Nat) (f : Unit → Action α) :
    (c.prefixes nested >>= fun n => Action.closeLevels n >>= f) =
      rules mark (.prefixes nested) >>= fun _ => Action.closeLevels nested >>= f := by
  rw [← bind_assoc, h.prefixes mark nested, bind_assoc]

/-- `accessors`, with something that comes after it. -/
private theorem accessors_then (mark : Nat) (f : Unit → Action α) :
    (c.accessors false mark >>= fun w => if w then Action.finishNode >>= f else f ()) =
      rules mark (.accessors false) >>= fun _ => f () := by
  simpa using congrArg (· >>= f) (h.accessors mark)

/-- `furtherAccessors`, with something that comes after it. -/
private theorem furtherAccessors_then (mark inner : Nat) (f : Unit → Action α) :
    (c.accessors true mark >>= fun w => if w then Action.finishNode >>= f else f ()) =
      rules inner (.accessors true) >>= fun _ => Action.finishNode >>= f := by
  simpa using congrArg (· >>= f) (h.furtherAccessors mark inner)

end Callees.Carry

section Routines

open Routine

variable {rules : Nat → Rule → Action Bool} {mark : Nat} {c : Callees}

/-! ## Types -/

/-- A list of types runs as the routine for it does. -/
theorem typeList_runsAs (h : c.Carry rules) :
    Grammar.typeList.RunsAs rules mark (parseTypeList c) := by
  intro next
  simp [Grammar.typeList, parseTypeList, h.unionTail, h.routine .typeName rfl]

/-- The rest of a union runs as the routine for it does. -/
private theorem unionTail_runsAs (h : c.Carry rules) :
    Grammar.unionTail.RunsAs rules mark (unionTail c) := by
  intro next
  simp [Grammar.unionTail, unionTail, h.unionTail, h.routine .typeName rfl]

/-- A list of type arguments runs as the routine for it does. -/
private theorem typeArgs_runsAs (h : c.Carry rules) :
    Grammar.typeArgs.RunsAs rules mark (parseTypeArgs c) := by
  intro next
  simp [Grammar.typeArgs, parseTypeArgs, h.typeArgTail, h.routine .typeList rfl]

/-- The rest of a list of type arguments runs as the routine for it does. -/
private theorem typeArgTail_runsAs (h : c.Carry rules) :
    Grammar.typeArgTail.RunsAs rules mark (typeArgTail c) := by
  intro next
  simp [Grammar.typeArgTail, typeArgTail, h.typeArgTail, h.routine .typeList rfl]

/-- The name of a type runs as the routine for it does. -/
private theorem typeName_runsAs (h : c.Carry rules) :
    Grammar.typeName.RunsAs rules mark (parseTypeName c) := by
  intro next
  simp [Grammar.typeName, parseTypeName, typeArgs_runsAs h _]

/-! ## Lists -/

/-- The routine of an element is that of the rule for it. -/
private theorem rule?_ofElement (form : ListForm) : (ofElement form).rule? = some form.element := by
  cases form <;> rfl

/-- A token that the grammar sees is next. -/
def State.AtToken (s : State) : Prop := ∃ t ts, s.rest = t :: ts ∧ t.kind.isSkipped = false

/-- At a token there is nothing to skip. -/
theorem State.AtToken.skip_eq {g : Setting} {s : State} (h : s.AtToken) : s.skip g = s := by
  obtain ⟨t, ts, hrest, ht⟩ := h
  rw [skip, hrest, passAll, if_neg (by simp [ht]), ← hrest]

/-- A parse that has not stopped is at a token. -/
private theorem State.atToken_of_not_stopped {g : Setting} {s : State}
    (h : (s.skip g).isStopped = false) : (s.skip g).AtToken := by
  cases hrest : (s.skip g).rest with
  | nil => simp [isStopped, hrest] at h
  | cons t ts => exact ⟨t, ts, hrest, Token.isSkipped_of_dropWhile (skip_rest ▸ hrest)⟩

/-- After a lookahead the state is still at its token. -/
theorem State.AtToken.look {g : Setting} {s s' : State} {n : Nat} {k : Kind} (h : s.AtToken)
    (hlook : s.look g n = .ok (k, s')) : s'.AtToken := by
  obtain ⟨-, -, rfl⟩ := look_eq_ok_iff.mp hlook
  rwa [h.skip_eq]

/-- After a complaint the state is still at its token. -/
theorem State.AtToken.complain {g : Setting} {s s' : State} {x : Complaint} (h : s.AtToken)
    (hcomplain : s.complain g x = .ok s') : s'.AtToken := by
  obtain ⟨p, d, rfl, -⟩ := complain_eq_ok hcomplain
  rw [AtToken, reportAt_rest, h.skip_eq]
  exact h

/-- At a token, `bumpAsError` need not test whether there is one. -/
private theorem missing_bumpAsError {α : Type} {g : Setting} {b : Build} (h : b.AtToken)
    (problem : Problem) (what : String) (f : Unit → Action α) :
    (do Action.missing problem what; bumpAsError >>= f) g b =
      (do
        Action.missing problem what
        Action.startNode .error
        Action.bump
        Action.finishNode >>= f) g b := by
  -- At a token, to consume it as an error is to complain and to consume it.
  have hbump : bumpAsError >>= f = (do
      if ← Action.atEnd then f ()
      else
        Action.startNode .error
        Action.bump
        Action.finishNode >>= f) := by
    simp [bumpAsError]
  refine Action.bind_congr_at fun _ b₁ hmissing => ?_
  rw [Action.missing, Action.complain, Action.onState_unit_eq_ok_iff] at hmissing
  obtain ⟨s₁, hcomplain, rfl⟩ := hmissing
  have hskip : s₁.skip g = s₁ := (h.complain hcomplain).skip_eq
  obtain ⟨t, ts, hrest, -⟩ := h.complain hcomplain
  -- A complaint leaves the token ahead.
  have hend : Action.atEnd g ⟨s₁, b.opened⟩ = .ok (false, ⟨s₁, b.opened⟩) := by
    rw [Action.atEnd, Action.onState, hskip, hrest]
    rfl
  rw [hbump, Action.bind_apply, hend]
  rfl

@[simp] theorem opening_eq (form : ListForm) : form.opening = form.delimiter := by
  cases form <;> rfl

/-- A list closes what it has opened. -/
@[simp] theorem closing_eq (form : ListForm) : form.closing = form.delimiter := by
  cases form <;> rfl

/-- The loop tests once more whether there is a token, which it has seen. -/
private theorem elements_runsAs (h : c.Carry rules) (form : ListForm) :
    (Grammar.elements form).RunsAs rules mark (elements c form) := by
  intro next
  funext g b
  -- Both test whether the list is over, and then look at the same token.
  simp only [Grammar.elements, Routine.elements, Script.build_bind, Script.build_stopped,
    bind_assoc]
  refine Action.bind_congr_at fun isStopped b₁ hstopped => ?_
  cases isStopped with
  | true => simp
  | false =>
    obtain ⟨s₁, hskip, rfl⟩ := Action.onState_eq_ok_iff.mp hstopped
    obtain ⟨hunstopped, rfl⟩ := Prod.mk.inj (Except.ok.inj hskip)
    simp only [Bool.false_eq_true, if_false, Script.build_current, Script.build_bind, bind_assoc]
    refine Action.bind_congr_at fun kind b₂ hcurrent => ?_
    rw [Action.current, Action.ahead, Action.onState_eq_ok_iff] at hcurrent
    obtain ⟨s₂, hlook, rfl⟩ := hcurrent
    have hat : s₂.AtToken := (State.atToken_of_not_stopped hunstopped).look hlook
    -- The closer, an element, a token at which the list stops, or one that is set aside.
    by_cases hclose : kind = form.delimiter.closer
    · simp [hclose]
    by_cases hfirst : form.first.contains kind = true
    · simp [hclose, hfirst, h.elements, h.routine (ofElement form) (rule?_ofElement form)]
    by_cases hstop : TokenSet.listStop.contains kind = true
    · have hkind : kind ≠ .comma := by
        rintro rfl
        cases hstop
      simp [hclose, hfirst, hstop, hkind]
    · have hbump (f : Unit → Action Bool) :=
        missing_bumpAsError (g := g) (b := ⟨s₂, b.opened⟩) hat form.problem form.elementName f
      simp [hclose, hfirst, hstop, h.elements, hbump]

/-- A list in delimiters runs as the routine for it does. -/
private theorem delimited_runsAs (h : c.Carry rules) (form : ListForm) :
    (Grammar.delimited form).RunsAs rules mark (parseDelimited c form) := by
  intro next
  simp [Grammar.delimited, parseDelimited, h.elements]

/-! ## Primary expressions -/

/-- The look at whether a function literal begins is the same in both. -/
private theorem atFnLiteral_runsAs : Grammar.atFnLiteral.RunsAs rules mark atFnLiteral := by
  refine .bind (.ahead 1) fun kind => ?_
  split <;> intro next <;> simp

/-- The look at whether a record begins is the same in both. -/
private theorem atRecordBody_runsAs : Grammar.atRecordBody.RunsAs rules mark atRecordBody := by
  intro next
  simp [Grammar.atRecordBody, atRecordBody]

/-- What begins with a name runs as the routine for it does. -/
private theorem namePrimary_runsAs (h : c.Carry rules) :
    Grammar.namePrimary.RunsAs rules mark (parseNamePrimary c) := by
  intro next
  simp [Grammar.namePrimary, parseNamePrimary, nameForm, NameForm.kind, delimited_runsAs h _ _]

/-- A reference to a name runs as the routine for it does. -/
private theorem refLiteral_runsAs : (Fragment.node .refLiteral do
    .bump
    .identifier "a name after `#`").RunsAs rules mark parseRefLiteral := by
  intro next
  simp [parseRefLiteral]

/-- An expression in parentheses runs as the routine for it does. -/
private theorem parenExpr_runsAs (h : c.Carry rules) : (Fragment.node .parenExpr
    (.enclosed .paren "parenthesized expression" (.call .expr))).RunsAs rules mark
      (parseParenExpr c) := by
  intro next
  simp [parseParenExpr, h.routine .expr rfl]

/-- A primary expression runs as the routine for it does. -/
private theorem primary_runsAs (h : c.Carry rules) :
    Grammar.primary.RunsAs rules mark (parsePrimary c) := by
  refine .bind .current fun kind => ?_
  split
  · exact namePrimary_runsAs h
  · exact refLiteral_runsAs
  · intro next
    simp [delimited_runsAs h _ _]
  · intro next
    simp [delimited_runsAs h _ _]
  · refine .bind atFnLiteral_runsAs fun _ => .ite (fun next => ?_) (parenExpr_runsAs h)
    simp [h.routine .fnTail rfl]
  · intro next
    simp

/-- A property of a record runs as the routine for it does. -/
private theorem recordProp_runsAs (h : c.Carry rules) :
    Grammar.recordProp.RunsAs rules mark (parseRecordProp c) := by
  intro next
  simp [Grammar.recordProp, parseRecordProp, h.routine .expr rfl]

/-! ## Accessors -/

/-- The look at which accessor comes is the same in both. -/
private theorem accessorHere_runsAs : Grammar.accessorHere.RunsAs rules mark accessorHere := by
  refine .bind .current fun kind => ?_
  split <;> intro next <;> simp

/-- The name behind a dot runs as the routine for it does. -/
private theorem memberName_runsAs (after : String) :
    (Grammar.memberName after).RunsAs rules mark (parseMemberName after) := by
  intro next
  simp [Grammar.memberName, parseMemberName]

/-- An accessor runs as the routine for it does. -/
private theorem accessor_runsAs (h : c.Carry rules) (a : Grammar.Accessor) :
    (Grammar.accessor a).RunsAs rules mark (parseAccessor c a) := by
  intro next
  cases a with
  | field => simp [Grammar.accessor, parseAccessor, memberName_runsAs _ _]
  | static => simp [Grammar.accessor, parseAccessor, memberName_runsAs _ _]
  | index => simp [Grammar.accessor, parseAccessor, h.routine .expr rfl]
  | arguments => simp [Grammar.accessor, parseAccessor, delimited_runsAs h _ _]
  | nonNull => simp [Grammar.accessor, parseAccessor]

/-- The node that the loop opens at the first accessor is closed where the rule closes it. -/
private theorem accessors_build (h : c.Carry rules) :
    (do if ← accessors c false mark then Action.finishNode) = (do
      let _ ← (Grammar.accessors false).unit.build rules mark) := by
  rw [accessors, Grammar.accessors, Fragment.unit]
  simp only [Script.build_bind, accessorHere_runsAs _, bind_assoc]
  refine bind_congr fun a => ?_
  cases a with
  | none => simp
  | some a => simp [accessor_runsAs h _ _, ← h.furtherAccessors mark]

/-- Behind the first accessor the routine finishes the node that the script wraps. -/
private theorem furtherAccessors_build (h : c.Carry rules) (inner : Nat) :
    (do if ← accessors c true mark then Action.finishNode) = (do
      let _ ← (Grammar.accessors true).unit.build rules inner
      Action.finishNode) := by
  rw [accessors, Grammar.accessors, Fragment.unit]
  simp only [Script.build_bind, accessorHere_runsAs _, bind_assoc]
  refine bind_congr fun a => ?_
  cases a with
  | none => simp
  | some a => simp [accessor_runsAs h _ _, ← h.furtherAccessors mark]

/-! ## Operators -/

/-- A primary expression with its accessors runs as the routine for it does. -/
private theorem member_runsAs (h : c.Carry rules) :
    Grammar.member.RunsAs rules mark (parseMember c) := by
  intro next
  simp only [Grammar.member, parseMember, Script.build_group, Script.build_bind,
    Script.build_isAt, bind_assoc]
  refine bind_congr fun inner => bind_congr fun isNew => ?_
  cases isNew with
  | false => simp [h.routine .primary rfl, h.accessors_then]
  | true => simp [h.routine .primary rfl, ← h.furtherAccessors_then inner]

/-- An operand runs as the routine for it does. -/
private theorem operand_runsAs (h : c.Carry rules) :
    Grammar.operand.RunsAs rules mark (parseOperand c) := by
  intro next
  simp [Grammar.operand, parseOperand, member_runsAs h _]

/-- What a prefix operator applies to runs as the routine for it does. -/
private theorem prefixOperand_runsAs (h : c.Carry rules) :
    Grammar.prefixOperand.RunsAs rules mark (prefixOperand c) := by
  intro next
  simp [Grammar.prefixOperand, prefixOperand, h.routine .operand rfl]

/-- A round opens a node on a level of its own, which the rule closes after the rounds to come. -/
private theorem prefixes_build (h : c.Carry rules) (nested : Nat) :
    (do Action.closeLevels (← prefixes c nested)) = (do
      let _ ← (Grammar.prefixes nested).unit.build rules mark
      Action.closeLevels nested) := by
  have hmore (inner : Nat) : (do
      let _ ← rules inner (.prefixes (nested + 1))
      Action.finishNode
      Action.leaveLevel
      Action.closeLevels nested) = c.prefixes (nested + 1) >>= Action.closeLevels :=
    (h.prefixes inner (nested + 1)).symm
  simp [Grammar.prefixes, prefixes, Fragment.unit, prefixOperand_runsAs h _, hmore]

/-- A unary expression runs as the routine for it does. -/
private theorem unary_runsAs (h : c.Carry rules) :
    Grammar.unary.RunsAs rules mark (parseUnary c) := by
  intro next
  simp [Grammar.unary, parseUnary, h.routine .operand rfl, h.prefixes_then mark]

/-- A round opens a node on a level of its own, which the rule closes after the rounds to come. -/
private theorem operators_build (h : c.Carry rules) (nested : Nat) :
    (do Action.closeLevels (← operators c nested mark)) = (do
      let _ ← Grammar.chain.unit.build rules mark
      Action.closeLevels nested) := by
  have hmore (inner : Nat) := h.operators (nested + 1) inner
  simp [Grammar.chain, operators, Fragment.unit, unary_runsAs h _, hmore]

/-- An expression runs as the routine for it does. -/
theorem expr_runsAs (h : c.Carry rules) : Grammar.expr.RunsAs rules mark (parseExpr c) := by
  intro next
  simp [Grammar.expr, parseExpr, h.operators_then]

/-! ## Statements -/

/-- The loop that sets tokens aside goes round as the routine does. -/
private theorem discard_runsAs (h : c.Carry rules) (stops : TokenSet) :
    (Grammar.discard stops).RunsAs rules mark (discard c stops) := by
  intro next
  simp [Grammar.discard, Routine.discard, h.discard]

/-- The skipping up to a boundary goes round as the routine does. -/
private theorem skipTo_runsAs (h : c.Carry rules) (stops : TokenSet) :
    (Grammar.skipTo stops).RunsAs rules mark (skipTo c stops) := by
  intro next
  simp [Grammar.skipTo, Routine.skipTo, h.skipTo]

/-- An initializer runs as the routine for it does. -/
private theorem initializer_runsAs (h : c.Carry rules) :
    Grammar.initializer.RunsAs rules mark (parseInitializer c) := by
  intro next
  simp [Grammar.initializer, parseInitializer, h.routine .expr rfl]

/-- An expression as a statement runs as the routine for it does. -/
private theorem exprStmt_runsAs (h : c.Carry rules) (terminated : Bool) :
    (Grammar.exprStmt terminated).RunsAs rules mark (parseExprStmt c terminated) := by
  intro next
  simp [Grammar.exprStmt, parseExprStmt, h.routine .expr rfl]

/-- The recovery from what begins no statement runs as the routine for it does. -/
private theorem recoverStatement_runsAs (h : c.Carry rules) :
    Grammar.recoverStatement.RunsAs rules mark (recoverStatement c) := by
  intro next
  simp [Grammar.recoverStatement, recoverStatement, Fragment.setAside, h.discard]

/-- The loop over statements goes round as the routine does. -/
private theorem statements_runsAs (h : c.Carry rules) (count : Nat) :
    (Grammar.statements (count != 0)).RunsAs rules mark
      (do return (← statements c count) != 0) := by
  -- A statement counts, and so the list goes on with a count that is not zero.
  have hmore : rules mark (.statements true) = do
    return (← c.statements (count + 1)) != 0 := h.statements mark (count + 1)
  intro next
  simp only [Grammar.statements, Routine.statements, Script.build_bind, Script.build_stopped,
    bind_assoc]
  refine bind_congr fun isStopped => ?_
  cases isStopped with
  | true => simp
  | false =>
    simp only [Bool.false_eq_true, if_false, Script.build_bind, Script.build_current, bind_assoc]
    refine bind_congr fun kind => ?_
    -- One case for each branch on the kind ahead.
    split
    · simp
    · simp [h.statements mark count]
    · simp [hmore, h.routine .fnDecl rfl]
    · simp [hmore, h.routine .typeDecl rfl]
    · simp [hmore, h.routine .typeDecl rfl]
    · simp [h.statements mark count, h.routine .importDecl rfl]
    · simp [h.statements mark count, hmore, h.routine .statement rfl, recoverStatement_runsAs h _]

/-- A block runs as the routine for it does. -/
private theorem block_runsAs (h : c.Carry rules) :
    Grammar.block.RunsAs rules mark (parseBlock c true) := by
  have hstatements (inner : Nat) : rules inner (.statements false) = do
    return (← c.statements 0) != 0 := h.statements inner 0
  intro next
  simp [Grammar.block, parseBlock, hstatements]

/-- The body of a function or a loop runs as the routine for it does. -/
private theorem body_runsAs (h : c.Carry rules) :
    Grammar.body.RunsAs rules mark (parseBlock c false) := by
  have hstatements (inner : Nat) : rules inner (.statements false) = do
    return (← c.statements 0) != 0 := h.statements inner 0
  intro next
  simp [Grammar.body, parseBlock, hstatements]

/-- A condition in parentheses runs as the routine for it does. -/
private theorem condition_runsAs (h : c.Carry rules) (keyword : String) :
    (Grammar.condition keyword).RunsAs rules mark (parseCondition c keyword) := by
  intro next
  simp [Grammar.condition, parseCondition, h.routine .expr rfl]

/-- An `if` statement runs as the routine for it does. -/
private theorem ifStmt_runsAs (h : c.Carry rules) (terminated : Bool) :
    (Grammar.ifStmt terminated).RunsAs rules mark (parseIfStmt c terminated) := by
  intro next
  simp [Grammar.ifStmt, parseIfStmt, condition_runsAs h _ _, h.routine (.block false) rfl,
    h.routine (.ifStmt false) rfl]

/-- A `while` statement runs as the routine for it does. -/
private theorem whileStmt_runsAs (h : c.Carry rules) :
    Grammar.whileStmt.RunsAs rules mark (parseWhileStmt c) := by
  intro next
  simp [Grammar.whileStmt, parseWhileStmt, condition_runsAs h _ _, h.routine (.block false) rfl]

/-- A `for` statement runs as the routine for it does. -/
private theorem forStmt_runsAs (h : c.Carry rules) :
    Grammar.forStmt.RunsAs rules mark (parseForStmt c) := by
  intro next
  simp [Grammar.forStmt, parseForStmt, exprStmt_runsAs h _ _, h.routine (.block false) rfl,
    h.routine .expr rfl]

/-- The recovery from a missing variable runs as the routine for it does. -/
private theorem missingVariable_runsAs (h : c.Carry rules) :
    Grammar.missingVariable.RunsAs rules mark (recoverVariable c) := by
  intro next
  simp [Grammar.missingVariable, recoverVariable, h.skipTo]

/-- A declaration of a variable runs as the routine for it does. -/
private theorem varStmt_runsAs (h : c.Carry rules) :
    Grammar.varStmt.RunsAs rules mark (parseVarStmt c) := by
  intro next
  simp [Grammar.varStmt, parseVarStmt, missingVariable_runsAs h _, h.routine .typeList rfl,
    h.routine .initializer rfl]

/-- A `return` statement runs as the routine for it does. -/
private theorem returnStmt_runsAs (h : c.Carry rules) :
    Grammar.returnStmt.RunsAs rules mark (parseReturnStmt c) := by
  intro next
  simp [Grammar.returnStmt, parseReturnStmt, h.routine .expr rfl]

/-- A statement runs as the routine for it does. -/
private theorem statement_runsAs (h : c.Carry rules) :
    Grammar.statement.RunsAs rules mark (parseStatement c) := by
  intro next
  simp only [Grammar.statement, parseStatement, Script.build_bind, Script.build_deeper,
    bind_assoc]
  refine bind_congr fun granted => ?_
  cases granted with
  | false => simp
  | true =>
    simp only [if_true, Script.build_current, bind_assoc]
    refine bind_congr fun kind => ?_
    split
    · simp [atRecordBody_runsAs _, exprStmt_runsAs h _ _, h.routine (.block true) rfl]
    · simp [h.routine (.ifStmt true) rfl]
    · simp [whileStmt_runsAs h _]
    · simp [forStmt_runsAs h _]
    · simp [varStmt_runsAs h _]
    · simp [returnStmt_runsAs h _]
    · simp [exprStmt_runsAs h _ _, recoverStatement_runsAs h _]

/-! ## Declarations -/

/-- The type behind a colon runs as the routine for it does. -/
private theorem ascription_runsAs (h : c.Carry rules) (what : String) :
    (Grammar.ascription what).RunsAs rules mark (ascription c what) := by
  intro next
  simp only [Grammar.ascription, ascription, Script.build_bind, Script.build_expect, bind_assoc]
  refine bind_congr fun hasColon => ?_
  cases hasColon <;> simp [h.routine .typeList rfl, orM, toBool]

/-- A parameter runs as the routine for it does. -/
private theorem param_runsAs (h : c.Carry rules) :
    Grammar.param.RunsAs rules mark (parseParam c) := by
  intro next
  simp [Grammar.param, parseParam, ascription_runsAs h _ _]

/-- The tail of a declaration of a function runs as the routine for it does. -/
private theorem fnTail_runsAs (h : c.Carry rules) :
    Grammar.fnTail.RunsAs rules mark (parseFnTail c) := by
  intro next
  simp [Grammar.fnTail, parseFnTail, delimited_runsAs h _ _, h.routine .typeList rfl,
    h.routine (.block false) rfl]

/-- A declaration of a function runs as the routine for it does. -/
private theorem fnDecl_runsAs (h : c.Carry rules) :
    Grammar.fnDecl.RunsAs rules mark (parseFnDecl c) := by
  intro next
  simp [Grammar.fnDecl, parseFnDecl, h.routine .fnTail rfl]

/-- A declaration of an attribute runs as the routine for it does. -/
private theorem attrDecl_runsAs (h : c.Carry rules) :
    Grammar.attrDecl.RunsAs rules mark (parseAttrDecl c) := by
  intro next
  simp [Grammar.attrDecl, parseAttrDecl, ascription_runsAs h _ _, h.routine .initializer rfl]

/-- A member of a type runs as the routine for it does. -/
private theorem typeMember_runsAs (h : c.Carry rules) :
    Grammar.typeMember.RunsAs rules mark (parseTypeMember c) := by
  intro next
  simp only [Grammar.typeMember, parseTypeMember, Script.build_node, Script.build_bind,
    Script.build_current, bind_assoc]
  refine bind_congr fun _ => .trans (bind_congr fun inner => bind_congr fun kind => ?_)
    (Action.place_bind _)
  have hfnDecl := h.routine .fnDecl rfl inner
  -- Each modifier goes on with the same choice between a function and an attribute.
  split
  · simp only [Script.build_bind, Script.build_bump, Script.build_optionally,
      Script.build_current, bind_assoc]
    refine bind_congr fun _ => bind_congr fun _ => bind_congr fun kind => ?_
    split <;> simp [hfnDecl, attrDecl_runsAs h _]
  · simp only [Script.build_bind, Script.build_bump, Script.build_optionally,
      Script.build_current, bind_assoc]
    refine bind_congr fun _ => bind_congr fun _ => bind_congr fun kind => ?_
    split <;> simp [hfnDecl, attrDecl_runsAs h _]
  · simp only [Script.build_bind, Script.build_current, bind_assoc]
    refine bind_congr fun kind => ?_
    split <;> simp [hfnDecl, attrDecl_runsAs h _]

/-- The recovery from what begins no member runs as the routine for it does. -/
private theorem recoverMember_runsAs (h : c.Carry rules) :
    (Fragment.setAside .unexpectedToken "an attribute or function declaration" .typeMemberSync
      (.optionally .semiColon)).RunsAs rules mark (recoverMember c) := by
  intro next
  simp [Fragment.setAside, recoverMember, h.discard]

/-- The loop over the members of a type goes round as the routine does. -/
private theorem members_runsAs (h : c.Carry rules) :
    Grammar.members.RunsAs rules mark (members c) := by
  refine .bind .stopped fun isStopped => .ite (.pure ()) (.bind .current fun kind => ?_)
  split
  · exact .pure ()
  all_goals intro next
  · simp [h.members]
  · simp [h.members, h.routine .typeMember rfl, recoverMember_runsAs h _]

/-- A declaration of a type runs as the routine for it does. -/
private theorem typeDecl_runsAs (h : c.Carry rules) :
    Grammar.typeDecl.RunsAs rules mark (parseTypeDecl c) := by
  intro next
  simp [Grammar.typeDecl, parseTypeDecl, h.members]

/-- An import runs as the routine for it does. -/
private theorem importDecl_runsAs : Grammar.importDecl.RunsAs rules mark parseImport := by
  intro next
  simp [Grammar.importDecl, parseImport]

/-- The recovery from what begins no item runs as the routine for it does. -/
private theorem recoverItem_runsAs (h : c.Carry rules) :
    (Fragment.setAside .expectedStatement "a declaration or statement" .itemSync
      (pure ())).RunsAs rules mark (recoverItem c) := by
  intro next
  simp [Fragment.setAside, recoverItem, h.discard]

/-- An item runs as the routine for it does. -/
private theorem item_runsAs (h : c.Carry rules) : Grammar.item.RunsAs rules mark (parseItem c) := by
  refine .bind .current fun kind => ?_
  split <;> intro next
  · simp [h.routine .fnDecl rfl]
  · simp [h.routine .typeDecl rfl]
  · simp [h.routine .typeDecl rfl]
  · simp [h.routine .importDecl rfl]
  · simp [h.routine .statement rfl, recoverItem_runsAs h _]

/-- The loop over imports goes round as the routine does. -/
private theorem imports_runsAs (h : c.Carry rules) :
    Grammar.imports.RunsAs rules mark (imports c) := by
  intro next
  simp [Grammar.imports, Routine.imports, h.imports, h.routine .importDecl rfl]

/-- The loop over items goes round as the routine does. -/
private theorem items_runsAs (h : c.Carry rules) : Grammar.items.RunsAs rules mark (items c) := by
  intro next
  simp [Grammar.items, Routine.items, h.items, h.routine .item rfl]

/-- The node of the whole program runs as the routine for it does. -/
private theorem root_runsAs (h : c.Carry rules) :
    (Fragment.node .program Grammar.program).RunsAs rules mark (parseRoot c) := by
  intro next
  simp [Grammar.program, parseRoot, h.items, h.imports]

/-! ## Runs -/

/-- The function of the grammar that a routine carries out. -/
def Routine.fragment : Routine → Fragment Unit
  | root => .node .program Grammar.program
  | item => Grammar.item
  | itemRecovery =>
    .setAside .expectedStatement "a declaration or statement" .itemSync (pure ())
  | importDecl => Grammar.importDecl
  | fnDecl => Grammar.fnDecl
  | fnTail => Grammar.fnTail
  | param => Grammar.param
  | typeDecl => Grammar.typeDecl
  | typeMember => Grammar.typeMember
  | attrDecl => Grammar.attrDecl
  | memberRecovery =>
    .setAside .unexpectedToken "an attribute or function declaration" .typeMemberSync
      (.optionally .semiColon)
  | statement => Grammar.statement
  | block true => Grammar.block
  | block false => Grammar.body
  | statementList => do let _ ← Grammar.statements false
  | statementRecovery => Grammar.recoverStatement
  | ifStmt terminated => Grammar.ifStmt terminated
  | whileStmt => Grammar.whileStmt
  | condition keyword => Grammar.condition keyword
  | forStmt => Grammar.forStmt
  | varStmt => Grammar.varStmt
  | initializer => Grammar.initializer
  | returnStmt => Grammar.returnStmt
  | exprStmt terminated => Grammar.exprStmt terminated
  | expr => Grammar.expr
  | unary => Grammar.unary
  | operand => Grammar.operand
  | member => Grammar.member
  | accessor a => Grammar.accessor a
  | memberName after => Grammar.memberName after
  | primary => Grammar.primary
  | namePrimary => Grammar.namePrimary
  | refLiteral => .node .refLiteral do
    .bump
    .identifier "a name after `#`"
  | recordProp => Grammar.recordProp
  | parenExpr => .node .parenExpr (.enclosed .paren "parenthesized expression" (.call .expr))
  | delimited form => Grammar.delimited form
  | typeList => Grammar.typeList
  | typeName => Grammar.typeName
  | typeArgs => Grammar.typeArgs

/-- Each fragment of the grammar runs as the routine that it stands for. -/
private theorem fragment_runsAs (h : c.Carry rules) (r : Routine) :
    r.fragment.RunsAs rules mark (r.action c) := by
  -- One lemma for each function of the grammar.
  cases r with
  | root => exact root_runsAs h
  | item => exact item_runsAs h
  | itemRecovery => exact recoverItem_runsAs h
  | importDecl => exact importDecl_runsAs
  | fnDecl => exact fnDecl_runsAs h
  | fnTail => exact fnTail_runsAs h
  | param => exact param_runsAs h
  | typeDecl => exact typeDecl_runsAs h
  | typeMember => exact typeMember_runsAs h
  | attrDecl => exact attrDecl_runsAs h
  | memberRecovery => exact recoverMember_runsAs h
  | statement => exact statement_runsAs h
  | block asStatement =>
    cases asStatement with
    | false => exact body_runsAs h
    | true => exact block_runsAs h
  | statementList =>
    intro next
    have hcount : (Grammar.statements false fun _ => next ()).build rules mark = _ :=
      statements_runsAs h 0 fun _ => next ()
    exact hcount.trans (by simp [action])
  | statementRecovery => exact recoverStatement_runsAs h
  | ifStmt terminated => exact ifStmt_runsAs h terminated
  | whileStmt => exact whileStmt_runsAs h
  | condition keyword => exact condition_runsAs h keyword
  | forStmt => exact forStmt_runsAs h
  | varStmt => exact varStmt_runsAs h
  | initializer => exact initializer_runsAs h
  | returnStmt => exact returnStmt_runsAs h
  | exprStmt terminated => exact exprStmt_runsAs h terminated
  | expr => exact expr_runsAs h
  | unary => exact unary_runsAs h
  | operand => exact operand_runsAs h
  | member => exact member_runsAs h
  | accessor a => exact accessor_runsAs h a
  | memberName after => exact memberName_runsAs after
  | primary => exact primary_runsAs h
  | namePrimary => exact namePrimary_runsAs h
  | refLiteral => exact refLiteral_runsAs
  | recordProp => exact recordProp_runsAs h
  | parenExpr => exact parenExpr_runsAs h
  | delimited form => exact delimited_runsAs h form
  | typeList => exact typeList_runsAs h
  | typeName => exact typeName_runsAs h
  | typeArgs => exact typeArgs_runsAs h

end Routines

/-- The script of a rule is that of the routine that stands for it. -/
private theorem Routine.script_of_rule? {r : Routine} {rule : Rule} (h : r.rule? = some rule) :
    rule.script = r.fragment.unit := by
  cases r with
  | block asStatement => cases asStatement <;> cases h <;> rfl
  | _ => cases h <;> rfl

/-- What can be called does what the rules do with calls that nest equally deep. -/
theorem Callees.upTo_carry (budget : Nat) : (Callees.upTo budget).Carry (Rule.build budget) := by
  induction budget with
  | zero => constructor <;> intros <;> rfl
  -- Each rule and each loop has its own lemma, given what it calls.
  | succ budget ih =>
    exact {
      routine := fun {rule} r hr mark => by
        rw [Rule.build, Routine.script_of_rule? hr]
        exact (fragment_runsAs ih r).unit
      imports := fun _ => (imports_runsAs ih).unit
      items := fun _ => (items_runsAs ih).unit
      members := fun _ => (members_runsAs ih).unit
      statements := fun _ count => (statements_runsAs ih count _).trans (bind_pure _)
      elements := fun _ form => (elements_runsAs ih form).unit
      operators := fun nested _ => operators_build ih nested
      prefixes := fun _ nested => prefixes_build ih nested
      accessors := fun _ => accessors_build ih
      furtherAccessors := fun _ inner => furtherAccessors_build ih inner
      unionTail := fun _ => (unionTail_runsAs ih).unit
      typeArgTail := fun _ => (typeArgTail_runsAs ih).unit
      discard := fun _ stops => (discard_runsAs ih stops).unit
      skipTo := fun _ stops => (skipTo_runsAs ih stops).unit }

/-- A routine does what its function of the grammar does. -/
theorem Routine.run_eq (r : Routine) (budget mark : Nat) :
    (do r.run (budget + 1); return true) = r.fragment.unit.build (Rule.build budget) mark :=
  (fragment_runsAs (Callees.upTo_carry budget) r).unit.symm

end ScriptTree
