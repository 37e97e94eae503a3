import ScriptTree.Proofs.Analyses
import ScriptTree.Proofs.Outlines

/-!
# How nodes begin

White space and comments in front of a node belong to what is around it, if they have been read when
the node is opened.  A rule that looks at the current token before it opens a node has read them,
and a rule that has consumed a token and not looked again has not.

`Script.Opens` walks through a script and keeps track of that.  Two rules do not look: a list of
types begins right behind its colon, bracket or comma, and a body right behind its head.  So the
white space there is their own, unless the caller has looked for something else before.

## Key results

- `Rule.opens`: which rules look before they open a node
- `parse_headed`: which nodes begin with a token that the grammar sees
-/

namespace ScriptTree

/-! ## Trees -/

namespace Kind

/-- A statement that goes on with a body right behind its condition. -/
def hasHead (k : Kind) : Bool := k == .ifStmt || k == .whileStmt || k == .forStmt

/-- A node that may begin with white space, as a child of a node that has a head or of another. -/
def mayLag (headed : Bool) (k : Kind) : Bool := k == .typeList || headed && k == .logicBlock

end Kind

namespace Tree

/-- The first leaf, if there is one, is a token that the grammar sees. -/
def Clear (leaves : List (Kind × String)) : Prop :=
  ∀ label ∈ leaves.head?, label.1.isSkipped = false

mutual

/-- The nodes of a tree begin with a token that the grammar sees, but for those that may not. -/
def Heads (headed : Bool) : Tree → Prop
  | leaf _ _ => True
  | node k cs => (k.mayLag headed = true ∨ Clear (leavesOf cs)) ∧ HeadsAll k.hasHead cs

/-- The same for the children of a node. -/
def HeadsAll (headed : Bool) : List Tree → Prop
  | [] => True
  | t :: ts => t.Heads headed ∧ HeadsAll headed ts

end

section

variable {headed : Bool} {ts us : List Tree}

/-- Trees have their heads in order one by one. -/
private theorem headsAll_iff : HeadsAll headed ts ↔ ∀ t ∈ ts, t.Heads headed := by
  induction ts with
  | nil => simp [HeadsAll]
  | cons t ts ih => simp [HeadsAll, ih]

/-- Two lists of trees have their heads in order if each has. -/
@[simp] theorem headsAll_append : HeadsAll headed (ts ++ us) ↔
    HeadsAll headed ts ∧ HeadsAll headed us := by
  simp only [headsAll_iff]
  exact List.forall_mem_append

/-- Of leaves nothing is asked. -/
private theorem headsAll_of_leaves (h : ∀ t ∈ ts, t.isNode = false) : HeadsAll headed ts := by
  rw [headsAll_iff]
  intro t ht
  cases t with
  | leaf k text => trivial
  | node k cs => cases h _ ht

/-- What begins well in any node does so in one with a head. -/
private theorem HeadsAll.of_false (h : HeadsAll false ts) : HeadsAll headed ts := by
  rw [headsAll_iff] at h ⊢
  intro t ht
  cases t with
  | leaf k text => trivial
  | node k cs =>
    obtain ⟨hk, hcs⟩ := h _ ht
    refine ⟨hk.imp_left fun hlag => ?_, hcs⟩
    have htypes : k = .typeList := by simpa [Kind.mayLag] using hlag
    simp [Kind.mayLag, htypes]

end

end Tree

/-! ## Scripts -/

/-- Where a script stands. -/
structure Stance where
  /-- The skipped tokens in front of the current one have been read. -/
  ready : Bool
  /-- They had been read when the frame was begun. -/
  led : Bool
  /-- The frame is that of a node with a head. -/
  headed : Bool

/-- The stance after a step, by whether the skipped tokens have been read. -/
def Stance.now (x : Stance) (ready : Bool) : Stance := { x with ready }

@[simp] theorem Stance.ready_now (x : Stance) (ready : Bool) : (x.now ready).ready = ready := rfl
@[simp] theorem Stance.led_now (x : Stance) (ready : Bool) : (x.now ready).led = x.led := rfl
@[simp] theorem Stance.headed_now (x : Stance) (ready : Bool) :
    (x.now ready).headed = x.headed := rfl
@[simp] theorem Stance.now_now (x : Stance) (ready ready' : Bool) :
    (x.now ready).now ready' = x.now ready' := rfl

namespace Rule

/-- Where a rule may be called: one that opens a node before it looks only where the caller has
    looked, one that makes a node of what is there already only where that begins well. -/
@[simp] def Enters (x : Stance) : Rule → Prop
  | body => x.ready = true ∨ x.headed = true
  | chain | accessors false => x.led = true ∧ x.headed = false
  | block | param | typeDecl | member | recordProp | operand => x.ready = true
  | _ => True

/-- Rules that end with a look at the next token. -/
@[simp] def settles : Rule → Bool
  | typeList | unionTail => true
  | _ => false

end Rule

/-- The script opens nodes where they may begin, and `post` holds of whether it has looked at its
    end. -/
def Script.Opens : Script → Stance → (Bool → Prop) → Prop
  | .done _, x, post => post x.ready
  | .fail _, _, _ => True
  | .look _ next, x, post => ∀ k, (next k).Opens (x.now true) post
  | .text next, x, post => ∀ text, (next text).Opens (x.now true) post
  | .stopped next, x, post => ∀ b, (next b).Opens (x.now true) post
  | .exhausted next, x, post => ∀ b, (next b).Opens x post
  | .bump next, x, post => next.Opens (x.now false) post
  | .flush next, x, post => next.Opens (x.now true) post
  | .complain _ next, x, post => next.Opens (x.now true) post
  | .remark _ next, x, post => next.Opens (x.now true) post
  | .node k body next, x, post => (x.ready = true ∨ k.mayLag x.headed = true) ∧
      body.Opens ⟨x.ready, x.ready, k.hasHead⟩ fun ready => next.Opens (x.now ready) post
  | .group body next, x, post =>
      body.Opens ⟨x.ready, x.ready, false⟩ fun ready => next.Opens (x.now ready) post
  | .wrap k body next, x, post => x.led = true ∧ x.headed = false ∧ k.hasHead = false ∧
      body.Opens x fun ready => next.Opens (x.now ready) post
  | .deeper body next, x, post =>
      body.Opens x (fun ready => (next true).Opens (x.now ready) post) ∧ (next false).Opens x post
  -- Whether the closer was there is not known.
  | .enclosed _ _ _ body next, x, post =>
      body.Opens (x.now false) fun _ => next.Opens (x.now false) post
  | .call rule next, x, post => rule.Enters x ∧ ∀ b, (next b).Opens (x.now rule.settles) post

/-! ## Runs -/

namespace State

variable {g : Setting} {x : Stance} {ready : Bool} {s s' s₁ : State}

/-- Whether a state is settled depends on the tokens ahead only. -/
theorem Settled.congr (h : s.Settled) (hrest : s'.rest = s.rest) : s'.Settled := by
  rw [Settled, hrest]
  exact h

/-- Where a state is settled, the labels ahead begin with one that the grammar sees. -/
theorem Settled.clear (h : s.Settled) : Tree.Clear (s.rest.map Token.label) := by
  intro label hlabel
  rw [List.head?_map, Option.mem_map] at hlabel
  obtain ⟨t, ht, rfl⟩ := hlabel
  obtain ⟨ts, hrest⟩ := List.head?_eq_some_iff.mp ht
  exact h t ts hrest

/-- A complaint leaves a settled state. -/
private theorem settled_complain {c : Complaint} (h : s.complain g c = .ok s') : s'.Settled := by
  obtain ⟨p, d, rfl, -⟩ := complain_eq_ok h
  exact (settled_skip (g := g) (s := s)).congr (reportAt_rest _ _)

/-- The state is as the stance says, and the nodes of the frame begin as they may. -/
structure Headed (x : Stance) (s : State) : Prop where
  ready : x.ready = true → s.Settled
  led : x.led = true → Tree.Clear s.yield
  frame : Tree.HeadsAll x.headed s.frame.toList

/-- Steps that add leaves only. -/
theorem Headed.step (h : s.Headed x) (hyield : s'.yield = s.yield) (hsweeps : s.Sweeps s')
    (hready : ready = true → s'.Settled) : s'.Headed (x.now ready) where
  ready := hready
  led hled := hyield ▸ h.led hled
  frame := by
    obtain ⟨ls, hframe, hls⟩ := hsweeps
    rw [hframe, Tree.headsAll_append]
    exact ⟨h.frame, Tree.headsAll_of_leaves hls⟩

/-- Where the skipped tokens have been read, a new frame begins with the current token. -/
theorem Headed.emptied (h : s.Headed x) (headed : Bool) :
    ({ s.drain with frame := #[] } : State).Headed ⟨x.ready, x.ready, headed⟩ where
  ready hready := (h.ready hready).congr rfl
  led hready := by
    have hyield : ({ s.drain with frame := #[] } : State).yield = s.rest.map Token.label := by
      simp [yield, drain]
    rw [hyield]
    exact (h.ready hready).clear
  frame := trivial

/-- If all that is to come begins with a token, so does the frame. -/
private theorem clear_of_yield {s : State} (h : Tree.Clear s.yield) :
    Tree.Clear (Tree.leavesOf s.frame.toList) := by
  intro label hlabel
  refine h label ?_
  rw [yield, List.head?_append, Option.mem_def.mp hlabel]
  rfl

/-- What was made in a frame of its own is put behind the frame of before. -/
theorem Headed.placed (h : s.Headed x) {f : Array Tree} {ts : List Tree}
    (hframe : f.toList = s.drain.frame.toList ++ ts)
    (hyield : ({ s₁ with frame := f } : State).yield = s.yield)
    (hts : Tree.HeadsAll x.headed ts) (hready : ready = true → s₁.Settled) :
    ({ s₁ with frame := f } : State).Headed (x.now ready) where
  ready hr := (hready hr).congr rfl
  led hled := hyield ▸ h.led hled
  frame := by
    obtain ⟨ls, hdrained, hls⟩ := sweeps_drain s
    show Tree.HeadsAll x.headed f.toList
    rw [hframe, hdrained, Tree.headsAll_append, Tree.headsAll_append]
    exact ⟨⟨h.frame, Tree.headsAll_of_leaves hls⟩, hts⟩

end State

variable {g : Setting}

/-- What a rule does where it may be called. -/
def Rule.Headed (rules : Rule → State → Reply) : Prop :=
  ∀ rule x s a s', rules rule s = .ok (a, s') → rule.Enters x → s.Headed x →
    s'.Headed (x.now rule.settles)

/-- From the state the script opens nodes where they may begin, and what that shows of the outcome
    is what is claimed. -/
def Script.KeepsHeads (script : Script) (s : State) (goal : Bool → State → Prop) : Prop :=
  ∃ x post, script.Opens x post ∧ s.Headed x ∧
    ∀ a ready s', post ready → s'.Headed (x.now ready) → goal a s'

namespace Script.KeepsHeads

variable {script next body : Script} {s s' s₁ : State} {goal goal' : Bool → State → Prop}

/-- The heads may be kept for a weaker goal. -/
theorem mono (h : script.KeepsHeads s goal) (hgoal : ∀ a s', goal a s' → goal' a s') :
    script.KeepsHeads s goal' := by
  obtain ⟨x, post, hopens, hs, hshown⟩ := h
  exact ⟨x, post, hopens, hs, fun a ready s' hpost hs' => hgoal a s' (hshown a ready s' hpost hs')⟩

/-- The script goes on from a stance that differs in whether the skipped tokens have been read. -/
private theorem now {x : Stance} {ready : Bool} {post : Bool → Prop}
    (hopens : script.Opens (x.now ready) post) (hs : s.Headed (x.now ready))
    (hgoal : ∀ a ready s', post ready → s'.Headed (x.now ready) → goal a s') :
    script.KeepsHeads s goal := ⟨x.now ready, post, hopens, hs, hgoal⟩

/-- All steps but the question whether a resource ran out read the skipped tokens. -/
theorem step (hstep : Step g script s next s') (h : script.KeepsHeads s goal) :
    next.KeepsHeads s' goal := by
  obtain ⟨x, post, hopens, hs, hgoal⟩ := h
  have hyield := hstep.lasting State.yield_lasting
  cases hstep with
  -- Looking and skipping settle the state, and leave the heads of the frame.
  | look hlook =>
    exact now (hopens _) (hs.step hyield (State.sweeps_stepwise.look hlook)
      fun _ => State.settled_of_look hlook) hgoal
  | text | stopped =>
    exact now (hopens _) (hs.step hyield (State.sweeps_of_frame State.skip_frame)
      fun _ => State.settled_skip) hgoal
  | exhausted => exact ⟨x, post, hopens _, hs, hgoal⟩
  | flush =>
    have hsweeps : s.Sweeps (s.skip g).drain :=
      (State.sweeps_of_frame State.skip_frame).trans (State.sweeps_drain _)
    exact now hopens (hs.step hyield hsweeps fun _ => State.settled_skip.congr rfl) hgoal
  -- A complaint settles the state, too.
  | complain hcomplain =>
    exact now hopens (hs.step hyield (State.sweeps_stepwise.complain hcomplain)
      fun _ => State.settled_complain hcomplain) hgoal
  | remark problem =>
    exact now hopens (hs.step hyield (State.sweeps_stepwise.remark problem)
      fun _ => State.settled_skip.congr (State.reportAt_rest _ _)) hgoal

/-- After a token nothing is known of what is skipped next. -/
theorem bump (hbump : s.bump g = .ok s') (h : (Script.bump next).KeepsHeads s goal) :
    next.KeepsHeads s' goal := by
  obtain ⟨x, post, hopens, hs, hgoal⟩ := h
  exact now hopens (hs.step (State.yield_lasting.bump hbump) (State.sweeps_stepwise.bump hbump)
    (by simp)) hgoal

/-- A node begins where the skipped tokens have been read, or is one that may lag. -/
theorem node (g : Setting) {k : Kind} (h : (Script.node k body next).KeepsHeads s goal) :
    body.KeepsHeads { s.drain with frame := #[] } fun _ s₁ =>
      s₁.yield = ({ s.drain with frame := #[] } : State).yield →
        next.KeepsHeads { s₁ with frame := s.drain.frame.push (.node k s₁.frame.toList) } goal := by
  obtain ⟨x, post, ⟨hbegins, hopens⟩, hs, hgoal⟩ := h
  refine ⟨_, _, hopens, hs.emptied k.hasHead, fun _ ready s₁ hnext h₁ hkept => ?_⟩
  refine now hnext (hs.placed (Array.toList_push ..)
    ((State.yield_lasting (g := g)).pushNode k hkept) ?_ h₁.ready) hgoal
  refine ⟨⟨?_, h₁.frame⟩, trivial⟩
  obtain hready | hlag := hbegins
  · exact .inr (State.clear_of_yield (h₁.led hready))
  · exact .inl hlag

/-- The body of a group keeps the heads from an empty frame on, and its frame then joins the one
    outside. -/
theorem group (g : Setting) (h : (Script.group body next).KeepsHeads s goal) :
    body.KeepsHeads { s.drain with frame := #[] } fun _ s₁ =>
      s₁.yield = ({ s.drain with frame := #[] } : State).yield →
        next.KeepsHeads { s₁ with frame := s.drain.frame ++ s₁.frame } goal := by
  obtain ⟨x, post, hopens, hs, hgoal⟩ := h
  refine ⟨_, _, hopens, hs.emptied false, fun _ ready s₁ hnext h₁ hkept => ?_⟩
  exact now hnext (hs.placed (Array.toList_append ..)
    ((State.yield_lasting (g := g)).appendFrame hkept) h₁.frame.of_false h₁.ready) hgoal

/-- A node around what is there begins as that does. -/
theorem wrap {k : Kind} (h : (Script.wrap k body next).KeepsHeads s goal) :
    body.KeepsHeads s fun _ s₁ =>
      next.KeepsHeads { s₁ with frame := #[.node k s₁.frame.toList] } goal := by
  obtain ⟨x, post, ⟨hled, hheaded, hk, hopens⟩, hs, hgoal⟩ := h
  refine ⟨_, _, hopens, hs, fun _ ready s₁ hnext h₁ => ?_⟩
  -- The wrapped node leaves the state as ready as it was.
  have hwrap : ({ s₁ with frame := #[.node k s₁.frame.toList] } : State).yield =
      [] ++ s₁.yield := State.yield_withFrame (by simp)
  have hframe : Tree.HeadsAll k.hasHead s₁.frame.toList := by
    rw [hk, ← hheaded]
    exact h₁.frame
  refine now hnext
    { ready := fun hready => (h₁.ready hready).congr rfl
      led := fun hled => ?_
      frame := ⟨⟨.inr (State.clear_of_yield (h₁.led hled)), hframe⟩, trivial⟩ } hgoal
  rw [hwrap]
  exact h₁.led hled

/-- To ask for a level changes nothing that the heads depend on. -/
theorem entered {x : Stance} {granted : Bool} (henter : s.enter g = (granted, s₁))
    (hs : s.Headed x) : s₁.Headed x :=
  hs.step (State.yield_enter henter) (State.sweeps_of_frame (State.enter_frame henter))
    fun hready => (hs.ready hready).congr (State.enter_rest henter)

/-- A level that was refused keeps the heads for what follows. -/
theorem refused {next : Bool → Script} (henter : s.enter g = (false, s₁))
    (h : (Script.deeper body next).KeepsHeads s goal) : (next false).KeepsHeads s₁ goal := by
  obtain ⟨x, post, ⟨-, hopens⟩, hs, hgoal⟩ := h
  exact ⟨x, post, hopens, entered henter hs, hgoal⟩

/-- On a level that was granted the heads are kept, and after it was left. -/
theorem granted {next : Bool → Script} (henter : s.enter g = (true, s₁))
    (h : (Script.deeper body next).KeepsHeads s goal) :
    body.KeepsHeads s₁ fun _ s₂ => (next true).KeepsHeads s₂.leave goal := by
  obtain ⟨x, post, ⟨hopens, -⟩, hs, hgoal⟩ := h
  refine ⟨x, _, hopens, entered henter hs, fun _ ready s₂ hnext h₂ => ?_⟩
  exact now hnext (h₂.step State.yield_leave (State.sweeps_of_frame rfl)
    fun hready => (h₂.ready hready).congr rfl) hgoal

/-- Between the delimiters the heads are kept, and after the closer was read or found missing. -/
theorem enclosed {d : Delimiter} {construct : String} {ifEmpty : Option Problem}
    (hopen : s.openDelimiter g d = .ok s₁)
    (h : (Script.enclosed d construct ifEmpty body next).KeepsHeads s goal) :
    body.KeepsHeads s₁ fun b s₂ => ∀ s₃ s₄, s₂.closeDelimiter g d construct = .ok s₃ →
      s₃.closeEmpty g ifEmpty b ((s.skip g).frontSpan g) = .ok s₄ → next.KeepsHeads s₄ goal := by
  obtain ⟨x, post, hopens, hs, hgoal⟩ := h
  -- The opener has been read, so the frame is no longer ready.
  have h₁ : s₁.Headed (x.now false) :=
    hs.step ((State.yield_lasting.openDelimiter hopen).trans State.yield_skip)
      ((State.sweeps_of_frame State.skip_frame).trans (State.sweeps_stepwise.openDelimiter hopen))
      (by simp)
  refine ⟨_, _, hopens, h₁, fun b ready s₂ hnext h₂ s₃ s₄ hclose hempty => ?_⟩
  have h₃ : s₃.Headed (x.now false) := h₂.step (State.yield_lasting.closeDelimiter hclose)
    (State.sweeps_stepwise.closeDelimiter hclose) (by simp)
  exact now hnext (h₃.step (State.yield_lasting.closeEmpty hempty)
    (State.sweeps_stepwise.closeEmpty hempty) (by simp)) hgoal

/-- A rule that was called keeps the heads for what follows, since all rules do. -/
theorem call {rules : Rule → State → Reply} (hrules : Rule.Headed rules) {rule : Rule}
    {next : Bool → Script} {b : Bool} (hcall : rules rule s = .ok (b, s₁))
    (h : (Script.call rule next).KeepsHeads s goal) : (next b).KeepsHeads s₁ goal := by
  obtain ⟨x, post, ⟨henters, hopens⟩, hs, hgoal⟩ := h
  exact now (hopens b) (hrules _ _ _ _ _ hcall henters hs) hgoal

end Script.KeepsHeads

/-- Where a script opens nodes shows with what they begin. -/
def Script.headAnalysis {rules : Rule → State → Reply} (hrules : Rule.Headed rules)
    (hyield : ∀ rule s a s', rules rule s = .ok (a, s') → s'.yield = s.yield) :
    Script.Analysis g rules where
  Fine := KeepsHeads
  Last _ := True
  Before s s' := s'.yield = s.yield
  lasting := State.yield_lasting
  before := hyield
  back _ _ := trivial
  outer _ := trivial
  done := fun ⟨x, _, hopens, hs, hgoal⟩ => hgoal _ x.ready _ hopens hs
  step hstep _ := .step hstep
  bump hbump _ := .bump hbump
  node h := (h.node g).mono fun _ _ hnext hbody _ => hnext (run_yield hyield hbody)
  group h := (h.group g).mono fun _ _ hnext hbody _ => hnext (run_yield hyield hbody)
  wrap h := h.wrap.mono fun _ _ hnext _ _ => hnext
  refused henter _ := .refused henter
  granted henter h := (h.granted henter).mono fun _ _ hnext _ _ => hnext
  enclosed hopen h := (h.enclosed hopen).mono fun _ _ hnext _ s₃ s₄ hclose hempty _ =>
    hnext s₃ s₄ hclose hempty
  call hcall _ := .call hrules hcall

/-- A script that opens nodes where they may begin keeps the nodes as they are to be. -/
theorem Script.run_headed {rules : Rule → State → Reply} (hrules : Rule.Headed rules)
    (hyield : ∀ rule s a s', rules rule s = .ok (a, s') → s'.yield = s.yield) {script : Script}
    {x : Stance} {post : Bool → Prop} {s s' : State} {a : Bool} (hopens : script.Opens x post)
    (hrun : script.run g rules s = .ok (a, s')) (h : s.Headed x) :
    ∃ ready, post ready ∧ s'.Headed (x.now ready) := by
  have hkeeps : script.KeepsHeads s fun _ s' => ∃ ready, post ready ∧ s'.Headed (x.now ready) :=
    ⟨x, post, hopens, h, fun _ ready _ hpost hs => ⟨ready, hpost, hs⟩⟩
  exact run_sound (headAnalysis hrules hyield) hkeeps hrun trivial

/-! ## Steps -/

namespace Fragment

variable {α β : Type} {x : Stance} {post : Bool → Prop}

/-- A script that is done ends as it stands. -/
@[simp] theorem opens_done {answer : Bool} : (Script.done answer).Opens x post ↔ post x.ready :=
  Iff.rfl

/-- Fragments in sequence open what they open in sequence. -/
@[simp] theorem opens_bind (m : Fragment α) (f : α → Fragment β) (next : β → Script) :
    ((m >>= f) next).Opens x post ↔ (m fun a => f a next).Opens x post := Iff.rfl

/-- Handing on a value is no look and opens nothing. -/
@[simp] theorem opens_pure (a : α) (next : α → Script) :
    ((pure a : Fragment α) next).Opens x post ↔ (next a).Opens x post := Iff.rfl

/-- A choice opens what the branch opens that is taken. -/
@[simp] theorem opens_ite (c : Prop) [Decidable c] (m n : Fragment α) (next : α → Script) :
    ((if c then m else n) next).Opens x post ↔
      if c then (m next).Opens x post else (n next).Opens x post := by
  split <;> rfl

/-- A lookahead reads the white space in front of the current token. -/
@[simp] theorem opens_ahead (n : Nat) (next : Kind → Script) :
    (ahead n next).Opens x post ↔ ∀ k, (next k).Opens (x.now true) post := Iff.rfl

/-- A look at the current token reads the white space in front of it. -/
@[simp] theorem opens_current (next : Kind → Script) :
    (current next).Opens x post ↔ ∀ k, (next k).Opens (x.now true) post := Iff.rfl

/-- A look at the current text reads the white space in front of it. -/
@[simp] theorem opens_currentText (next : String → Script) :
    (currentText next).Opens x post ↔ ∀ text, (next text).Opens (x.now true) post := Iff.rfl

/-- To see whether the parse is at its end is a look. -/
@[simp] theorem opens_stopped (next : Bool → Script) :
    (stopped next).Opens x post ↔ ∀ b, (next b).Opens (x.now true) post := Iff.rfl

/-- To see whether steps are left is no look. -/
@[simp] theorem opens_exhausted (next : Bool → Script) :
    (exhausted next).Opens x post ↔ ∀ b, (next b).Opens x post := Iff.rfl

/-- Behind a token that was consumed nothing has been read. -/
@[simp] theorem opens_bump (next : Unit → Script) :
    (bump next).Opens x post ↔ (next ()).Opens (x.now false) post := Iff.rfl

/-- Flushing reads the white space in front of the current token. -/
@[simp] theorem opens_flush (next : Unit → Script) :
    (flush next).Opens x post ↔ (next ()).Opens (x.now true) post := Iff.rfl

/-- A complaint is about the current token, so it is a look. -/
@[simp] theorem opens_complain (problem : Problem) (detail expected : Option String)
    (next : Unit → Script) :
    (complain problem detail expected next).Opens x post ↔ (next ()).Opens (x.now true) post :=
  Iff.rfl

/-- A complaint is about the current token, so it is a look. -/
@[simp] theorem opens_missing (problem : Problem) (what : String) (next : Unit → Script) :
    (missing problem what next).Opens x post ↔ (next ()).Opens (x.now true) post := Iff.rfl

/-- A warning is about the current token, so it is a look. -/
@[simp] theorem opens_remark (problem : Problem) (next : Unit → Script) :
    (remark problem next).Opens x post ↔ (next ()).Opens (x.now true) post := Iff.rfl

/-- A node is opened after a look, unless it is one that may lag. -/
@[simp] theorem opens_node (k : Kind) (body : Fragment Unit) (next : Unit → Script) :
    (node k body next).Opens x post ↔ (x.ready = true ∨ k.mayLag x.headed = true) ∧
      body.unit.Opens ⟨x.ready, x.ready, k.hasHead⟩ fun ready =>
        (next ()).Opens (x.now ready) post := Iff.rfl

/-- A group may be opened at any time, and is led by a token if there was a look. -/
@[simp] theorem opens_group (body : Fragment Unit) (next : Unit → Script) :
    (group body next).Opens x post ↔ body.unit.Opens ⟨x.ready, x.ready, false⟩ fun ready =>
      (next ()).Opens (x.now ready) post := Iff.rfl

/-- What wraps begins where the group began, so that must have been led by a token. -/
@[simp] theorem opens_wrap (k : Kind) (body : Fragment Unit) (next : Unit → Script) :
    (wrap k body next).Opens x post ↔ x.led = true ∧ x.headed = false ∧ k.hasHead = false ∧
      body.unit.Opens x fun ready => (next ()).Opens (x.now ready) post := Iff.rfl

/-- A level is no look, granted or not. -/
@[simp] theorem opens_deeper (body : Fragment Unit) (next : Bool → Script) :
    (deeper body next).Opens x post ↔
      body.unit.Opens x (fun ready => (next true).Opens (x.now ready) post) ∧
        (next false).Opens x post := Iff.rfl

/-- Neither behind the opener nor behind the closer anything has been read. -/
@[simp] theorem opens_enclosed (d : Delimiter) (construct : String) (body : Fragment Unit)
    (next : Unit → Script) :
    (enclosed d construct body next).Opens x post ↔
      body.unit.Opens (x.now false) fun _ => (next ()).Opens (x.now false) post := Iff.rfl

/-- As `opens_enclosed`. -/
@[simp] theorem opens_enclosedNonempty (d : Delimiter) (construct : String) (ifEmpty : Problem)
    (body : Fragment Bool) (next : Unit → Script) :
    (enclosedNonempty d construct ifEmpty body next).Opens x post ↔
      body.script.Opens (x.now false) fun _ => (next ()).Opens (x.now false) post := Iff.rfl

/-- A rule is entered as it stands and leaves what it settles. -/
@[simp] theorem opens_ask (rule : Rule) (next : Bool → Script) :
    (ask rule next).Opens x post ↔
      rule.Enters x ∧ ∀ b, (next b).Opens (x.now rule.settles) post := Iff.rfl

/-- A rule is entered as it stands and leaves what it settles. -/
@[simp] theorem opens_call (rule : Rule) (next : Unit → Script) :
    (call rule next).Opens x post ↔
      rule.Enters x ∧ (next ()).Opens (x.now rule.settles) post := by
  simp [call, Script.Opens]

/-! ## Combinations -/

/-- A test for a kind is a look. -/
@[simp] theorem opens_isAt (k : Kind) (next : Bool → Script) :
    (isAt k next).Opens x post ↔
      (next true).Opens (x.now true) post ∧ (next false).Opens (x.now true) post :=
  forall_beq_iff (P := fun b => (next b).Opens (x.now true) post) k

/-- A test for a set is a look. -/
@[simp] theorem opens_isAtAny (set : TokenSet) (next : Bool → Script) :
    (isAtAny set next).Opens x post ↔ ∀ k, (next (set.contains k)).Opens (x.now true) post :=
  Iff.rfl

/-- Either the token was consumed, or it was looked at. -/
@[simp] theorem opens_eat (k : Kind) (next : Bool → Script) :
    (eat k next).Opens x post ↔
      (next true).Opens (x.now false) post ∧ (next false).Opens (x.now true) post := by
  simp [eat]

/-- Either the token was consumed, or it was looked at. -/
@[simp] theorem opens_optionally (k : Kind) (next : Unit → Script) :
    (optionally k next).Opens x post ↔
      (next ()).Opens (x.now false) post ∧ (next ()).Opens (x.now true) post := by
  simp [optionally]

/-- Either the token was consumed, or it was looked at. -/
@[simp] theorem opens_expect (k : Kind) (what : String) (next : Bool → Script) :
    (expect k what next).Opens x post ↔
      (next true).Opens (x.now false) post ∧ (next false).Opens (x.now true) post := by
  simp [expect]

/-- Either the token was consumed, or it was looked at. -/
@[simp] theorem opens_require (k : Kind) (what : String) (next : Unit → Script) :
    (require k what next).Opens x post ↔
      (next ()).Opens (x.now false) post ∧ (next ()).Opens (x.now true) post := by
  simp [require]

/-- Either the name was consumed, or what is there was looked at. -/
@[simp] theorem opens_identifier (what : String) (next : Unit → Script) :
    (identifier what next).Opens x post ↔
      (next ()).Opens (x.now false) post ∧ (next ()).Opens (x.now true) post := by
  simp [identifier]

/-- The assertion about where a rule begins is a look. -/
@[simp] theorem opens_entered (k : Kind) (next : Unit → Script) :
    (entered k next).Opens x post ↔ (next ()).Opens (x.now true) post := by
  constructor
  · intro h
    simpa using h k
  · intro h k'
    dsimp only
    split
    · exact h
    · trivial

end Fragment

namespace Grammar

open Fragment

variable {x : Stance} {post : Bool → Prop}

/-- The look at whether a function literal begins is a look, so what follows may open a node. -/
private theorem opens_atFnLiteral {next : Bool → Script}
    (h : ∀ b, (next b).Opens (x.now true) post) : (atFnLiteral next).Opens x post := by
  simp only [atFnLiteral, opens_bind, opens_ahead]
  intro k
  split <;> simp [h]

/-- The look at whether a record begins is a look, so what follows may open a node. -/
private theorem opens_atRecordBody {next : Bool → Script}
    (h : ∀ b, (next b).Opens (x.now true) post) : (atRecordBody next).Opens x post := by
  simp [atRecordBody, h]

/-- The look at which accessor comes is a look, so what follows may open a node. -/
private theorem opens_accessorHere {next : Option Accessor → Script}
    (h : ∀ a, (next a).Opens (x.now true) post) : (accessorHere next).Opens x post := by
  simp only [accessorHere, opens_bind, opens_current]
  intro k
  split <;> simp [h]

/-- The name behind a dot may end with or without a look ahead. -/
private theorem opens_memberName (after : String) {next : Unit → Script}
    (h : ∀ ready, (next ()).Opens (x.now ready) post) : (memberName after next).Opens x post := by
  simp [memberName, h]

/-- A list in delimiters may end with or without a look ahead. -/
private theorem opens_delimited (form : ListForm) {next : Unit → Script}
    (h : ∀ ready, (next ()).Opens (x.now ready) post) : (delimited form next).Opens x post := by
  simp [delimited, Fragment.unit, h]

/-- An accessor opens its node right after the look that found it. -/
private theorem opens_accessor (a : Accessor) {next : Unit → Script} (hready : x.ready = true)
    (h : ∀ ready, (next ()).Opens (x.now ready) post) : (accessor a next).Opens x post := by
  unfold accessor
  rw [opens_node]
  refine ⟨.inl hready, ?_⟩
  cases a with
  | field => exact opens_memberName "`.`" h
  | static => exact opens_memberName "`::`" h
  | index => simp [Fragment.unit, h]
  | arguments => exact opens_delimited .callArgs h
  | nonNull => exact h false

/-- What a member declares, after its modifiers. -/
private theorem opens_declaration (k : Kind) {x : Stance} {post : Bool → Prop}
    (hready : x.ready = true) (h : ∀ ready, post ready) :
    ((match k with
      | .kwFunction => do
        call .fnDecl
        optionally .semiColon
      | .identifier => do
        attrDecl
        optionally .semiColon
      | _ => do
        missing .expectedIdentifier "an attribute or function declaration"
        optionally .semiColon : Fragment Unit) fun _ => .done true).Opens x post := by
  split <;> simp [attrDecl, ascription, unit, hready, h]

end Grammar

/-! ## The rules

One lemma for each rule. -/

/-- A rule that opens nodes where they may begin, and ends with a look if it settles. -/
def Rule.IsHeaded (rule : Rule) : Prop :=
  ∀ {x : Stance}, rule.Enters x →
    rule.script.Opens x fun ready => rule.settles = true → ready = true

private theorem Rule.opens_program : Rule.IsHeaded .program := by
  intro x h
  simp [script, Grammar.program, Fragment.unit]

private theorem Rule.opens_imports : Rule.IsHeaded .imports := by
  intro x h
  simp [script, Grammar.imports, Fragment.unit]

private theorem Rule.opens_items : Rule.IsHeaded .items := by
  intro x h
  simp [script, Grammar.items, Fragment.unit]

private theorem Rule.opens_importDecl : Rule.IsHeaded .importDecl := by
  intro x h
  simp [script, Grammar.importDecl, Fragment.unit]

private theorem Rule.opens_fnDecl : Rule.IsHeaded .fnDecl := by
  intro x h
  simp [script, Grammar.fnDecl, Fragment.unit]

private theorem Rule.opens_typeDecl : Rule.IsHeaded .typeDecl := by
  intro x h
  have hready : x.ready = true := h
  simp [script, Grammar.typeDecl, Fragment.unit, hready]

private theorem Rule.opens_body : Rule.IsHeaded .body := by
  intro x h
  have hbody : x.ready = true ∨ Kind.logicBlock.mayLag x.headed = true := by
    simpa [Enters, Kind.mayLag] using h
  simp [script, Grammar.body, Fragment.unit, hbody]

private theorem Rule.opens_block : Rule.IsHeaded .block := by
  intro x h
  have hready : x.ready = true := h
  simp [script, Grammar.block, Fragment.unit, Fragment.script, hready]

private theorem Rule.opens_param : Rule.IsHeaded .param := by
  intro x h
  have hready : x.ready = true := h
  simp [script, Grammar.param, Grammar.ascription, Fragment.unit, hready]

private theorem Rule.opens_recordProp : Rule.IsHeaded .recordProp := by
  intro x h
  have hready : x.ready = true := h
  simp [script, Grammar.recordProp, Fragment.unit, hready]

private theorem Rule.opens_operand : Rule.IsHeaded .operand := by
  intro x h
  have hready : x.ready = true := h
  simp [script, Grammar.operand, Grammar.member, Fragment.unit, Kind.hasHead,
    hready]

private theorem Rule.opens_chain : Rule.IsHeaded .chain := by
  intro x h
  obtain ⟨hled, hheaded⟩ : x.led = true ∧ x.headed = false := h
  simp [script, Grammar.chain, Grammar.unary, Fragment.unit, Kind.hasHead, hled,
    hheaded]

private theorem Rule.opens_ifStmt (terminated : Bool) : Rule.IsHeaded (.ifStmt terminated) := by
  intro x h
  simp [script, Grammar.ifStmt, Grammar.condition, Fragment.unit, Kind.hasHead]

private theorem Rule.opens_initializer : Rule.IsHeaded .initializer := by
  intro x h
  simp [script, Grammar.initializer, Fragment.unit]

private theorem Rule.opens_expr : Rule.IsHeaded .expr := by
  intro x h
  simp [script, Grammar.expr, Fragment.unit]

private theorem Rule.opens_prefixes (count : Nat) : Rule.IsHeaded (.prefixes count) := by
  intro x h
  simp [script, Grammar.prefixes, Grammar.prefixOperand, Fragment.unit]

private theorem Rule.opens_typeList : Rule.IsHeaded .typeList := by
  intro x h
  simp [script, Grammar.typeList, Fragment.unit, Kind.mayLag]

private theorem Rule.opens_unionTail : Rule.IsHeaded .unionTail := by
  intro x h
  simp [script, Grammar.unionTail, Fragment.unit]

private theorem Rule.opens_typeName : Rule.IsHeaded .typeName := by
  intro x h
  simp [script, Grammar.typeName, Grammar.typeArgs, Fragment.unit]

private theorem Rule.opens_typeArgTail : Rule.IsHeaded .typeArgTail := by
  intro x h
  simp [script, Grammar.typeArgTail, Fragment.unit]

private theorem Rule.opens_discard (stops : TokenSet) : Rule.IsHeaded (.discard stops) := by
  intro x h
  simp [script, Grammar.discard, Fragment.unit]

private theorem Rule.opens_skipTo (stops : TokenSet) : Rule.IsHeaded (.skipTo stops) := by
  intro x h
  simp [script, Grammar.skipTo, Fragment.unit]

private theorem Rule.opens_fnTail : Rule.IsHeaded .fnTail := by
  intro x h
  simp [script, Grammar.fnTail, Grammar.delimited, Fragment.unit]

private theorem Rule.opens_elements (form : ListForm) : Rule.IsHeaded (.elements form) := by
  intro x h
  cases form <;>
    simp [script, Grammar.elements, Fragment.unit, ListForm.element]

private theorem Rule.opens_primary : Rule.IsHeaded .primary := by
  intro x h
  simp only [script, Grammar.primary, Fragment.unit, Fragment.opens_bind,
    Fragment.opens_current]
  intro k
  split
  case h_1 => simp [Grammar.namePrimary, Grammar.delimited, Fragment.unit]
  case h_5 =>
    rw [Fragment.opens_bind]
    refine Grammar.opens_atFnLiteral fun b => ?_
    simp [Fragment.unit]
  all_goals simp [Grammar.delimited, Fragment.unit]

private theorem Rule.opens_item : Rule.IsHeaded .item := by
  intro x h
  simp only [script, Grammar.item, Fragment.unit, Fragment.opens_bind,
    Fragment.opens_current]
  intro k
  split <;> simp [Fragment.setAside, Fragment.unit]

private theorem Rule.opens_members : Rule.IsHeaded .members := by
  intro x h
  simp only [script, Grammar.members, Fragment.unit, Fragment.opens_bind,
    Fragment.opens_stopped, Fragment.opens_ite, Fragment.opens_current]
  intro stopped
  split
  · simp
  intro k
  split <;> simp [Fragment.setAside, Fragment.unit]

private theorem Rule.opens_statements (seen : Bool) : Rule.IsHeaded (.statements seen) := by
  intro x h
  simp only [script, Grammar.statements, Fragment.script, Fragment.opens_bind,
    Fragment.opens_stopped, Fragment.opens_ite, Fragment.opens_current]
  intro stopped
  split
  · simp
  intro k
  split <;> simp [Grammar.recoverStatement, Fragment.setAside, Fragment.unit]

private theorem Rule.opens_statement : Rule.IsHeaded .statement := by
  intro x h
  simp only [script, Grammar.statement, Fragment.unit, Fragment.opens_bind,
    Fragment.opens_deeper, Fragment.opens_current]
  -- Only the look at a record has branches of its own.
  refine ⟨fun k => ?_, by simp⟩
  split
  case h_1 =>
    rw [Fragment.opens_bind]
    refine Grammar.opens_atRecordBody fun b => ?_
    simp [Grammar.exprStmt, Fragment.unit]
  all_goals
    simp [Grammar.exprStmt, Grammar.whileStmt, Grammar.forStmt, Grammar.varStmt,
      Grammar.missingVariable, Grammar.returnStmt, Grammar.recoverStatement, Grammar.condition,
      Fragment.setAside, Fragment.unit, Enters, Kind.hasHead]

private theorem Rule.opens_member : Rule.IsHeaded .member := by
  intro x h
  have hready : x.ready = true := h
  simp only [script, Grammar.typeMember, Fragment.unit, Fragment.opens_node, hready,
    Fragment.opens_bind, Fragment.opens_current]
  -- Modifiers may be followed by a declaration of each kind.
  refine ⟨.inl trivial, fun k => ?_⟩
  split
  all_goals
    simp only [Fragment.opens_bind, Fragment.opens_bump, Fragment.opens_optionally,
      Fragment.opens_current]
  · exact ⟨fun _ => Grammar.opens_declaration _ rfl (by simp),
      fun _ => Grammar.opens_declaration _ rfl (by simp)⟩
  · exact ⟨fun _ => Grammar.opens_declaration _ rfl (by simp),
      fun _ => Grammar.opens_declaration _ rfl (by simp)⟩
  · exact fun _ => Grammar.opens_declaration _ rfl (by simp)

private theorem Rule.opens_accessors (wrapped : Bool) : Rule.IsHeaded (.accessors wrapped) := by
  intro x h
  simp only [script, Grammar.accessors, Fragment.unit, Fragment.opens_bind]
  refine Grammar.opens_accessorHere fun a => ?_
  -- Each accessor is a node around what was read.
  cases a with
  | none => simp
  | some a =>
    have hmore {post : Bool → Prop} (hpost : ∀ ready, post ready) :
        (Grammar.accessor a fun _ => Fragment.call (.accessors true) fun _ => .done true).Opens
          (x.now true) post := by
      refine Grammar.opens_accessor a rfl fun ready => ?_
      rw [Fragment.opens_call]
      exact ⟨trivial, hpost _⟩
    cases wrapped with
    | true => exact hmore (by simp)
    | false =>
      obtain ⟨hled, hheaded⟩ : x.led = true ∧ x.headed = false := h
      exact ⟨hled, hheaded, rfl, hmore (by simp)⟩

/-- Rules open nodes where they may begin, and some end with a look at the next token. -/
theorem Rule.opens {x : Stance} (rule : Rule) (h : rule.Enters x) :
    rule.script.Opens x fun ready => rule.settles = true → ready = true := by
  -- Of the rules only some promise to settle; each has its lemma.
  have hrule : rule.IsHeaded := by
    cases rule with
    | program => exact opens_program
    | imports => exact opens_imports
    | items => exact opens_items
    | importDecl => exact opens_importDecl
    | fnDecl => exact opens_fnDecl
    | typeDecl => exact opens_typeDecl
    | body => exact opens_body
    | block => exact opens_block
    | param => exact opens_param
    | recordProp => exact opens_recordProp
    | operand => exact opens_operand
    | chain => exact opens_chain
    | ifStmt terminated => exact opens_ifStmt terminated
    | initializer => exact opens_initializer
    | expr => exact opens_expr
    | prefixes count => exact opens_prefixes count
    | typeList => exact opens_typeList
    | unionTail => exact opens_unionTail
    | typeName => exact opens_typeName
    | typeArgTail => exact opens_typeArgTail
    | discard stops => exact opens_discard stops
    | skipTo stops => exact opens_skipTo stops
    | fnTail => exact opens_fnTail
    | elements form => exact opens_elements form
    | primary => exact opens_primary
    | item => exact opens_item
    | members => exact opens_members
    | statements seen => exact opens_statements seen
    | statement => exact opens_statement
    | member => exact opens_member
    | accessors wrapped => exact opens_accessors wrapped
  exact hrule h

/-- A rule keeps the nodes as they are to be. -/
theorem Rule.run_headed (budget : Nat) : Rule.Headed (Rule.run g budget) := by
  intro rule x s a s' hrun henters h
  induction budget generalizing rule x s a s' with
  | zero => cases hrun
  | succ budget ih =>
    have hrules : Rule.Headed (Rule.run g budget) := fun _ _ _ _ _ => ih _ _ _ _ _
    obtain ⟨ready, hready, h'⟩ :=
      Script.run_headed hrules (fun _ _ _ _ => Rule.run_yield) (rule.opens henters) hrun h
    exact ⟨fun hsettles => h'.ready (hready hsettles), h'.led, h'.frame⟩

/-! ## Trees -/

namespace Tree

mutual

/-- What the children of a node may begin with, by the kinds of both. -/
private theorem Heads.of_mem_preorder {headed : Bool} {start : Nat} {e : Element} : ∀ {t : Tree},
    t.Heads headed → e ∈ t.preorder start → HeadsAll e.kind.hasHead e.tree.children
  | leaf _ _, _, he => by cases he
  | node k cs, h, he => by
    rw [preorder] at he
    obtain rfl | he := List.mem_cons.mp he
    · exact h.2
    · exact HeadsAll.of_mem_preorderOf h.2 he

/-- All nodes below have their heads in order too. -/
private theorem HeadsAll.of_mem_preorderOf {headed : Bool} {start : Nat} {e : Element} :
    ∀ {ts : List Tree}, HeadsAll headed ts → e ∈ preorderOf start ts →
      HeadsAll e.kind.hasHead e.tree.children
  | [], _, he => by cases he
  | t :: ts, h, he => by
    rw [preorderOf] at he
    obtain he | he := List.mem_append.mp he
    · exact Heads.of_mem_preorder h.1 he
    · exact HeadsAll.of_mem_preorderOf h.2 he

end

/-- A node that follows the grammar is not empty, unless it is a program. -/
private theorem leaves_ne_nil (t : Tree) (hfollows : t.significant.Follows)
    (hroot : t.isNode = true → t.kind ≠ .program) : t.leaves ≠ [] := by
  cases t with
  | leaf k text => exact List.cons_ne_nil _ _
  | node k cs =>
    rw [significant, erase, follows_node] at hfollows
    obtain ⟨hmatches, hchildren⟩ := hfollows
    -- A node without children follows only as the root.
    cases cs with
    | nil => exact absurd (kind_of_matches_nil hmatches) (hroot rfl)
    | cons c cs =>
      have hc := leaves_ne_nil c (follows_erase_of_mem hchildren c List.mem_cons_self)
        (not_program_of_mem hmatches c List.mem_cons_self)
      rw [leaves_node, leavesOf]
      exact fun hnil => hc (List.append_eq_nil_iff.mp hnil).1

end Tree

/-- In any parse the nodes below the program begin as they may. -/
theorem parse_heads {o : Options} {source : String} {p : Parsed}
    (hparse : parse o source = .ok (.ok p)) :
    ∀ e ∈ p.tree.preorder 0, Tree.HeadsAll e.kind.hasHead e.tree.children := by
  obtain ⟨a, s, hrun, hfinish⟩ := parseLexed_eq_ok_iff.mp hparse
  obtain ⟨-, -, htree, -⟩ := State.finish_eq_ok hfinish
  -- A run begins with nothing read and the root ready.
  have hinitial : (State.initial (Token.lex source) o.stepLimit).Headed ⟨false, false, false⟩ :=
    ⟨by simp, by simp, trivial⟩
  have hframe : Tree.HeadsAll false s.frame.toList :=
    (Rule.run_headed _ .program _ _ _ _ hrun trivial hinitial).frame
  intro e he
  rw [htree, Tree.preorder] at he
  obtain rfl | he := List.mem_cons.mp he
  · exact hframe
  · exact Tree.HeadsAll.of_mem_preorderOf hframe he

/-- The nodes of a program begin with a token that the grammar sees, but for lists of types, and for
    bodies in conditionals and loops: these begin with the white space in front of them. -/
theorem parse_headed (o : Options) (source : String) (p : Parsed) (hrecovery : o.recovery = true)
    (hparse : parse o source = .ok (.ok p)) (hclean : ∀ d ∈ p.diagnostics, d.isError = false) :
    ∀ e ∈ p.tree.preorder 0, ∀ c ∈ e.nodes, c.kind = .typeList ∨
      (c.kind = .logicBlock ∧ (e.kind = .ifStmt ∨ e.kind = .whileStmt ∨ e.kind = .forStmt)) ∨
      ∃ label rest, c.tree.leaves = label :: rest ∧ label.1.isSkipped = false := by
  -- The tree follows the grammar, so every node has a leaf.
  obtain ⟨-, hfollows⟩ := parse_significant_follows hrecovery hparse hclean
  intro e he c hc
  obtain ⟨hchild, hnode⟩ := List.mem_filter.mp hc
  have hmem := (Element.of_mem_row hchild).1
  have hheads := Tree.headsAll_iff.mp (parse_heads hparse e he) _ hmem
  obtain ⟨-, hfollows⟩ := Tree.preorder_follows hfollows 0 e he
  have hfilled : c.tree.leaves ≠ [] := by
    obtain ⟨t, start⟩ := e
    cases t with
    | leaf k text => cases hmem
    | node k cs =>
      rw [Tree.significant, Tree.erase, Tree.follows_node] at hfollows
      exact Tree.leaves_ne_nil c.tree (Tree.follows_erase_of_mem hfollows.2 _ hmem)
        (Tree.not_program_of_mem hfollows.1 _ hmem)
  obtain ⟨t, start⟩ := c
  cases t with
  | leaf k text => cases hnode
  | node k cs =>
    -- The node may lag, or its first leaf is significant.
    obtain hlag | hclear := hheads.1
    · rw [Kind.mayLag, Bool.or_eq_true, Bool.and_eq_true, beq_iff_eq, beq_iff_eq] at hlag
      refine hlag.imp id fun hbody => .inl ⟨hbody.2, ?_⟩
      simpa [Kind.hasHead, or_assoc] using hbody.1
    · obtain ⟨label, rest, hleaves⟩ := List.exists_cons_of_ne_nil hfilled
      refine .inr (.inr ⟨label, rest, hleaves, hclear label ?_⟩)
      rw [← Tree.leaves_node (k := k), hleaves]
      rfl

/-- The type of a variable begins with the blank behind the colon. -/
theorem parse_headed_variable : ∃ p, parse .default "var b: c;" = .ok (.ok p) ∧
    (∀ d ∈ p.diagnostics, d.isError = false) ∧
    ∀ e ∈ p.tree.preorder 0, ∀ c ∈ e.nodes, c.kind = .typeList ∨
      (c.kind = .logicBlock ∧ (e.kind = .ifStmt ∨ e.kind = .whileStmt ∨ e.kind = .forStmt)) ∨
      ∃ label rest, c.tree.leaves = label :: rest ∧ label.1.isSkipped = false := by
  have hparse : parse .default "var b: c;" = .ok (.ok ⟨.node .program [.node .varStmt
      [.leaf .kwVar "var", .leaf .whitespace " ", .leaf .identifier "b", .leaf .colon ":",
        .node .typeList [.leaf .whitespace " ", .node .typeName [.leaf .identifier "c"]],
        .leaf .semiColon ";"]], []⟩) := by decide +kernel
  have hclean : ∀ d ∈ ([] : List Diagnostic), d.isError = false := by simp
  exact ⟨_, hparse, hclean, parse_headed .default _ _ rfl hparse hclean⟩

/-- A body may begin with white space, and nothing is reported. -/
theorem not_startsSignificant : ∃ p, parse .default "if(a) \x7b\x7d" = .ok (.ok p) ∧
    p.diagnostics = [] ∧ ¬ ∀ e ∈ p.tree.preorder 0, e.kind ≠ .program →
      ∃ label rest, e.tree.leaves = label :: rest ∧ label.1.isSkipped = false := by
  have hparse : parse .default "if(a) \x7b\x7d" = .ok (.ok ⟨.node .program [.node .ifStmt
      [.leaf .kwIf "if", .leaf .lParen "(", .node .nameRef [.leaf .identifier "a"],
        .leaf .rParen ")", .node .logicBlock
          [.leaf .whitespace " ", .leaf .lCurly "\x7b", .leaf .rCurly "\x7d"]]], []⟩) := by
    decide +kernel
  refine ⟨_, hparse, rfl, fun hstarts => ?_⟩
  obtain ⟨label, rest, hleaves, hlabel⟩ := hstarts ⟨.node .logicBlock
    [.leaf .whitespace " ", .leaf .lCurly "\x7b", .leaf .rCurly "\x7d"], 5⟩ (by decide) (by decide)
  obtain rfl : (Kind.whitespace, " ") = label := (List.cons.inj hleaves).1
  cases hlabel

end ScriptTree
