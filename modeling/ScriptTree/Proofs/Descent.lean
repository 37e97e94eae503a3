import ScriptTree.Proofs.Safety

/-!
# Calls go down

`Rule.safe` asks of each call in a script that it comes closer to the end of the input or goes down
in rank.  Here this is carried over to the calls that a run makes.  `Rule.calls` lists them, each
with the state that it starts from.  There is no need for the run to succeed, nor for the tokens to
be in order: what is said of a call holds up to the fault that ends the run, if there is one.

## Key results

- `Script.run_eq_of_calls`: a run depends on nothing but the calls that are listed
- `Rule.calls_below`, `Rule.calls_descend`: each call weighs less than the rule that makes it
- `Rule.run_eq_of_weight_lt`: so a bound on the nesting of calls makes no difference
-/

namespace ScriptTree

variable {g : Setting}

/-! ## The calls of a run -/

section callsAfter

variable {α β : Type} {x x' : Except Fault α} {f f' : α → Except Fault β}
  {calls : α → List (Rule × State)}

/-- The calls made with the result of something, if it succeeds. -/
def callsAfter (x : Except Fault α) (calls : α → List (Rule × State)) : List (Rule × State) :=
  match x with
  | .ok a => calls a
  | .error _ => []

/-- The calls after a computation are those after its answer. -/
private theorem mem_callsAfter {c : Rule × State} :
    c ∈ callsAfter x calls ↔ ∃ a, x = .ok a ∧ c ∈ calls a := by
  cases x <;> simp [callsAfter]

/-- Two sequences agree if they agree on what is reached. -/
private theorem bind_eq_of_ok (hx : x' = x) (hf : ∀ a, x = .ok a → f' a = f a) :
    (x' >>= f') = (x >>= f) := by
  subst hx
  cases x' with
  | ok a => exact hf a rfl
  | error fault => rfl

end callsAfter

/-- The rules that a run of a script calls, each with the state that it starts from. -/
def Script.calls (g : Setting) (rules : Rule → State → Reply) :
    Script → State → List (Rule × State)
  | .done _, _ | .fail _, _ => []
  | .look n next, s => callsAfter (s.look g n) fun (kind, s) => (next kind).calls g rules s
  | .text next, s => (next (s.skip g).frontText).calls g rules (s.skip g)
  | .stopped next, s => (next (s.skip g).isStopped).calls g rules (s.skip g)
  | .exhausted next, s => (next s.exhausted.isSome).calls g rules s
  | .bump next, s => callsAfter (s.bump g) fun s => next.calls g rules s
  | .flush next, s => next.calls g rules (s.skip g).drain
  | .complain complaint next, s =>
    callsAfter (s.complain g complaint) fun s => next.calls g rules s
  | .remark problem next, s => next.calls g rules (s.remark g problem)
  | .node kind body next, s =>
    let outer := s.drain
    let inner := { outer with frame := #[] }
    body.calls g rules inner ++ callsAfter (body.run g rules inner) fun (_, s) =>
      next.calls g rules { s with frame := outer.frame.push (.node kind s.frame.toList) }
  | .group body next, s =>
    let outer := s.drain
    let inner := { outer with frame := #[] }
    body.calls g rules inner ++ callsAfter (body.run g rules inner) fun (_, s) =>
      next.calls g rules { s with frame := outer.frame ++ s.frame }
  | .wrap kind body next, s =>
    body.calls g rules s ++ callsAfter (body.run g rules s) fun (_, s) =>
      next.calls g rules { s with frame := #[.node kind s.frame.toList] }
  | .deeper body next, s =>
    match s.enter g with
    | (false, s) => (next false).calls g rules s
    | (true, s) =>
      body.calls g rules s ++ callsAfter (body.run g rules s) fun (_, s) =>
        (next true).calls g rules s.leave
  | .enclosed delimiter construct ifEmpty body next, s =>
    callsAfter (s.openDelimiter g delimiter) fun s₁ =>
      body.calls g rules s₁ ++ callsAfter (body.run g rules s₁) fun (answer, s₂) =>
        callsAfter (s₂.closeDelimiter g delimiter construct) fun s₃ =>
          callsAfter (s₃.closeEmpty g ifEmpty answer ((s.skip g).frontSpan g)) fun s₄ =>
            next.calls g rules s₄
  | .call rule next, s =>
    (rule, s) :: callsAfter (rules rule s) fun (answer, s) => (next answer).calls g rules s

/-- The rules that a run of a rule calls. -/
def Rule.calls (g : Setting) : (budget : Nat) → Rule → State → List (Rule × State)
  | 0, _, _ => []
  | budget + 1, rule, s => rule.script.calls g (Rule.run g budget) s

/-- The list is complete: a run depends on nothing but these calls. -/
theorem Script.run_eq_of_calls {rules rules' : Rule → State → Reply} {script : Script} {s : State}
    (h : ∀ c ∈ script.calls g rules s, rules' c.1 c.2 = rules c.1 c.2) :
    script.run g rules' s = script.run g rules s := by
  -- Induction on the script: each step is the same, and the calls after it are among those of the
  -- whole.
  induction script generalizing s with
  | done answer => rfl
  | fail fault => rfl
  | look n next ih =>
    exact bind_eq_of_ok rfl fun r hr => ih r.1 fun c hc => h c (mem_callsAfter.mpr ⟨r, hr, hc⟩)
  | text next ih => exact ih _ h
  | stopped next ih => exact ih _ h
  | exhausted next ih => exact ih _ h
  | bump next ih =>
    exact bind_eq_of_ok rfl fun s₁ hs => ih fun c hc => h c (mem_callsAfter.mpr ⟨s₁, hs, hc⟩)
  | flush next ih => exact ih h
  | complain x next ih =>
    exact bind_eq_of_ok rfl fun s₁ hs => ih fun c hc => h c (mem_callsAfter.mpr ⟨s₁, hs, hc⟩)
  | remark problem next ih => exact ih h
  | node k body next ihbody ihnext =>
    obtain ⟨hbody, hnext⟩ := List.forall_mem_append.mp h
    exact bind_eq_of_ok (ihbody hbody) fun r hr => ihnext fun c hc =>
      hnext c (mem_callsAfter.mpr ⟨r, hr, hc⟩)
  | group body next ihbody ihnext =>
    obtain ⟨hbody, hnext⟩ := List.forall_mem_append.mp h
    exact bind_eq_of_ok (ihbody hbody) fun r hr => ihnext fun c hc =>
      hnext c (mem_callsAfter.mpr ⟨r, hr, hc⟩)
  | wrap k body next ihbody ihnext =>
    obtain ⟨hbody, hnext⟩ := List.forall_mem_append.mp h
    exact bind_eq_of_ok (ihbody hbody) fun r hr => ihnext fun c hc =>
      hnext c (mem_callsAfter.mpr ⟨r, hr, hc⟩)
  -- A refused level leaves the calls of the rest only.
  | deeper body next ihbody ihnext =>
    rw [Script.calls] at h
    rw [Script.run, Script.run]
    generalize s.enter g = entered at h ⊢
    obtain ⟨granted, s₁⟩ := entered
    cases granted with
    | false => exact ihnext false h
    | true =>
      obtain ⟨hbody, hnext⟩ := List.forall_mem_append.mp h
      exact bind_eq_of_ok (ihbody hbody) fun r hr => ihnext true fun c hc =>
        hnext c (mem_callsAfter.mpr ⟨r, hr, hc⟩)
  -- The calls of the body come first, and then those after the closer.
  | enclosed d construct ifEmpty body next ihbody ihnext =>
    rw [run_enclosed_eq, run_enclosed_eq]
    refine bind_eq_of_ok rfl fun s₁ hs₁ => ?_
    have hinside := fun c hc => h c (mem_callsAfter.mpr ⟨s₁, hs₁, hc⟩)
    obtain ⟨hbody, hnext⟩ := List.forall_mem_append.mp hinside
    refine bind_eq_of_ok (ihbody hbody) fun r₂ hr₂ => ?_
    refine bind_eq_of_ok rfl fun s₃ hs₃ => ?_
    refine bind_eq_of_ok rfl fun s₄ hs₄ => ihnext fun c hc => hnext c ?_
    exact mem_callsAfter.mpr ⟨r₂, hr₂, mem_callsAfter.mpr ⟨s₃, hs₃,
      mem_callsAfter.mpr ⟨s₄, hs₄, hc⟩⟩⟩
  | call rule next ih =>
    obtain ⟨hcall, hnext⟩ := List.forall_mem_cons.mp h
    exact bind_eq_of_ok hcall fun r hr => ih r.1 fun c hc =>
      hnext c (mem_callsAfter.mpr ⟨r, hr, hc⟩)

/-! ## What can be said of a run -/

/-- The outcome is as `post` demands, if there is one, and each call is as `each` demands. -/
structure Observed {α : Type} (post : α → Prop) (each : Rule × State → Prop) (x : Except Fault α)
    (calls : List (Rule × State)) : Prop where
  ends : ∀ a, x = .ok a → post a
  calls : ∀ c ∈ calls, each c

namespace Observed

variable {α β : Type} {x : Except Fault α} {f : α → Except Fault β} {post : α → Prop}
  {post' : β → Prop} {each : Rule × State → Prop} {calls : List (Rule × State)}
  {next : α → List (Rule × State)}

/-- Something that calls nothing, and then the rest. -/
theorem bind (h : ∀ a, x = .ok a → Observed post' each (f a) (next a)) :
    Observed post' each (x >>= f) (callsAfter x next) where
  ends b hb := by
    obtain ⟨a, hx, hf⟩ := bind_eq_ok_iff.mp hb
    exact (h a hx).ends b hf
  calls c hc := by
    obtain ⟨a, hx, hc⟩ := mem_callsAfter.mp hc
    exact (h a hx).calls c hc

/-- One part after another. -/
theorem seq (h : Observed post each x calls)
    (hnext : ∀ a, x = .ok a → post a → Observed post' each (f a) (next a)) :
    Observed post' each (x >>= f) (calls ++ callsAfter x next) := by
  have hrest : Observed post' each (x >>= f) (callsAfter x next) :=
    bind fun a hx => hnext a hx (h.ends a hx)
  exact ⟨hrest.ends, List.forall_mem_append.mpr ⟨h.calls, hrest.calls⟩⟩

end Observed

/-! ## Outlooks along a run

Where lookaheads are not counted, an outlook says no more of a state than which tokens are ahead and
that the parse is over.  The operations keep it right on any tokens, as long as they succeed. -/

namespace State

variable {s s' : State} {v v' : Outlook} {k : Kind} {ks : List Kind}

/-- The outlook on all tokens ahead is right. -/
theorem sees_onto (s : State) : s.Sees .any (.onto s.rest) :=
  ⟨rfl, fun _ _ h => (by cases h), by simp [Outlook.onto], fun h => absurd rfl h⟩

/-- A parse that was over is over in any later state. -/
theorem Sees.later (h : s.Sees .any v) (hlater : s.Later g s')
    (hahead : v'.ahead = (Token.significant s'.rest).map (·.kind))
    (hended : v'.ended = true → v.ended = true) : s'.Sees .any v' where
  ahead := hahead
  shows _ _ h := by cases h
  ended ho := (h.ended (hended ho)).imp (fun hne hnone => hne (hlater.exhausted hnone))
    fun hhalted => (hlater.silent hhalted).1
  patience h := absurd rfl h

/-- A lookahead tells what is seen ahead. -/
private theorem Sees.looked {n : Nat} (h : s.Sees .any v) (hlook : s.look g n = .ok (k, s')) :
    k = v.kind n ∧ s'.Sees .any v.glance := by
  obtain ⟨-, hk, hs'⟩ := look_eq_ok_iff.mp hlook
  refine ⟨by rw [hk, Outlook.kind, h.ahead, List.getElem?_map],
    h.later (later_lasting.look hlook) ?_ id⟩
  rw [hs', skip_rest, significant_dropWhile]
  exact h.ahead

/-- Behind a token that was consumed the others are seen. -/
private theorem Sees.bumped (h : s.Sees .any v) (hahead : v.ahead = k :: ks)
    (hbump : s.bump g = .ok s') : s'.Sees .any (v.eat ks) := by
  obtain ⟨t, ts, hrest, ht, hks⟩ := h.rest_skip (g := g) hahead
  obtain ⟨u, us, hrest', rfl⟩ := bump_eq_ok_iff.mp hbump
  rw [hrest] at hrest'
  cases hrest'
  exact h.skip.consume hrest ht hahead hks

/-- After a complaint the same is seen, with one lookahead less. -/
private theorem Sees.complained {x : Complaint} (h : s.Sees .any v)
    (hcomplain : s.complain g x = .ok s') : s'.Sees .any (v.glance.stop (Mode.any = .strict)) := by
  refine h.later (later_lasting.complain hcomplain) ?_ (by simp [Outlook.stop, Outlook.glance])
  obtain ⟨p, d, rfl, -⟩ := complain_eq_ok hcomplain
  rw [reportAt_rest, skip_rest, significant_dropWhile]
  exact h.ahead

/-- Behind an opener the other tokens are seen. -/
theorem Sees.opened {d : Delimiter} (h : s.Sees .any v) (hahead : v.ahead = k :: ks)
    (hopen : s.openDelimiter g d = .ok s') : s'.Sees .any (v.eat ks) :=
  (h.skip.congr rfl rfl id rfl :
    State.Sees .any { s.skip g with delimiters := (d, (s.skip g).frontSpan g) :: _ } v).bumped
      hahead hopen

/-- A closer is consumed, or found missing. -/
theorem Sees.closed {d : Delimiter} {construct : String} (h : s.Sees .any v)
    (hclose : s.closeDelimiter g d construct = .ok s') :
    ∃ v', v.Shifts ⟨.none, 3, 0⟩ v' ∧ s'.Sees .any v' := by
  obtain ⟨found, s₁, hlook, hclosed⟩ := closeDelimiter_eq_ok hclose
  have hpopped : ({ s with delimiters := s.delimiters.tail } : State).Sees .any v :=
    h.congr rfl rfl id rfl
  obtain ⟨-, hsees⟩ := hpopped.looked hlook
  obtain ⟨-, hbump⟩ | ⟨-, p, dg, -, rfl⟩ := hclosed
  · cases hahead : v.ahead with
    | nil =>
      -- A closer that is consumed was ahead.
      obtain ⟨t, ts, hrest, -⟩ := bump_eq_ok_iff.mp hbump
      have hempty := hsees.isEmpty_ahead (g := g)
      rw [hrest] at hempty
      simp [Outlook.glance, hahead] at hempty
    | cons k ks =>
      exact ⟨v.eat ks, ((Outlook.Shifts.refl _).of_eat hahead).mono
        ⟨by decide, by decide, by decide⟩, hsees.bumped (v := v.glance) hahead hbump⟩
  · exact ⟨v.glance, (Outlook.Shifts.refl _).of_still rfl id (by simp [Outlook.glance]),
      hsees.later ((later_withPatience p).trans (later_reportAt g _ _ dg))
        (by rw [reportAt_rest]; exact hsees.ahead) id⟩

/-- After the report on an empty block the same is seen. -/
private theorem Sees.closedEmpty {ifEmpty : Option Problem} {answer : Bool} {opener : Span}
    (h : s.Sees .any v) (hempty : s.closeEmpty g ifEmpty answer opener = .ok s') :
    s'.Sees .any v := by
  obtain ⟨-, rfl⟩ | ⟨problem, -, -, hremark⟩ := closeEmpty_eq_ok_iff.mp hempty
  · exact h
  · obtain ⟨d, rfl, -⟩ := remarkSince_report hremark
    exact h.reportAt _ _

/-- Going deeper is refused only if that ends the parse. -/
theorem Sees.refused (h : s.Sees .any v) (henter : s.enter g = (false, s')) :
    s'.Sees .any (v.stop true) := by
  have hexhausted := exhausted_of_enter henter
  obtain ⟨-, rfl⟩ := enter_eq_false_iff.mp henter
  exact ⟨h.ahead, h.shows, fun _ => .inl hexhausted, h.patience⟩

/-- On a new level the same is seen, with full patience. -/
theorem Sees.granted (h : s.Sees .any v) (henter : s.enter g = (true, s')) :
    s'.Sees .any v.refill := by
  refine h.later (later_enter henter) ?_ id
  obtain ⟨-, rfl⟩ := enter_eq_true_iff.mp henter
  exact h.ahead

end State

/-! ## Scripts and rules -/

/-- The rule may be called, and weighs less than the limit. -/
def Rule.Below (limit : Nat) (rule : Rule) (s : State) : Prop :=
  ∃ v, s.Sees .any v ∧ rule.Ready v ∧ rule.weight v < limit

/-- The rule leads from one state to another as callers count on. -/
def Rule.Shifts (rule : Rule) (s s' : State) : Prop :=
  ∀ v, s.Sees .any v → rule.Ready v →
    ∃ v', v.Shifts (rule.effect v.ended (rule.begins v.ahead)) v' ∧ s'.Sees .any v'

/-- A run of a safe script ends as it should, if at all, and makes the calls that it may make. -/
theorem Script.run_observed {rules : Rule → State → Reply} {limit : Nat}
    (hrules : ∀ rule s a s', rules rule s = .ok (a, s') → rule.Shifts s s') {script : Script}
    {s : State} {v : Outlook} {post : Outlook → Prop} (hsafe : script.Safe ⟨.any, limit⟩ v post)
    (hsees : s.Sees .any v) :
    Observed (fun r => ∃ v', post v' ∧ r.2.Sees .any v') (fun c => c.1.Below limit c.2)
      (script.run g rules s) (script.calls g rules s) := by
  -- Induction on the script: the end sees what is promised, and each call on the way finds its rule
  -- ready.
  induction script generalizing s v post with
  | done answer =>
    refine ⟨fun r hr => ?_, by simp [Script.calls]⟩
    cases hr
    exact ⟨v, hsafe, hsees⟩
  | fail fault => exact hsafe.elim
  | look n next ih =>
    refine .bind fun r hlook => ?_
    obtain ⟨hk, hsees'⟩ := hsees.looked hlook
    exact ih r.1 (hk ▸ hsafe.2 (hsees.shows_kind n)) hsees'
  | text next ih => exact ih _ (hsafe _) hsees.skip
  | stopped next ih =>
    rw [Script.run, Script.calls]
    cases hstopped : (s.skip g).isStopped with
    | true => exact ih _ hsafe.1 (hsees.stopped hstopped)
    | false =>
      obtain ⟨hahead, hended⟩ := hsees.unstopped hstopped
      exact ih _ (hsafe.2 hahead hended) hsees.skip
  | exhausted next ih => exact ih _ (hsafe _) hsees
  | bump next ih =>
    obtain ⟨k, ks, hahead, hsafe⟩ := hsafe
    exact .bind fun s₁ hbump => ih hsafe (hsees.bumped hahead hbump)
  | flush next ih => exact ih hsafe ((hsees.skip (g := g)).congr rfl rfl id rfl)
  | complain x next ih =>
    exact .bind fun s₁ hcomplain => ih hsafe.2.2 (hsees.complained hcomplain)
  | remark problem next ih => exact ih hsafe.2 (hsees.skip.reportAt _ _)
  -- Nodes leave what the sight says of the tokens.
  | node k body next ihbody ihnext =>
    refine (ihbody hsafe (s := { s.drain with frame := #[] })
      (hsees.congr rfl rfl id rfl)).seq fun r _ hr => ?_
    obtain ⟨v', hsafe', hsees'⟩ := hr
    exact ihnext hsafe' (hsees'.congr rfl rfl id rfl)
  | group body next ihbody ihnext =>
    refine (ihbody hsafe (s := { s.drain with frame := #[] })
      (hsees.congr rfl rfl id rfl)).seq fun r _ hr => ?_
    obtain ⟨v', hsafe', hsees'⟩ := hr
    exact ihnext hsafe' (hsees'.congr rfl rfl id rfl)
  | wrap k body next ihbody ihnext =>
    refine (ihbody hsafe hsees).seq fun r _ hr => ?_
    obtain ⟨v', hsafe', hsees'⟩ := hr
    exact ihnext hsafe' (hsees'.congr rfl rfl id rfl)
  | deeper body next ihbody ihnext =>
    obtain ⟨granted, s₁, henter⟩ : ∃ granted s₁, s.enter g = (granted, s₁) := ⟨_, _, rfl⟩
    rw [Script.run, Script.calls, henter]
    cases granted with
    | false => exact ihnext _ hsafe.2 (hsees.refused henter)
    | true =>
      refine (ihbody hsafe.1 (hsees.granted henter)).seq fun r _ hr => ?_
      obtain ⟨v', hsafe', hsees'⟩ := hr
      exact ihnext _ hsafe' (hsees'.refill rfl rfl rfl rfl)
  -- Opener and closer each shift the sight, and the body in between runs as it is promised.
  | enclosed d construct ifEmpty body next ihbody ihnext =>
    obtain ⟨k, ks, hahead, hsafe⟩ := hsafe
    rw [run_enclosed_eq]
    refine .bind fun s₁ hopen => ?_
    refine (ihbody hsafe (hsees.opened hahead hopen)).seq fun r _ hr => ?_
    obtain ⟨v₂, ⟨-, hsafe₂⟩, hsees₂⟩ := hr
    refine .bind fun s₃ hclose => ?_
    obtain ⟨v₃, hshifts, hsees₃⟩ := hsees₂.closed hclose
    exact .bind fun s₄ hempty => ihnext (hsafe₂ v₃ hshifts) (hsees₃.closedEmpty hempty)
  | call rule next ih =>
    obtain ⟨hready, hweight, hsafe⟩ := hsafe
    -- What follows the call relies on the promise of the rule.
    have hrest : Observed (fun r => ∃ v', post v' ∧ r.2.Sees .any v')
        (fun c => c.1.Below limit c.2) ((Script.call rule next).run g rules s)
        (callsAfter (rules rule s) fun r => (next r.1).calls g rules r.2) := by
      refine .bind fun r hcall => ?_
      obtain ⟨v', hshifts, hsees'⟩ := hrules rule s r.1 r.2 hcall v hsees hready
      obtain ⟨v'', hgives, hsees''⟩ := hsees'.gives hshifts
      exact ih r.1 (hsafe r.1 v'' hgives) hsees''
    exact ⟨hrest.ends, List.forall_mem_cons.mpr ⟨⟨v, hsees, hready, hweight⟩, hrest.calls⟩⟩

namespace Rule

variable {m n budget : Nat} {rule : Rule} {s s' : State} {v : Outlook} {a : Bool}

/-- A rule does to any state what callers count on, if it does not go wrong. -/
theorem run_shifts (h : rule.run g budget s = .ok (a, s')) : rule.Shifts s s' :=
  run_induct (P := fun rule s _ s' => rule.Shifts s s')
    (fun _ hrules _ _ a s' hrun _ hsees hready =>
      (Script.run_observed hrules (safe .any hready) hsees).ends (a, s') hrun) h

/-- A rule calls only rules that may be called and weigh less. -/
theorem calls_below (hsees : s.Sees .any v) (hready : rule.Ready v) {c : Rule × State}
    (hc : c ∈ rule.calls g budget s) : c.1.Below (rule.weight v) c.2 := by
  cases budget with
  | zero => cases hc
  | succ budget =>
    exact (Script.run_observed (fun _ _ _ _ => run_shifts) (safe .any hready) hsees).calls c hc

/-- Only a rule that ends at once when the parse is over is lower than its rank. -/
private theorem height_cases (rule : Rule) (ended : Bool) :
    rule.height ended = rule.rank ∨ rule.yields = true ∧ ended = true := by
  unfold height
  split
  · next h => exact .inr (by simpa using h)
  · exact .inl rfl

/-- So each call has fewer tokens ahead, or goes to a rule of lower rank, or to one that ends at
    once since the parse is over. -/
theorem calls_descend (hready : rule.Ready (.onto s.rest)) {next : Rule}
    (hc : (next, s') ∈ rule.calls g budget s) :
    s'.distance < s.distance ∨ s'.distance = s.distance ∧ (next.rank < rule.rank ∨
      next.yields = true ∧ (s'.exhausted ≠ none ∨ s'.halted = true)) := by
  obtain ⟨v, hsees, -, hweight⟩ := calls_below s.sees_onto hready hc
  have hlength : v.ahead.length = s'.distance := by
    rw [hsees.ahead, List.length_map, State.distance]
  have hlength' : (Outlook.onto s.rest).ahead.length = s.distance := by
    rw [Outlook.onto, List.length_map, State.distance]
  have htop := rule.rank_lt_topLevel
  have hheight := rule.height_le_rank (Outlook.onto s.rest).ended
  simp only [weight, hlength, hlength', topLevel] at hweight htop
  obtain hlt | heq : s'.distance < s.distance ∨ s'.distance = s.distance := by omega
  · exact .inl hlt
  · refine .inr ⟨heq, ?_⟩
    obtain hrank | ⟨hyields, hended⟩ := next.height_cases v.ended
    · exact .inl (by omega)
    · exact .inr ⟨hyields, hsees.ended hended⟩

/-- Two bounds on the nesting of calls make no difference if both exceed the weight of the rule. -/
theorem run_eq_of_weight_lt (hsees : s.Sees .any v) (hready : rule.Ready v)
    (hm : rule.weight v < m) (hn : rule.weight v < n) : rule.run g m s = rule.run g n s := by
  -- The calls weigh less, so both bounds less one are enough for them.
  induction m generalizing n rule s v with
  | zero => exact absurd hm (Nat.not_lt_zero _)
  | succ m ih =>
    obtain ⟨n, rfl⟩ : ∃ k, n = k + 1 := ⟨n - 1, by omega⟩
    refine Script.run_eq_of_calls fun c hc => ?_
    have hcall : c ∈ rule.calls g (n + 1) s := hc
    obtain ⟨w, hsees', hready', hweight⟩ := calls_below hsees hready hcall
    exact ih hsees' hready' (by omega) (by omega)

end Rule

end ScriptTree
