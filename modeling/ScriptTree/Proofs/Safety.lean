import Mathlib
import ScriptTree.Proofs.Patience
import ScriptTree.Proofs.Succession

/-!
# Parses do not go wrong

A `Fault` is a broken promise of the grammar: a token consumed past the end, a rule entered on the
wrong token, a closer that meets the wrong opener, a span that runs backwards, a tree that does not
spell out the source.  No parse of a text ends in one of these.  What is left is patience that runs
out, and that takes a function or a type, and recovery from an error.

`Rule.safe` is about scripts and outlooks.  Here it is carried over to runs and states: `State.Sees`
ties a state to an outlook, and `State.Intact` is the rest of what a run relies on.

## Key results

- `Rule.run_ensures`: a rule that may be called does not go wrong
- `parseLexed_ensures`: neither does a parse
- `parse_ok_or_stalled`, `parse_ok_of_plain`: parses of texts
-/

namespace ScriptTree

/-- The outcome is as `post` demands.  Patience may run out only if lookaheads are not counted. -/
def Mode.Ensures {α : Type} (mode : Mode) (x : Except Fault α) (post : α → Prop) : Prop :=
  match x with
  | .ok a => post a
  | .error fault => mode = .any ∧ ∃ index, fault = .stalled index

namespace Mode.Ensures

variable {α β : Type} {mode : Mode} {x : Except Fault α} {f : α → Except Fault β}
  {post post' : α → Prop} {post'' : β → Prop}

/-- A value is as ensured. -/
theorem ok {a : α} (h : post a) : mode.Ensures (.ok a) post := h

/-- What the first part ensures is there for the second. -/
theorem bind (h : mode.Ensures x post)
    (hf : ∀ a, x = .ok a → post a → mode.Ensures (f a) post'') : mode.Ensures (x >>= f) post'' := by
  cases x with
  | ok a => exact hf a rfl h
  | error fault => exact h

/-- To ensure more is to ensure less. -/
theorem mono (h : mode.Ensures x post) (hpost : ∀ a, post a → post' a) :
    mode.Ensures x post' := by
  cases x with
  | ok a => exact hpost a h
  | error fault => exact h

/-- Something either succeeds or stalls. -/
theorem ok_or_stalled (h : mode.Ensures x post) :
    (∃ a, x = .ok a) ∨ mode = .any ∧ ∃ index, x = .error (.stalled index) := by
  cases x with
  | ok a => exact .inl ⟨a, rfl⟩
  | error fault =>
    obtain ⟨hmode, index, rfl⟩ := h
    exact .inr ⟨hmode, index, rfl⟩

end Mode.Ensures

/-- The tokens start one after the other, and none starts behind the end of the source.  Reports are
    told apart by where they start, so if errors end the parse, no two tokens may start together. -/
structure Mode.Orders (mode : Mode) (g : Setting) (ts : List Token) : Prop where
  sorted : ts.Pairwise (·.start ≤ ·.start)
  bounded : ∀ t ∈ ts, t.start ≤ g.sourceEnd
  apart : mode = .strict → ts.Pairwise (·.start < ·.start)
  inside : mode = .strict → ∀ t ∈ ts, t.start < g.sourceEnd

/-- Fewer tokens are as much in order. -/
theorem Mode.Orders.sublist {mode : Mode} {g : Setting} {ts us : List Token}
    (h : mode.Orders g us) (hsub : ts.Sublist us) : mode.Orders g ts where
  sorted := h.sorted.sublist hsub
  bounded t ht := h.bounded t (hsub.subset ht)
  apart hmode := (h.apart hmode).sublist hsub
  inside hmode t ht := h.inside hmode t (hsub.subset ht)

/-- Tokens that are not empty are in order, however the parse is meant to go. -/
private theorem Mode.orders_of_lt (mode : Mode) {g : Setting} {ts : List Token}
    (hsorted : ts.Pairwise (·.start < ·.start)) (hbounded : ∀ t ∈ ts, t.start < g.sourceEnd) :
    mode.Orders g ts :=
  ⟨hsorted.imp Nat.le_of_lt, fun t ht => Nat.le_of_lt (hbounded t ht), fun _ => hsorted,
    fun _ => hbounded⟩

namespace State

variable {g : Setting} {mode : Mode} {s s' : State} {v v' : Outlook} {bumps : Bool}

/-! ## States and outlooks -/

/-- The outlook is right about the state. -/
structure Sees (mode : Mode) (s : State) (v : Outlook) : Prop where
  ahead : v.ahead = (Token.significant s.rest).map (·.kind)
  shows : ∀ k ∈ v.ahead, mode.Shows k
  ended : v.ended = true → s.exhausted ≠ none ∨ s.halted = true
  patience : mode ≠ .any → fullPatience ≤ s.patience + v.spent

/-- The last report was about a token that has been consumed, or about the current one, if that is
    consumed next. -/
def Behind (g : Setting) (bumps : Bool) (s : State) : Prop :=
  ∀ o, s.reported = some o → o < s.front g ∨ bumps = true ∧ o = s.front g

/-- What a run relies on, apart from the outlook. -/
structure Intact (g : Setting) (mode : Mode) (bumps : Bool) (s : State) : Prop where
  strict : mode = .strict → g.recovery = false
  ordered : mode.Orders g s.rest
  openers : ∀ x ∈ s.delimiters, x.2.start ≤ g.sourceEnd
  /-- So no error is dropped that should halt the parse. -/
  behind : mode = .strict → s.halted = false → s.Behind g bumps

/-- It does no harm to allow that the current token is consumed next. -/
private theorem Behind.loosen (h : s.Behind g false) : s.Behind g bumps := fun o ho =>
  .inl ((h o ho).resolve_right (by simp))

/-- It does no harm to allow that the current token is consumed next. -/
private theorem Intact.loosen (h : s.Intact g mode false) : s.Intact g mode bumps :=
  ⟨h.strict, h.ordered, h.openers, fun hmode hrunning => (h.behind hmode hrunning).loosen⟩

/-- Other fields do not matter. -/
theorem Intact.congr (h : s.Intact g mode bumps) (hrest : s'.rest = s.rest)
    (hdelimiters : s'.delimiters = s.delimiters) (hhalted : s'.halted = s.halted)
    (hreported : s'.reported = s.reported) : s'.Intact g mode bumps := by
  refine ⟨h.strict, by rw [hrest]; exact h.ordered, by rw [hdelimiters]; exact h.openers,
    fun hmode hrunning o ho => ?_⟩
  rw [front_congr hrest]
  exact h.behind hmode (hhalted ▸ hrunning) o (hreported ▸ ho)

/-- The open delimiters may be any that start in the source. -/
private theorem Intact.withDelimiters (h : s.Intact g mode bumps) {ds : List (Delimiter × Span)}
    (hds : ∀ x ∈ ds, x.2.start ≤ g.sourceEnd) :
    ({ s with delimiters := ds } : State).Intact g mode bumps := by
  refine ⟨h.strict, h.ordered, hds, fun hmode hrunning o ho => ?_⟩
  have hfront : ({ s with delimiters := ds } : State).front g = s.front g := front_congr rfl
  rw [hfront]
  exact h.behind hmode hrunning o ho

/-- Skipping keeps a state intact. -/
theorem Intact.skip (h : s.Intact g mode bumps) : (s.skip g).Intact g mode bumps where
  strict := h.strict
  ordered := by rw [skip_rest]; exact h.ordered.sublist (List.dropWhile_sublist _)
  openers := by rw [skip_delimiters]; exact h.openers
  behind hmode hrunning o ho := by
    have hhalted : s.halted = false := by
      cases hhalted : s.halted with
      | false => rfl
      | true => rw [((later_skip g s).silent hhalted).1] at hrunning; cases hrunning
    rw [front_skip]
    exact h.behind hmode hhalted o (by rwa [skip_reported] at ho)

/-- The current token is in front of those after it. -/
theorem Intact.lt_front (h : s.Intact g mode bumps) (hmode : mode = .strict) {t : Token}
    {ts : List Token} (hrest : s.rest = t :: ts) (hlater : s'.rest <:+ ts) :
    t.start < s'.front g := by
  have hsorted := h.ordered.apart hmode
  rw [hrest] at hsorted
  rw [front, frontSpan, skip_rest]
  split
  · exact h.ordered.inside hmode t (by rw [hrest]; exact List.mem_cons_self)
  · next u us hu =>
    have hmem : u ∈ s'.rest :=
      (List.dropWhile_sublist _).subset (by rw [hu]; exact List.mem_cons_self)
    exact (List.pairwise_cons.mp hsorted).1 u (hlater.subset hmem)

/-- Consuming a token keeps a state intact, and the last report lies behind then. -/
theorem Intact.consume (h : s.Intact g mode bumps) {t : Token} {ts : List Token}
    (hrest : s.rest = t :: ts) (ht : t.kind.isSkipped = false) :
    (s.consume t ts).Intact g mode false := by
  have hordered := h.ordered
  rw [hrest] at hordered
  refine ⟨h.strict, hordered.sublist (List.sublist_cons_self t ts),
    by rw [consume_delimiters]; exact h.openers, fun hmode hrunning o ho => .inl ?_⟩
  rw [consume_halted] at hrunning
  rw [consume_reported] at ho
  have hfront : s.front g = t.start := by
    rw [front, frontSpan, skip_rest, hrest, List.dropWhile_cons_of_neg (by simp [ht])]
    rfl
  have hlt : t.start < (s.consume t ts).front g := h.lt_front hmode hrest List.suffix_rfl
  -- What was reported lies behind the token that is consumed now.
  obtain ho | ⟨-, rfl⟩ := h.behind hmode hrunning o ho
  · omega
  · omega

/-- An error about the current token halts a parse without recovery. -/
private theorem Intact.halted_reportAt (h : s.Intact g mode false) (hmode : mode = .strict)
    {d : Diagnostic} (herror : d.isError = true) : (s.reportAt g (s.front g) d).halted = true := by
  unfold reportAt
  split
  · next hdropped =>
    cases hrunning : s.halted with
    | true => rfl
    | false =>
      -- A report about the current token would have come before.
      have hreported : s.reported = some (s.front g) := by simpa [hrunning] using hdropped
      obtain hlt | ⟨hbumps, -⟩ := h.behind hmode hrunning _ hreported
      · exact absurd hlt (Nat.lt_irrefl _)
      · cases hbumps
  · simp [emit, h.strict hmode, herror]

/-- A report about the current token keeps a state intact. -/
theorem Intact.reportAt_front (h : s.Intact g mode false) {o : Nat} {d : Diagnostic}
    (ho : o = s.front g) (herror : d.isError = true) : (s.reportAt g o d).Intact g mode false := by
  subst ho
  refine ⟨h.strict, by rw [reportAt_rest]; exact h.ordered,
    by rw [reportAt_delimiters]; exact h.openers, fun hmode hrunning => ?_⟩
  rw [h.halted_reportAt hmode herror] at hrunning
  cases hrunning

/-- A report about an earlier token does not hide one about the current token. -/
private theorem Intact.reportAt_lt (h : s.Intact g mode false) {o : Nat}
    (ho : mode = .strict → o < s.front g) (d : Diagnostic) :
    (s.reportAt g o d).Intact g mode false := by
  refine ⟨h.strict, by rw [reportAt_rest]; exact h.ordered,
    by rw [reportAt_delimiters]; exact h.openers, fun hmode hrunning o' ho' => ?_⟩
  have hfront : (s.reportAt g o d).front g = s.front g := front_congr (reportAt_rest o d)
  -- The report goes through, so the state was not halted before.
  have hhalted : s.halted = false := by
    cases hhalted : s.halted with
    | false => rfl
    | true => rw [((later_reportAt g s o d).silent hhalted).1] at hrunning; cases hrunning
  rw [hfront]
  obtain ho' | rfl := reported_of_reportAt ho'
  · exact h.behind hmode hhalted o' ho'
  · exact .inl (ho hmode)

/-- A report about the current token is all right if that is consumed next. -/
theorem Intact.remark (h : s.Intact g mode false) (problem : Problem) :
    (s.remark g problem).Intact g mode true := by
  have hskip := h.skip
  have hfront : (s.remark g problem).front g = (s.skip g).front g :=
    front_congr (reportAt_rest _ _)
  refine ⟨h.strict, ?_, ?_, fun hmode hrunning o ho => ?_⟩
  · rw [State.remark, reportAt_rest]
    exact hskip.ordered
  · rw [State.remark, reportAt_delimiters]
    exact hskip.openers
  -- A report on a run that has halted leaves it halted, so this one was made while running.
  · have hhalted : (s.skip g).halted = false := by
      cases hhalted : (s.skip g).halted with
      | false => rfl
      | true =>
        rw [State.remark, ((later_reportAt g _ _ _).silent hhalted).1] at hrunning
        cases hrunning
    rw [hfront]
    obtain ho | rfl := reported_of_reportAt ho
    · exact .inl ((hskip.behind hmode hhalted o ho).resolve_right (by simp))
    · refine .inr ⟨rfl, ?_⟩
      rw [front, skip_skip]

/-- Skipping changes nothing of what is seen. -/
theorem Sees.skip (h : s.Sees mode v) : (s.skip g).Sees mode v where
  ahead := by rw [skip_rest, significant_dropWhile, h.ahead]
  shows := h.shows
  ended ho := by
    rw [skip_exhausted]
    exact (h.ended ho).imp_right fun hhalted => ((later_skip g s).silent hhalted).1
  patience hmode := by rw [skip_patience]; exact h.patience hmode

/-- Other fields do not matter. -/
theorem Sees.congr (h : s.Sees mode v) (hrest : s'.rest = s.rest)
    (hexhausted : s'.exhausted = s.exhausted) (hhalted : s.halted = true → s'.halted = true)
    (hpatience : s'.patience = s.patience) : s'.Sees mode v :=
  ⟨by rw [hrest]; exact h.ahead, h.shows,
    fun ho => by rw [hexhausted]; exact (h.ended ho).imp_right hhalted,
    by rw [hpatience]; exact h.patience⟩

/-- A report changes nothing of what is seen. -/
theorem Sees.reportAt (h : s.Sees mode v) (o : Nat) (d : Diagnostic) :
    (s.reportAt g o d).Sees mode v :=
  h.congr (reportAt_rest o d) (reportAt_exhausted o d)
    (fun hhalted => ((later_reportAt g s o d).silent hhalted).1) (reportAt_patience o d)

/-- Nothing is seen ahead exactly if nothing is left after skipping. -/
theorem Sees.isEmpty_ahead (h : s.Sees mode v) : v.ahead.isEmpty = (s.skip g).rest.isEmpty := by
  rw [h.ahead, ← reading_input_isEmpty, reading, List.isEmpty_map, List.isEmpty_map]

/-- A state with full patience is seen as refilled. -/
theorem Sees.refill (h : s.Sees mode v) (hrest : s'.rest = s.rest)
    (hexhausted : s'.exhausted = s.exhausted) (hhalted : s'.halted = s.halted)
    (hpatience : s'.patience = fullPatience) : s'.Sees mode v.refill :=
  ⟨by rw [hrest]; exact h.ahead, h.shows, by rw [hexhausted, hhalted]; exact h.ended,
    fun _ => Nat.le_of_eq hpatience.symm⟩

/-- After a rule, callers may count on what it gives. -/
theorem Sees.gives (h : s.Sees mode v') {rule : Rule}
    (hshifts : v.Shifts (rule.effect v.ended (rule.begins v.ahead)) v') :
    ∃ v'', rule.Gives mode v v'' ∧ s.Sees mode v'' := by
  by_cases hmode : mode = .any
  · -- Lookaheads are not counted, so none count.
    refine ⟨v'.refill, ⟨⟨hshifts.suffix, hshifts.ended, hshifts.sure, hshifts.moves,
      fun _ => Nat.zero_le _, fun _ => Nat.zero_le _⟩, fun _ => rfl⟩, h.ahead, h.shows, h.ended,
      fun h => absurd hmode h⟩
  · exact ⟨v', ⟨hshifts, fun h => absurd h hmode⟩, h⟩

/-- What is looked at is one of the tokens ahead, or the end. -/
theorem Sees.shows_kind (h : s.Sees mode v) (n : Nat) : mode.Shows (v.kind n) := by
  rw [Outlook.kind]
  cases hk : v.ahead[n]? with
  | none => exact fun _ => rfl
  | some k => exact h.shows k (List.mem_of_getElem? hk)

/-- A parse that was cut short may be known to be over. -/
theorem Sees.stop (h : s.Sees mode v) {b : Bool}
    (hb : b = true → s.exhausted ≠ none ∨ s.halted = true) : s.Sees mode (v.stop b) :=
  ⟨h.ahead, h.shows, fun hover => (Bool.or_eq_true_iff.mp hover).elim h.ended hb, h.patience⟩

/-- With tokens ahead, a parse is stopped by a limit or by an error. -/
theorem Sees.stopped (h : s.Sees mode v) (hstopped : (s.skip g).isStopped = true) :
    (s.skip g).Sees mode (v.stop !v.ahead.isEmpty) := by
  refine h.skip.stop fun hahead => ?_
  rw [h.isEmpty_ahead (g := g)] at hahead
  simp only [State.isStopped, Bool.or_eq_true, Option.isSome_iff_ne_none] at hstopped
  obtain (hempty | hexhausted) | hhalted := hstopped
  · rw [hempty] at hahead
    cases hahead
  · exact .inl hexhausted
  · exact .inr hhalted

/-- A parse that is not stopped has tokens ahead, and is not known to be over. -/
theorem Sees.unstopped (h : s.Sees mode v) (hstopped : (s.skip g).isStopped = false) :
    v.ahead ≠ [] ∧ v.ended = false := by
  simp only [State.isStopped, Bool.or_eq_false_iff, Option.isSome_eq_false_iff,
    Option.isNone_iff_eq_none] at hstopped
  obtain ⟨⟨hrest, hexhausted⟩, hhalted⟩ := hstopped
  -- Neither the input nor the run is at its end.
  constructor
  · rw [← h.isEmpty_ahead (g := g)] at hrest
    rintro hnil
    rw [hnil] at hrest
    cases hrest
  · cases hover : v.ended with
    | false => rfl
    | true =>
      obtain hne | hhalted' := (h.skip (g := g)).ended hover
      · exact absurd hexhausted hne
      · rw [hhalted] at hhalted'
        cases hhalted'

/-- The current token is the first one of the outlook. -/
theorem Sees.rest_skip (h : s.Sees mode v) {k : Kind} {ks : List Kind}
    (hahead : v.ahead = k :: ks) :
    ∃ t ts, (s.skip g).rest = t :: ts ∧ t.kind.isSkipped = false ∧
      ks = (Token.significant ts).map (·.kind) := by
  have hsees := (h.skip (g := g)).ahead
  rw [hahead] at hsees
  cases hrest : (s.skip g).rest with
  | nil => simp [hrest, Token.significant] at hsees
  | cons t ts =>
    have ht : t.kind.isSkipped = false := Token.isSkipped_of_dropWhile (skip_rest ▸ hrest)
    rw [hrest] at hsees
    simp [Token.significant, ht] at hsees
    exact ⟨t, ts, rfl, ht, by simp [Token.significant, hsees]⟩

/-- Behind a token that was consumed the others are seen. -/
theorem Sees.consume (h : s.Sees mode v) {t : Token} {ts : List Token} {k : Kind} {ks : List Kind}
    (hrest : s.rest = t :: ts) (ht : t.kind.isSkipped = false) (hahead : v.ahead = k :: ks)
    (hks : ks = (Token.significant ts).map (·.kind)) : (s.consume t ts).Sees mode (v.eat ks) where
  ahead := hks
  shows k' hk' := h.shows k' (by rw [hahead]; exact List.mem_cons_of_mem k hk')
  ended ho := by
    have hlater := later_consume (g := ⟨0, true, none⟩) hrest ht
    obtain hexhausted | hhalted := h.ended ho
    · exact .inl fun hnone => hexhausted (hlater.exhausted hnone)
    · exact .inr (hlater.silent hhalted).1
  patience _ := Nat.le_add_right _ _

/-! ## Operations -/

/-- A lookahead finds what is seen ahead, if there is patience for it. -/
theorem Intact.look (h : s.Intact g mode bumps) (hsees : s.Sees mode v)
    (hspent : v.spent < fullPatience) (n : Nat) :
    mode.Ensures (s.look g n) fun r => r.1 = v.kind n ∧ r.2.skip g = r.2 ∧
      r.2.Intact g mode bumps ∧ r.2.Sees mode v.glance := by
  -- A lookahead fails only where patience runs out, and the mode says whether it may.
  cases hlook : s.look g n with
  | error fault =>
    -- The patience is spent.
    unfold State.look at hlook
    dsimp only at hlook
    split at hlook
    · next hpatience =>
      cases hlook
      rw [skip_patience] at hpatience
      refine ⟨Decidable.byContradiction fun hmode => ?_, _, rfl⟩
      have := hsees.patience hmode
      omega
    · cases hlook
  -- There was patience left, and the state is the one after the blanks.
  | ok r =>
    have hskip := skip_of_look hlook
    obtain ⟨hpatience, hk, hs'⟩ := look_eq_ok_iff.mp hlook
    have hsees' := hsees.skip (g := g)
    refine ⟨?_, hskip, by rw [hs']; exact h.skip.congr rfl rfl rfl rfl, ?_⟩
    · rw [hk, Outlook.kind, hsees.ahead, List.getElem?_map]
    · rw [hs']
      refine ⟨hsees'.ahead, hsees'.shows, hsees'.ended, fun hmode => ?_⟩
      have := hsees.patience hmode
      dsimp only [Outlook.glance]
      omega

/-- A token that is seen ahead can be consumed. -/
theorem Intact.bump (h : s.Intact g mode bumps) (hsees : s.Sees mode v) {k : Kind} {ks : List Kind}
    (hahead : v.ahead = k :: ks) :
    mode.Ensures (s.bump g) fun s' => s'.Intact g mode false ∧ s'.Sees mode (v.eat ks) ∧
      s'.delimiters = s.delimiters ∧
      ∃ t, (s.skip g).rest = t :: s'.rest ∧ s'.consumedTo = some t.stop := by
  obtain ⟨t, ts, hrest, ht, hks⟩ := hsees.rest_skip (g := g) hahead
  have hbump : s.bump g = .ok ((s.skip g).consume t ts) := bump_eq_ok_iff.mpr ⟨t, ts, hrest, rfl⟩
  rw [hbump]
  refine .ok ⟨h.skip.consume hrest ht, hsees.skip.consume hrest ht hahead hks, ?_, t, hrest, rfl⟩
  rw [consume_delimiters, skip_delimiters]

/-- The current token can be described at the cost of one lookahead. -/
theorem Intact.describeFront (h : s.Intact g mode bumps) (hsees : s.Sees mode v)
    (hspent : v.spent < fullPatience) :
    mode.Ensures (s.describeFront g) fun r =>
      r.2.skip g = r.2 ∧ r.2.Intact g mode bumps ∧ r.2.Sees mode v.glance := by
  have hsees' := hsees.skip (g := g)
  unfold State.describeFront
  dsimp only
  split
  · refine .ok ⟨skip_skip, h.skip, hsees'.ahead, hsees'.shows, hsees'.ended, fun hmode => ?_⟩
    have := hsees'.patience hmode
    dsimp only [Outlook.glance]
    omega
  · exact (h.skip.look hsees' hspent 0).bind fun _ _ hlooked => .ok hlooked.2

/-- There is always a region to complain about. -/
theorem Intact.region (h : s.Intact g mode bumps) : ∃ region, s.region g = some region := by
  unfold State.region
  split
  · exact ⟨_, rfl⟩
  · next d opener ds hdelimiters =>
    have hle : opener.start ≤ g.sourceEnd :=
      h.openers (d, opener) (by rw [hdelimiters]; exact List.mem_cons_self)
    exact ⟨⟨opener.start, g.sourceEnd, hle⟩, by simp [Span.make?, hle]⟩

/-- A complaint can be made, if there is patience to describe the current token. -/
theorem Intact.complain (h : s.Intact g mode false) (hsees : s.Sees mode v)
    (hspent : v.spent < fullPatience) {x : Complaint} (hx : x.problem.severity = .error) :
    mode.Ensures (s.complain g x) fun s' =>
      s'.Intact g mode false ∧ s'.Sees mode (v.glance.stop (mode = .strict)) := by
  have herror (d : Diagnostic) (hd : d.problem = x.problem) : d.isError = true := by
    simp [Diagnostic.isError, Diagnostic.severity, hd, hx]
  unfold State.complain
  refine (h.describeFront hsees hspent).bind ?_
  rintro r _ ⟨hskip, hintact, hsees'⟩
  obtain ⟨region, hregion⟩ := hintact.region
  have hfront : (r.2.frontSpan g).start = r.2.front g := by rw [front, hskip]
  simp only [hregion, hfront]
  exact .ok ⟨hintact.reportAt_front rfl (herror _ rfl), (hsees'.reportAt _ _).stop fun hmode =>
    .inr (hintact.halted_reportAt (by simpa using hmode) (herror _ rfl))⟩

/-- A token is eaten if it is seen ahead, and left alone otherwise. -/
theorem Intact.eat (h : s.Intact g mode false) (hsees : s.Sees mode v)
    (hspent : v.spent < fullPatience) {k : Kind} (hk : k ≠ .error) :
    mode.Ensures (s.eat g k) fun r => r.2.Intact g mode false ∧
      (r.1 = true → ∃ ks, v.ahead = k :: ks ∧ r.2.Sees mode (v.eat ks)) ∧
      (r.1 = false → r.2.skip g = r.2 ∧ r.2.Sees mode v.glance) := by
  unfold State.eat
  refine (h.look hsees hspent 0).bind ?_
  rintro ⟨found, s'⟩ _ ⟨hfound, hskip, hintact, hsees'⟩
  dsimp only at hfound hskip hintact hsees' ⊢
  split
  · next heq =>
    -- The kind asked for is not the one shown at the end of the source, so there is a token.
    obtain ⟨ks, hahead⟩ : ∃ ks, v.ahead = k :: ks := by
      rw [heq, Outlook.kind] at hfound
      cases hahead : v.ahead with
      | nil => simp [hahead, hk] at hfound
      | cons k' ks =>
        simp only [hahead, List.getElem?_cons_zero, Option.getD_some] at hfound
        exact ⟨ks, by rw [hfound]⟩
    refine (hintact.bump hsees' hahead).bind ?_
    rintro s'' _ ⟨hintact', hsees'', _⟩
    exact .ok ⟨hintact', fun _ => ⟨ks, hahead, hsees''⟩, fun h => by cases h⟩
  · exact .ok ⟨hintact, fun h => (by cases h), fun _ => ⟨hskip, hsees'⟩⟩

/-! ## Delimiters -/

/-- The opener is a token of the source. -/
theorem Intact.frontSpan_start_le (h : s.Intact g mode bumps) :
    (s.frontSpan g).start ≤ g.sourceEnd := by
  unfold frontSpan
  split
  · exact Nat.le_refl _
  · next t ts hrest =>
    exact h.ordered.bounded t (by rw [hrest]; exact List.mem_cons_self)

/-- A delimiter can be opened where a token is seen ahead. -/
theorem Intact.openDelimiter (h : s.Intact g mode bumps) (hsees : s.Sees mode v) {k : Kind}
    {ks : List Kind} (hahead : v.ahead = k :: ks) (d : Delimiter) :
    mode.Ensures (s.openDelimiter g d) fun s' => s'.Intact g mode false ∧
      s'.Sees mode (v.eat ks) ∧ s'.delimiters = (d, (s.skip g).frontSpan g) :: s.delimiters ∧
      ∃ t, (s.skip g).rest = t :: s'.rest ∧ s'.consumedTo = some t.stop := by
  have hskip := h.skip
  have hsees' := hsees.skip (g := g)
  -- The opener joins the open delimiters, none of which starts behind the position.
  have hds : ∀ x ∈ (d, (s.skip g).frontSpan g) :: (s.skip g).delimiters,
      x.2.start ≤ g.sourceEnd := by
    intro x hx
    obtain rfl | hx := List.mem_cons.mp hx
    · exact hskip.frontSpan_start_le
    · exact hskip.openers x hx
  refine ((hskip.withDelimiters hds).bump
    ⟨hsees'.ahead, hsees'.shows, hsees'.ended, hsees'.patience⟩ hahead).mono ?_
  rintro s' ⟨hintact', hsees'', hdelimiters, t, hrest, hconsumedTo⟩
  refine ⟨hintact', hsees'', by rw [hdelimiters, skip_delimiters], t, ?_, hconsumedTo⟩
  -- The opener is recorded after the blanks before it are skipped, and skipping twice is skipping
  -- once.
  have hskipped : ((s.skip g).skip g).rest = t :: s'.rest := by
    rw [skip_rest] at hrest ⊢
    exact hrest
  rwa [skip_skip] at hskipped

/-- An expected token is eaten or complained about, with two lookaheads at most. -/
theorem Intact.expect (h : s.Intact g mode false) (hsees : s.Sees mode v)
    (hspent : v.spent + 2 ≤ fullPatience) {k : Kind} (hk : k ≠ .error) (what : String) :
    mode.Ensures (s.expect g k what) fun r => r.2.Intact g mode false ∧
      ∃ v', v.Shifts ⟨.none, 2, 0⟩ v' ∧ r.2.Sees mode v' := by
  unfold State.expect
  refine (h.eat hsees (by omega) hk).bind ?_
  rintro ⟨eaten, s₁⟩ _ ⟨hintact, heaten, hmissing⟩
  cases eaten with
  | true =>
    obtain ⟨ks, hahead, hsees'⟩ := heaten rfl
    exact .ok ⟨hintact, v.eat ks, ((Outlook.Shifts.refl _).of_eat hahead).mono
      ⟨by decide, by decide, by decide⟩, hsees'⟩
  -- If the token is missing, a second look goes into the complaint.
  | false =>
    obtain ⟨-, hsees'⟩ := hmissing rfl
    have hspent' : v.glance.spent < fullPatience := by
      dsimp only [Outlook.glance]
      omega
    refine (hintact.complain hsees' hspent' rfl).bind ?_
    rintro s₂ _ ⟨hintact', hsees''⟩
    exact .ok ⟨hintact', v.glance.glance.stop (mode = .strict), (Outlook.Shifts.refl _).of_still rfl
        (fun ho => Bool.or_eq_true_iff.mpr (.inl ho)) (Nat.le_refl _), hsees''⟩

/-- At the end of the source, an open delimiter is reported from its opener on. -/
theorem Intact.reportUnclosed (h : s.Intact g mode false) (hsees : s.Sees mode v)
    (hrest : s.rest = []) {opener : Span} (hopener : opener.start ≤ g.sourceEnd) (d : Delimiter)
    (construct : String) :
    mode.Ensures (s.reportUnclosed g d construct opener) fun s' =>
      s'.Intact g mode false ∧ s'.Sees mode v := by
  have hspan : s.frontSpan g = .point g.sourceEnd := by rw [frontSpan, hrest]
  have hfront : s.front g = g.sourceEnd := by rw [front, frontSpan, skip_rest, hrest]; rfl
  have hmake : Span.make? opener.start g.sourceEnd = some ⟨opener.start, g.sourceEnd, hopener⟩ := by
    simp [Span.make?, hopener]
  unfold State.reportUnclosed
  simp only [hspan, Span.point, hmake]
  exact .ok ⟨h.reportAt_front hfront.symm (by cases d <;> rfl), hsees.reportAt _ _⟩

/-- A delimiter that was opened can be closed: at most three lookaheads are spent on a closer that
    is missing. -/
theorem Intact.closeDelimiter (h : s.Intact g mode false) (hsees : s.Sees mode v)
    (hspent : v.spent + 3 ≤ fullPatience) {d : Delimiter} {construct : String} {opener : Span}
    {ds : List (Delimiter × Span)} (hdelimiters : s.delimiters = (d, opener) :: ds) :
    mode.Ensures (s.closeDelimiter g d construct) fun s' => s'.Intact g mode false ∧
      ∃ v', v.Shifts ⟨.none, 3, 0⟩ v' ∧ s'.Sees mode v' := by
  -- The report of a missing closer spans from its opener to the end of the source.
  have hopener : opener.start ≤ g.sourceEnd :=
    h.openers (d, opener) (by rw [hdelimiters]; exact List.mem_cons_self)
  have hpopped := h.withDelimiters fun x hx => h.openers x (List.mem_of_mem_tail hx)
  have hcloser : d.closer ≠ .error := by cases d <;> decide
  -- The delimiter on top is the one to be closed, so the check for a mismatch passes.
  have hunpaired : ¬ s.delimiters.head?.any (·.1 ≠ d) = true := by simp [hdelimiters]
  unfold State.closeDelimiter
  dsimp only
  rw [if_neg hunpaired]
  refine (hpopped.eat ⟨hsees.ahead, hsees.shows, hsees.ended, hsees.patience⟩ (by omega)
    hcloser).bind ?_
  rintro ⟨closed, s₁⟩ _ ⟨hintact, hclosed, hmissing⟩
  cases closed with
  | true =>
    -- The closer is there.
    obtain ⟨ks, hahead, hsees'⟩ := hclosed rfl
    exact .ok ⟨hintact, v.eat ks, ((Outlook.Shifts.refl _).of_eat hahead).mono
      ⟨by decide, by decide, by decide⟩, hsees'⟩
  | false =>
    -- The closer is missing: at the end of the source this is reported at the opener, elsewhere
    -- here.
    obtain ⟨hskip, hsees'⟩ := hmissing rfl
    simp only [Bool.false_eq_true, ↓reduceIte, hskip]
    split
    · next opener' _ hhead hrest =>
      rw [hdelimiters] at hhead
      cases hhead
      refine (hintact.reportUnclosed hsees' hrest hopener d construct).mono ?_
      rintro s₂ ⟨hintact', hsees''⟩
      exact ⟨hintact', v.glance,
          (Outlook.Shifts.refl _).of_still rfl id (by simp [Outlook.glance]), hsees''⟩
    · have hspent' : v.glance.spent + 2 ≤ fullPatience := by
        dsimp only [Outlook.glance]
        omega
      refine (hintact.expect hsees' hspent' hcloser _).bind ?_
      rintro ⟨_, s₂⟩ _ ⟨hintact', v', hshifts, hsees''⟩
      exact .ok ⟨hintact', v', hshifts.of_still rfl id (Nat.le_refl _), hsees''⟩

/-- The text from an opener to the last consumed token is a span. -/
theorem Intact.closeEmpty (h : s.Intact g mode false) (hsees : s.Sees mode v) (opener : Span)
    (hopener : mode = .strict → opener.start < s.front g)
    (hconsumedTo : ∃ n, s.consumedTo = some n ∧ opener.start ≤ n) (ifEmpty : Option Problem)
    (answer : Bool) :
    mode.Ensures (s.closeEmpty g ifEmpty answer opener) fun s' =>
      s'.Intact g mode false ∧ s'.Sees mode v := by
  unfold State.closeEmpty
  split
  · obtain ⟨n, hn, hle⟩ := hconsumedTo
    have hmake : Span.make? opener.start n = some ⟨opener.start, n, hle⟩ := by
      simp [Span.make?, hle]
    unfold State.remarkSince
    simp only [hn, Option.getD_some, hmake]
    exact .ok ⟨h.reportAt_lt hopener _, hsees.reportAt _ _⟩
  · exact .ok ⟨h, hsees⟩

end State

/-! ## Scripts and rules -/

variable {g : Setting} {mode : Mode}

/-- What a run of a rule ensures where the rule may be called. -/
def Rule.Ensured (g : Setting) (mode : Mode) (limit : Nat) (rules : Rule → State → Reply) : Prop :=
  ∀ (rule : Rule) (s : State) (v : Outlook), s.Intact g mode false → s.Sees mode v →
    rule.Ready v → rule.weight v < limit →
      mode.Ensures (rules rule s) fun r => r.2.Intact g mode false ∧
        ∃ v', v.Shifts (rule.effect v.ended (rule.begins v.ahead)) v' ∧ r.2.Sees mode v'

/-- A script that is safe does not go wrong if the rules it calls do not. -/
theorem Script.run_ensures {rules : Rule → State → Reply} {limit : Nat}
    (hrules : Rule.Ensured g mode limit rules)
    (hlater : ∀ rule s a s', rules rule s = .ok (a, s') → s.Later g s') {script : Script}
    {s : State} {v : Outlook} {post : Outlook → Prop} (hsafe : script.Safe ⟨mode, limit⟩ v post)
    (h : s.Intact g mode script.isBump) (hsees : s.Sees mode v) :
    mode.Ensures (script.run g rules s) fun r => r.2.Intact g mode false ∧
      ∃ v', post v' ∧ r.2.Sees mode v' := by
  -- Induction on the script.  `Intact` carries the delimiters and positions, `Sees` the tokens
  -- ahead.
  induction script generalizing s v post with
  | done answer => exact .ok ⟨h, v, hsafe, hsees⟩
  | fail fault => exact hsafe.elim
  | look n next ih =>
    refine (h.look hsees hsafe.1 n).bind ?_
    rintro ⟨k, s₁⟩ _ ⟨hk, _, hintact, hsees'⟩
    obtain rfl : k = v.kind n := hk
    exact ih _ (hsafe.2 (hsees.shows_kind n)) hintact.loosen hsees'
  | text next ih => exact ih _ (hsafe _) h.skip.loosen hsees.skip
  -- Whether the parse is over decides which of the two demands on the rest applies.
  | stopped next ih =>
    show mode.Ensures ((next (s.skip g).isStopped).run g rules (s.skip g)) _
    cases hstopped : (s.skip g).isStopped with
    | true => exact ih _ hsafe.1 h.skip.loosen (hsees.stopped hstopped)
    | false =>
      obtain ⟨hahead, hended⟩ := hsees.unstopped hstopped
      exact ih _ (hsafe.2 hahead hended) h.skip.loosen hsees.skip
  | exhausted next ih => exact ih _ (hsafe _) h.loosen hsees
  | bump next ih =>
    obtain ⟨k, ks, hahead, hsafe⟩ := hsafe
    refine (h.bump hsees hahead).bind ?_
    rintro s₁ _ ⟨hintact, hsees', _⟩
    exact ih hsafe hintact.loosen hsees'
  | flush next ih =>
    exact ih hsafe (h.skip.loosen.congr rfl rfl rfl rfl)
      ((hsees.skip (g := g)).congr rfl rfl id rfl)
  | complain x next ih =>
    obtain ⟨herror, hspent, hsafe⟩ := hsafe
    refine (h.complain hsees hspent herror).bind ?_
    rintro s₁ _ ⟨hintact, hsees'⟩
    exact ih hsafe hintact.loosen hsees'
  | remark problem next ih =>
    obtain ⟨hbump, hsafe⟩ := hsafe
    exact ih hsafe (hbump ▸ h.remark problem) (hsees.skip.reportAt _ _)
  -- Nodes only set aside the frame, which neither invariant reads.
  | node k body next ihbody ihnext =>
    refine (ihbody hsafe (s := { s.drain with frame := #[] }) (h.loosen.congr rfl rfl rfl rfl)
      (hsees.congr rfl rfl id rfl)).bind ?_
    rintro ⟨_, s₁⟩ _ ⟨hintact, v', hsafe', hsees'⟩
    exact ihnext hsafe' (hintact.loosen.congr rfl rfl rfl rfl) (hsees'.congr rfl rfl id rfl)
  | group body next ihbody ihnext =>
    refine (ihbody hsafe (s := { s.drain with frame := #[] }) (h.loosen.congr rfl rfl rfl rfl)
      (hsees.congr rfl rfl id rfl)).bind ?_
    rintro ⟨_, s₁⟩ _ ⟨hintact, v', hsafe', hsees'⟩
    exact ihnext hsafe' (hintact.loosen.congr rfl rfl rfl rfl) (hsees'.congr rfl rfl id rfl)
  | wrap k body next ihbody ihnext =>
    refine (ihbody hsafe h.loosen hsees).bind ?_
    rintro ⟨_, s₁⟩ _ ⟨hintact, v', hsafe', hsees'⟩
    exact ihnext hsafe' (hintact.loosen.congr rfl rfl rfl rfl) (hsees'.congr rfl rfl id rfl)
  -- A level refused leaves the rest with nothing consumed; a level entered refills the patience.
  | deeper body next ihbody ihnext =>
    rw [Script.run, State.enter]
    by_cases hdeep : g.depthLimit.any (· ≤ s.depth) = true
    · rw [if_pos hdeep]
      refine ihnext _ hsafe.2 (h.loosen.congr rfl rfl rfl rfl)
        ⟨hsees.ahead, hsees.shows, fun _ => .inl ?_, hsees.patience⟩
      cases s.exhausted <;> simp
    · rw [if_neg hdeep]
      refine (ihbody (s := { s with depth := s.depth + 1, patience := fullPatience }) hsafe.1
        (h.loosen.congr rfl rfl rfl rfl) (hsees.refill rfl rfl rfl rfl)).bind ?_
      rintro ⟨_, s₁⟩ _ ⟨hintact, v', hsafe', hsees'⟩
      exact ihnext _ hsafe' (hintact.loosen.congr rfl rfl rfl rfl) (hsees'.refill rfl rfl rfl rfl)
  -- The body runs between opener and closer, which pair since the body restores the delimiters.
  | enclosed d construct ifEmpty body next ihbody ihnext =>
    obtain ⟨k, ks, hahead, hsafe⟩ := hsafe
    rw [run_enclosed_eq]
    refine (h.openDelimiter hsees hahead d).bind ?_
    rintro s₁ _ ⟨hintact₁, hsees₁, hdelimiters, t, hrest, hconsumedTo⟩
    refine (ihbody hsafe hintact₁.loosen hsees₁).bind ?_
    rintro ⟨a, s₂⟩ hbody ⟨hintact₂, v₂, ⟨hspent, hsafe₂⟩, hsees₂⟩
    have hinside : s₁.Later g s₂ := run_later hlater hbody
    refine (hintact₂.closeDelimiter hsees₂ hspent (hinside.delimiters.trans hdelimiters)).bind ?_
    rintro s₃ hclose ⟨hintact₃, v₃, hshifts, hsees₃⟩
    have hafter := State.later_lasting.closeDelimiter hclose
    -- Everything after the opener starts later than the opener does.
    have hspan : (s.skip g).frontSpan g = t.span := by rw [State.frontSpan, hrest]
    have hsorted := h.skip.ordered.sorted
    rw [hrest] at hsorted
    have hbehind : ∀ u ∈ s₁.rest, t.start ≤ u.start := (List.pairwise_cons.mp hsorted).1
    have hend := hinside.consumedTo_ge ⟨t.stop, hconsumedTo, Nat.le_add_right t.start _⟩ hbehind
    have hend' := hafter.consumedTo_ge hend fun u hu => hbehind u (hinside.rest.subset hu)
    rw [hspan]
    refine (hintact₃.closeEmpty hsees₃ t.span
      (fun hmode => h.skip.lt_front hmode hrest (hafter.rest.trans hinside.rest)) hend' ifEmpty
      a).bind ?_
    rintro s₄ _ ⟨hintact₄, hsees₄⟩
    exact ihnext (hsafe₂ v₃ hshifts) hintact₄.loosen hsees₄
  -- Of a rule, its contract is all that is known.
  | call rule next ih =>
    obtain ⟨hready, hweight, hsafe⟩ := hsafe
    refine (hrules rule s v h hsees hready hweight).bind ?_
    rintro ⟨a, s₁⟩ _ ⟨hintact, v', hshifts, hsees'⟩
    obtain ⟨v'', hgives, hsees''⟩ := hsees'.gives hshifts
    exact ih a (hsafe a v'' hgives) hintact.loosen hsees''

/-- A rule that may be called does not go wrong, given a budget for the calls that it leads to. -/
theorem Rule.run_ensures (budget : Nat) : Rule.Ensured g mode budget (Rule.run g budget) := by
  induction budget with
  | zero =>
    intro rule s v _ _ _ hweight
    exact absurd hweight (Nat.not_lt_zero _)
  | succ budget ih =>
    intro rule s v h hsees hready hweight
    have hrules : Rule.Ensured g mode (rule.weight v) (Rule.run g budget) :=
      fun rule' s' v' h' hsees' hready' hweight' =>
        ih rule' s' v' h' hsees' hready' (Nat.lt_of_lt_of_le hweight' (Nat.le_of_lt_succ hweight))
    exact Script.run_ensures hrules (fun _ _ _ _ => Rule.run_later) (Rule.safe mode hready)
      h.loosen hsees

/-! ## Parses -/

/-- A parse runs the program, and then its last state counts. -/
theorem parseLexed_eq_ok_iff {o : Options} {source : String} {tokens : List Token}
    {outcome : Except ParseError Parsed} : parseLexed o source tokens = .ok outcome ↔
      ∃ a s, Rule.program.run ⟨Text.byteLength source.toList, o.recovery, o.depthLimit⟩
        (callBudget tokens) (.initial tokens o.stepLimit) = .ok (a, s) ∧
        s.finish source = .ok outcome := by
  rw [parseLexed, bind_eq_ok_iff, Prod.exists]

/-- The outlook on tokens that are all ahead. -/
def Outlook.onto (tokens : List Token) : Outlook :=
  ⟨(Token.significant tokens).map (·.kind), false, 0⟩

/-- At the start all tokens are seen ahead. -/
private theorem State.sees_initial {mode : Mode} {tokens : List Token}
    (hshows : ∀ t ∈ tokens, mode.Shows t.kind) (steps : Option Nat) :
    (State.initial tokens steps).Sees mode (.onto tokens) := by
  refine ⟨rfl, fun k hk => ?_, by simp [Outlook.onto], fun _ => Nat.le_refl _⟩
  obtain ⟨t, ht, rfl⟩ := List.mem_map.mp hk
  exact hshows t (List.mem_filter.mp ht).1

/-- The program may be called on any tokens. -/
theorem Rule.ready_program (tokens : List Token) : Rule.program.Ready (.onto tokens) :=
  ⟨Nat.le_of_ble_eq_true rfl, by simp [Rule.demands]⟩

/-- The budget of a parse is enough for the program. -/
theorem Rule.weight_program_lt (tokens : List Token) :
    Rule.program.weight (.onto tokens) < callBudget tokens := by
  simp [Rule.weight, Rule.height, Rule.yields, callBudget, Outlook.onto]
  omega

/-- A parse of tokens that are in order and spell out the source does not go wrong. -/
theorem parseLexed_ensures {o : Options} {source : String} {tokens : List Token} (mode : Mode)
    (hstrict : mode = .strict → o.recovery = false) (hshows : ∀ t ∈ tokens, mode.Shows t.kind)
    (hordered : mode.Orders ⟨Text.byteLength source.toList, o.recovery, o.depthLimit⟩ tokens)
    (hspelling : Token.spelling tokens = source) :
    mode.Ensures (parseLexed o source tokens) fun _ => True := by
  have hintact : (State.initial tokens o.stepLimit).Intact
      ⟨Text.byteLength source.toList, o.recovery, o.depthLimit⟩ mode false :=
    ⟨hstrict, hordered, by simp [State.initial], by simp [State.Behind, State.initial]⟩
  unfold parseLexed
  refine (Rule.run_ensures _ .program _ _ hintact (State.sees_initial hshows _)
    (Rule.ready_program tokens) (Rule.weight_program_lt tokens)).bind ?_
  rintro ⟨a, s⟩ hrun _
  dsimp only at hrun ⊢
  -- With a limit exceeded or an error in a strict parse there is no tree to check.
  unfold State.finish
  split
  · exact .ok trivial
  · next hexhausted =>
    split
    · exact .ok trivial
    · next hhalted =>
      -- The tree spells out the source, so the check at the end passes.
      have hleaves := Rule.run_program_leaves hrun hexhausted (by simpa using hhalted)
      have htext : (Tree.node .program s.frame.toList).text = source := by
        rw [← hspelling]
        refine Tree.text_eq_spelling ?_
        rw [Tree.leaves_node, hleaves]
        simp [State.yield, State.initial]
      rw [if_pos htext]
      exact .ok trivial

/-- A parse of a text does not go wrong. -/
theorem parse_ensures (mode : Mode) (o : Options) (source : String)
    (hstrict : mode = .strict → o.recovery = false)
    (hshows : ∀ t ∈ Token.lex source, mode.Shows t.kind) :
    mode.Ensures (parse o source) fun _ => True := by
  obtain ⟨hsorted, hbounded⟩ := Token.lex_sorted source
  exact parseLexed_ensures mode hstrict hshows (mode.orders_of_lt hsorted hbounded)
    (Token.spelling_lex source)

/-- Whatever the text and the options are, the grammar keeps all of its promises but one: patience
    may run out.  No token is consumed past the end, no rule is entered on a token that does not
    start it, no closer meets an opener that is not its partner, no span runs backwards, and the
    tree spells out the text. -/
theorem parse_ok_or_stalled (o : Options) (source : String) :
    (∃ outcome, parse o source = .ok outcome) ∨
      ∃ index, parse o source = .error (.stalled index) :=
  (parse_ensures .any o source (by simp) (by simp [Mode.Shows])).ok_or_stalled.imp_right (·.2)

/-- Without recovery, patience does not run out. -/
theorem parse_ok_of_strict {o : Options} (hrecovery : o.recovery = false) (source : String) :
    ∃ outcome, parse o source = .ok outcome :=
  (parse_ensures .strict o source (fun _ => hrecovery)
    (by simp [Mode.Shows])).ok_or_stalled.resolve_right (by simp)

/-- A plain source shows no keyword that declares. -/
theorem shows_plain {k : Kind} (h : k ∉ [Kind.kwFunction, Kind.kwType, Kind.kwOpen]) :
    Mode.plain.Shows k := by
  intro _
  rw [TokenSet.declarators, TokenSet.contains_ofList]
  simpa using h

/-- In a text that declares neither functions nor types, patience does not run out, however long and
    deeply nested it is, and whether or not the parse comes to its end. -/
theorem parse_ok_of_plain {source : String}
    (hplain : ∀ t ∈ Token.lex source, t.kind ∉ [Kind.kwFunction, Kind.kwType, Kind.kwOpen])
    (o : Options) : ∃ outcome, parse o source = .ok outcome := by
  exact (parse_ensures .plain o source (by simp)
    fun t ht => shows_plain (hplain t ht)).ok_or_stalled.resolve_right (by simp)

/-- A text that breaks off where a lot is open. -/
theorem parse_ok_of_plain_unclosed :
    (∀ t ∈ Token.lex "if (a) \x7b [", t.kind ∉ [Kind.kwFunction, Kind.kwType, Kind.kwOpen]) ∧
      ∃ outcome, parse .default "if (a) \x7b [" = .ok outcome := by
  have hplain : ∀ t ∈ Token.lex "if (a) \x7b [",
      t.kind ∉ [Kind.kwFunction, Kind.kwType, Kind.kwOpen] := by
    have hkinds : (Token.lex "if (a) \x7b [").map (·.kind) = [.kwIf, .whitespace, .lParen,
        .identifier, .rParen, .whitespace, .lCurly, .whitespace, .lBracket] := by decide +kernel
    intro t ht
    have hkind := List.mem_map_of_mem (f := (·.kind)) ht
    rw [hkinds] at hkind
    revert hkind
    generalize t.kind = k
    decide +revert
  exact ⟨hplain, parse_ok_of_plain hplain .default⟩

end ScriptTree
