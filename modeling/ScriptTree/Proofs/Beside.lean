import ScriptTree.Proofs.Cleanness
import ScriptTree.Proofs.Gates
import ScriptTree.Proofs.Seams

/-!
# Two parses side by side

A parse that reports nothing, and one that has the same significant tokens ahead, and more behind
them: `State.Beside` says what two such states have in common, and one lemma for each operation says
that it does the same to both.  A lookahead is the only thing that could tell them apart, and does
so only if it reaches beyond the end of what is common to both.

## Key results

- `State.Beside.look`: a lookahead that sees the same in both
- `State.Beside.bump`, `State.Beside.closeDelimiter`, …: what does not look ahead
-/

namespace ScriptTree

namespace State

variable {g e : Setting} {s s' t t' : State}

/-! ## Silent runs -/

/-- Nothing was reported, and nothing cut the parse short. -/
structure Silent (s : State) : Prop where
  supplied : s.exhausted = none
  running : s.halted = false
  unreported : s.diagnostics = #[]

/-- What is silent in the end was silent before. -/
theorem Silent.of_extends (h : s'.Silent) (hextends : s.Extends s') : s.Silent where
  supplied := hextends.2.1 h.supplied
  running := by
    cases hhalted : s.halted with
    | false => rfl
    | true =>
      have hhalted' := hextends.2.2.1 hhalted
      rw [h.running] at hhalted'
      cases hhalted'
  unreported := by
    have hbefore := hextends.1
    rw [h.unreported] at hbefore
    exact Array.toList_eq_nil_iff.mp (List.prefix_nil.mp hbefore)

/-- In a silent state nothing has gone wrong. -/
theorem Silent.clean (h : s.Silent) : s.Clean := ⟨h.supplied, by simp [h.unreported]⟩

/-- A report that is not held back is not silent. -/
private theorem not_silent_reportAt (hrunning : s.halted = false) (hreported : s.reported = none)
    (o : Nat) (d : Diagnostic) : ¬ (s.reportAt g o d).Silent := by
  intro h
  have hsize := congrArg Array.size h.unreported
  simp [reportAt, emit, hrunning, hreported] at hsize

/-- Where nothing was reported, a complaint is. -/
theorem not_silent_complain (hreported : s.reported = none) {c : Complaint}
    (hcomplain : s.complain g c = .ok s') : ¬ s'.Silent := by
  intro hsilent
  obtain ⟨p, d, rfl, -⟩ := complain_eq_ok hcomplain
  have hextends :=
    extends_reportAt g { s.skip g with patience := p } ((s.skip g).frontSpan g).start d
  have hrunning := (hsilent.of_extends hextends).running
  have hskip : (s.skip g).reported = none := by rw [skip_reported, hreported]
  exact not_silent_reportAt hrunning hskip _ _ hsilent

/-- Where nothing was reported, a warning is. -/
theorem not_silent_remark (hreported : s.reported = none) (problem : Problem) :
    ¬ (s.remark g problem).Silent := by
  intro hsilent
  have hrunning := (hsilent.of_extends (extends_reportAt g (s.skip g) _ _)).running
  have hskip : (s.skip g).reported = none := by rw [skip_reported, hreported]
  exact not_silent_reportAt hrunning hskip _ _ hsilent

/-- A level that is refused cuts the parse short. -/
theorem not_silent_enter (henter : s.enter g = (false, s')) : ¬ s'.Silent :=
  fun hsilent => exhausted_of_enter henter hsilent.supplied

/-- What was reported is on file: the place of a report is only noted together with the report. -/
def Filed (s : State) : Prop := s.diagnostics = #[] → s.reported = none

/-- In a silent state there is no last report. -/
theorem Silent.reported (h : s.Silent) (hfiled : s.Filed) : s.reported = none := hfiled h.unreported

/-- A report that is on file stays there. -/
theorem Filed.of_extends (h : s.Filed) (hextends : s.Extends s')
    (hreported : s'.reported = s.reported) : s'.Filed := by
  intro hnone
  have hbefore := hextends.1
  rw [hnone] at hbefore
  rw [hreported, h (Array.toList_eq_nil_iff.mp (List.prefix_nil.mp hbefore))]

/-- A report is filed when it is made. -/
theorem Filed.reportAt (h : s.Filed) (o : Nat) (d : Diagnostic) : (s.reportAt g o d).Filed := by
  unfold State.reportAt
  split
  · exact h
  · intro hnone
    simp [emit] at hnone

/-- Skipping keeps the last report on file. -/
theorem Filed.skip (h : s.Filed) : (s.skip g).Filed := h.of_extends (extends_skip g s) skip_reported

/-- To ask for a level keeps the last report on file. -/
theorem Filed.enter (h : s.Filed) {b : Bool} (henter : s.enter g = (b, s')) : s'.Filed := by
  obtain ⟨_, _, _, rfl⟩ := enter_eq henter
  exact h

/-- Reports are not taken back, and the place of the last one is noted when it is made. -/
private theorem filed_lasting : Lasting g fun s s' => s.Filed → s'.Filed where
  refl _ := id
  trans h h' := h' ∘ h
  skip _ := .skip
  consume hrest ht h := h.of_extends (extends_consume hrest ht) (consume_reported _ _)
  reportAt _ o d h := h.reportAt o d
  withPatience _ _ := id
  drain _ := id
  regrouped h _ := h
  refused henter h := h.enter henter
  granted henter h hs := h (hs.enter henter)
  delimited h := h

/-- A closer that is missing is reported, so in a silent run it is there. -/
theorem Silent.closed (hsilent : s'.Silent) (hreported : s.reported = none) {d : Delimiter}
    {construct : String} (hclose : s.closeDelimiter g d construct = .ok s') :
    ∃ s₁, ({ s with delimiters := s.delimiters.tail } : State).look g 0 = .ok (d.closer, s₁) ∧
      s₁.bump g = .ok s' := by
  obtain ⟨found, s₁, hlook, hclosed⟩ := closeDelimiter_eq_ok hclose
  obtain ⟨rfl, hbump⟩ | ⟨hne, p, dg, -, rfl⟩ := hclosed
  · exact ⟨s₁, hlook, hbump⟩
  · exfalso
    have hextends := extends_reportAt g { s₁ with patience := p } (s₁.frontSpan g).start dg
    refine not_silent_reportAt (hsilent.of_extends hextends).running ?_ _ _ hsilent
    obtain ⟨-, -, rfl⟩ := look_eq_ok_iff.mp hlook
    show (State.skip g { s with delimiters := s.delimiters.tail }).reported = none
    rw [skip_reported]
    exact hreported

/-- Then the closer is what is ahead. -/
theorem Silent.input_closer (hsilent : s'.Silent) (hreported : s.reported = none) {d : Delimiter}
    {construct : String} (hclose : s.closeDelimiter g d construct = .ok s') :
    ∃ text, s.reading.input = (d.closer, text) :: s'.reading.input := by
  -- Nothing was reported, so the closer was found and consumed.
  obtain ⟨s₁, hlook, hbump⟩ := hsilent.closed hreported hclose
  obtain ⟨-, hfound, rfl⟩ := look_eq_ok_iff.mp hlook
  obtain ⟨u, us, hrest, rfl⟩ := bump_eq_ok_iff.mp hbump
  have hinput : s.reading.input = u.label :: (Token.significant us).map Token.label := by
    rw [← reading_input_of_rest hrest]
    show _ = (State.skip g { s with delimiters := s.delimiters.tail }).reading.input
    rw [reading_skip]
    rfl
  rw [← kindAt_reading] at hfound
  refine ⟨u.text, ?_⟩
  have hkind : d.closer = u.kind := by
    rw [hfound]
    show kindAt s.reading.input 0 = u.kind
    rw [hinput]
    rfl
  rw [hkind]
  exact hinput

/-! ## The longer parse -/

/-- No limit and no lexical error is in the way, and the reports are those of before. -/
structure Unhindered (log : Array Diagnostic × Option Nat) (t : State) : Prop where
  waits : t.Waits
  clean : Token.Clean t.rest
  running : t.halted = false
  supplied : t.exhausted = none
  unlimited : t.steps = none
  log : (t.diagnostics, t.reported) = log

variable {log : Array Diagnostic × Option Nat}

/-- A state that differs in nothing of that. -/
theorem Unhindered.congr {u : State} (h : t.Unhindered log) (hwaits : u.Waits)
    (hrest : ∀ x ∈ u.rest, x ∈ t.rest) (hhalted : u.halted = t.halted)
    (hexhausted : u.exhausted = t.exhausted) (hsteps : u.steps = t.steps)
    (hdiagnostics : u.diagnostics = t.diagnostics) (hreported : u.reported = t.reported) :
    u.Unhindered log where
  waits := hwaits
  clean x hx := h.clean x (hrest x hx)
  running := by rw [hhalted, h.running]
  supplied := by rw [hexhausted, h.supplied]
  unlimited := by rw [hsteps, h.unlimited]
  log := by rw [hdiagnostics, hreported, h.log]

/-- A state with the same tokens and reports. -/
theorem Unhindered.same {u : State} (h : t.Unhindered log)
    (hsame : (u.pending, u.rest, u.halted, u.exhausted, u.steps, u.diagnostics, u.reported) =
      (t.pending, t.rest, t.halted, t.exhausted, t.steps, t.diagnostics, t.reported)) :
    u.Unhindered log := by
  simp only [Prod.mk.injEq] at hsame
  obtain ⟨hpending, hrest, hhalted, hexhausted, hsteps, hdiagnostics, hreported⟩ := hsame
  have hwaits : u.Waits := by
    rw [Waits, hpending]
    exact h.waits
  exact h.congr hwaits (by simp [hrest]) hhalted hexhausted hsteps hdiagnostics hreported

/-- Skipping does not hinder a parse, for there are no lexical errors ahead. -/
theorem Unhindered.skip (h : t.Unhindered log) : (t.skip g).Unhindered log := by
  have hclean : ∀ x ∈ t.rest.takeWhile (·.kind.isSkipped), x.kind.isLexError = false :=
    fun x hx => h.clean x ((List.takeWhile_sublist _).subset hx)
  have hnone : Token.lexDiagnostics (t.rest.takeWhile (·.kind.isSkipped)) = [] := by
    simpa [Token.lexDiagnostics] using hclean
  refine h.congr h.waits.skip ?_ ?_ skip_exhausted skip_steps ?_ skip_reported
  · rw [skip_rest]
    exact fun x hx => (List.dropWhile_sublist _).subset hx
  · rw [skip_eq]
    simpa [h.running] using fun _ => hclean
  · rw [skip_eq]
    simp [passReports, hnone]

/-- Consuming a token does not hinder a parse. -/
theorem Unhindered.consume (h : t.Unhindered log) {u : Token} {us : List Token}
    (hrest : t.rest = u :: us) : (t.consume u us).Unhindered log := by
  have hspend : t.spend = t := by simp [spend, h.unlimited]
  refine h.congr (waits_consume u us) ?_ (consume_halted u us) ?_ ?_ (consume_diagnostics u us)
    (consume_reported u us)
  · intro x hx
    rw [hrest]
    exact List.mem_cons_of_mem u hx
  · rw [State.consume, hspend]
    rfl
  · rw [State.consume, hspend]
    rfl

end State

variable {g : Setting}

/-- A script files what it reports if the rules it calls do. -/
theorem Script.run_filed {rules : Rule → State → Reply}
    (hrules : ∀ rule s a s', rules rule s = .ok (a, s') → s.Filed → s'.Filed)
    {script : Script} {s s' : State} {a : Bool} (h : s.Filed)
    (hrun : script.run g rules s = .ok (a, s')) : s'.Filed :=
  Script.run_lasting State.filed_lasting hrules hrun h

/-- A rule files what it reports. -/
theorem Rule.run_filed {budget : Nat} {rule : Rule} {s s' : State} {a : Bool}
    (hrun : rule.run g budget s = .ok (a, s')) (h : s.Filed) : s'.Filed :=
  Rule.run_lasting State.filed_lasting hrun h

/-- The tokens that the one parse has more ahead, the trees that the other one has more behind it,
    and what the other one reported before. -/
structure Surplus where
  ahead : List (Kind × String)
  behind : List Tree
  log : Array Diagnostic × Option Nat

namespace State

variable {g e : Setting} {s s' t t' : State} {x : Surplus}

/-- The same parse, but for what the second state has more ahead and behind. -/
structure Beside (x : Surplus) (s t : State) : Prop where
  waits : s.Waits
  unreported : s.reported = none
  unhindered : t.Unhindered x.log
  input : t.reading.input = s.reading.input ++ x.ahead
  frame : t.reading.frame = x.behind ++ s.reading.frame
  depth : t.depth = s.depth
  delimiters : t.delimiters.map (·.1) = s.delimiters.map (·.1)
  patience : s.patience ≤ t.patience

/-! ## Frames -/

/-- Only the reading counts, not how it is made up. -/
theorem Beside.congr {s₁ t₁ : State} {y : Surplus} (h : s.Beside x t) (hwaits : s₁.Waits)
    (hreported : s₁.reported = s.reported) (hunhindered : t₁.Unhindered y.log)
    (hinput : s₁.reading.input = s.reading.input) (hinput' : t₁.reading.input = t.reading.input)
    (hahead : y.ahead = x.ahead) (hframe : t₁.reading.frame = y.behind ++ s₁.reading.frame)
    (hdepth : s₁.depth = s.depth) (hdepth' : t₁.depth = t.depth)
    (hdelimiters : s₁.delimiters = s.delimiters) (hdelimiters' : t₁.delimiters = t.delimiters)
    (hpatience : s₁.patience ≤ t₁.patience) : s₁.Beside y t₁ where
  waits := hwaits
  unreported := hreported.trans h.unreported
  unhindered := hunhindered
  input := by rw [hinput, hinput', hahead, h.input]
  frame := hframe
  depth := by rw [hdepth, hdepth', h.depth]
  delimiters := by rw [hdelimiters, hdelimiters', h.delimiters]
  patience := hpatience

/-- Both skip what there is to skip. -/
theorem Beside.skip (h : s.Beside x t) : (s.skip g).Beside x (t.skip e) :=
  h.congr h.waits.skip skip_reported h.unhindered.skip (by rw [reading_skip]) (by rw [reading_skip])
    rfl (by rw [reading_skip, reading_skip, h.frame]) skip_depth skip_depth skip_delimiters
    skip_delimiters (by rw [skip_patience, skip_patience]; exact h.patience)

/-- Placing skipped tokens does not hinder a parse. -/
theorem Unhindered.drain {log : Array Diagnostic × Option Nat} (h : t.Unhindered log) :
    t.drain.Unhindered log :=
  h.congr (waits_drain (s := t)) (fun _ hx => hx) rfl rfl rfl rfl rfl

/-- Both place the tokens that wait. -/
theorem Beside.drain (h : s.Beside x t) : s.drain.Beside x t.drain := by
  have hs := reading_drain h.waits
  have ht := reading_drain h.unhindered.waits
  exact h.congr (waits_drain (s := s)) rfl h.unhindered.drain (by rw [hs]) (by rw [ht]) rfl
    (by rw [hs, ht, h.frame]) rfl rfl rfl rfl h.patience

/-- Frames of their own. -/
theorem Beside.emptied (h : s.Beside x t) : ({ s.drain with frame := #[] } : State).Beside
    { x with behind := [] } { t.drain with frame := #[] } := by
  refine h.congr (waits_drain (s := s)) rfl (h.unhindered.drain.same rfl) ?_ ?_ rfl ?_ rfl rfl rfl
    rfl h.patience
  · rw [reading_emptied]
  · rw [reading_emptied]
  · rw [reading_emptied, reading_emptied]
    rfl

/-- Both put a node behind what they had before. -/
theorem Beside.pushNode {s₁ t₁ : State} (h : s.Beside x t)
    (h₁ : s₁.Beside { x with behind := [] } t₁) (k : Kind) :
    ({ s₁ with frame := s.drain.frame.push (.node k s₁.frame.toList) } : State).Beside x
      { t₁ with frame := t.drain.frame.push (.node k t₁.frame.toList) } := by
  have hs := reading_pushNode h.waits k s₁
  have ht := reading_pushNode h.unhindered.waits k t₁
  refine h₁.congr h₁.waits rfl (h₁.unhindered.same rfl) ?_ ?_ rfl ?_ rfl rfl rfl rfl h₁.patience
  · rw [hs]
  · rw [ht]
  · rw [hs, ht, h₁.frame]
    simp [h.frame]

/-- Both put the trees of a group behind what they had before. -/
theorem Beside.appendFrame {s₁ t₁ : State} (h : s.Beside x t)
    (h₁ : s₁.Beside { x with behind := [] } t₁) :
    ({ s₁ with frame := s.drain.frame ++ s₁.frame } : State).Beside x
      { t₁ with frame := t.drain.frame ++ t₁.frame } := by
  have hs := reading_appendFrame h.waits s₁
  have ht := reading_appendFrame h.unhindered.waits t₁
  refine h₁.congr h₁.waits rfl (h₁.unhindered.same rfl) ?_ ?_ rfl ?_ rfl rfl rfl rfl h₁.patience
  · rw [hs]
  · rw [ht]
  · rw [hs, ht, h₁.frame]
    simp [h.frame]

/-- Where nothing else is in the frame, the frame can be made a node. -/
theorem Beside.wrapped (h : s.Beside x t) (hbehind : x.behind = []) (k : Kind) :
    ({ s with frame := #[.node k s.frame.toList] } : State).Beside x
      { t with frame := #[.node k t.frame.toList] } := by
  refine h.congr h.waits rfl (h.unhindered.same rfl) ?_ ?_ rfl ?_ rfl rfl rfl rfl h.patience
  · rw [reading_wrapped]
  · rw [reading_wrapped]
  · rw [reading_wrapped, reading_wrapped, h.frame, hbehind]
    rfl

/-! ## Operations -/

/-- A lookahead on the longer side sees the surplus behind the text. -/
theorem Beside.look (h : s.Beside x t) {n : Nat} {k : Kind} (hlook : s.look g n = .ok (k, s')) :
    ∃ t', t.look e n = .ok (kindAt (s.reading.input ++ x.ahead) n, t') ∧ s'.Beside x t' := by
  obtain ⟨hpatience, -, rfl⟩ := look_eq_ok_iff.mp hlook
  have hle := h.patience
  refine ⟨_, look_eq_ok_iff.mpr ⟨by omega, by rw [← h.input, kindAt_reading], rfl⟩, ?_⟩
  have hskip := h.skip (g := g) (e := e)
  refine hskip.congr hskip.waits rfl (hskip.unhindered.same rfl) rfl rfl rfl hskip.frame rfl rfl rfl
    rfl ?_
  show s.patience - 1 ≤ t.patience - 1
  omega

/-- Both consume the same token. -/
theorem Beside.bump (h : s.Beside x t) (hbump : s.bump g = .ok s') :
    ∃ t', t.bump e = .ok t' ∧ s'.Beside x t' := by
  obtain ⟨u, us, hrest, rfl⟩ := bump_eq_ok_iff.mp hbump
  have hinput := reading_input_of_rest hrest
  -- The other run has a token, too: it has those of this one, and more behind.
  cases hrest' : (t.skip e).rest with
  | nil =>
    have hempty : t.reading.input.isEmpty = true := by
      rw [reading_input_isEmpty (g := e), hrest']
      rfl
    rw [h.input, hinput] at hempty
    cases hempty
  | cons v vs =>
    refine ⟨_, bump_eq_ok_iff.mpr ⟨v, vs, hrest', rfl⟩, ?_⟩
    obtain ⟨text, hs, hframe⟩ := reading_consume h.waits hrest
    obtain ⟨text', ht, hframe'⟩ := reading_consume h.unhindered.waits hrest'
    -- The tokens are the same, but for their places.
    have hsame := h.input
    rw [hs, ht, List.cons_append] at hsame
    obtain ⟨hlabel, hrest⟩ := List.cons.inj hsame
    refine ⟨waits_consume u us, ?_, h.unhindered.skip.consume hrest', hrest, ?_, ?_, ?_,
      Nat.le_refl _⟩
    · rw [consume_reported, skip_reported, h.unreported]
    · rw [hframe, hframe', h.frame, List.append_assoc]
      obtain ⟨hkind, htext⟩ := Prod.mk.inj hlabel
      rw [hkind, htext]
    · rw [consume_depth, consume_depth, skip_depth, skip_depth, h.depth]
    · rw [consume_delimiters, consume_delimiters, skip_delimiters, skip_delimiters, h.delimiters]

/-- A level is granted to both, if they have the same limit. -/
theorem Beside.enter (h : s.Beside x t) (hlimit : e.depthLimit = g.depthLimit)
    (henter : s.enter g = (true, s')) : ∃ t', t.enter e = (true, t') ∧ s'.Beside x t' := by
  obtain ⟨hdeep, rfl⟩ := enter_eq_true_iff.mp henter
  refine ⟨_, enter_eq_true_iff.mpr ⟨by rw [hlimit, h.depth, hdeep], rfl⟩, ?_⟩
  exact ⟨h.waits, h.unreported, h.unhindered.same rfl, h.input, h.frame, by rw [h.depth],
    h.delimiters, Nat.le_refl _⟩

/-- Both leave a level. -/
theorem Beside.leave (h : s.Beside x t) : s.leave.Beside x t.leave := by
  refine ⟨h.waits, h.unreported, h.unhindered.same rfl, h.input, h.frame, ?_, h.delimiters,
    Nat.le_refl _⟩
  show t.depth - 1 = s.depth - 1
  rw [h.depth]

/-- Both open a delimiter. -/
theorem Beside.openDelimiter (h : s.Beside x t) {d : Delimiter}
    (hopen : s.openDelimiter g d = .ok s') :
    ∃ t', t.openDelimiter e d = .ok t' ∧ s'.Beside x t' := by
  have hskip := h.skip (g := g) (e := e)
  have hpushed : ({ s.skip g with
      delimiters := (d, (s.skip g).frontSpan g) :: (s.skip g).delimiters } : State).Beside x
      { t.skip e with
        delimiters := (d, (t.skip e).frontSpan e) :: (t.skip e).delimiters } := by
    refine ⟨hskip.waits, hskip.unreported, hskip.unhindered.same rfl, hskip.input, hskip.frame,
      hskip.depth, ?_, hskip.patience⟩
    rw [List.map_cons, List.map_cons, hskip.delimiters]
  exact hpushed.bump hopen

/-- In a silent parse the closer is there. -/
theorem Beside.closeDelimiter (h : s.Beside x t) {d : Delimiter} {construct : String}
    (hclose : s.closeDelimiter g d construct = .ok s') (hsilent : s'.Silent) :
    ∃ t', t.closeDelimiter e d construct = .ok t' ∧ s'.Beside x t' := by
  have htail : ({ s with delimiters := s.delimiters.tail } : State).Beside x
      { t with delimiters := t.delimiters.tail } := by
    refine ⟨h.waits, h.unreported, h.unhindered.same rfl, h.input, h.frame, h.depth, ?_,
      h.patience⟩
    rw [List.map_tail, List.map_tail, h.delimiters]
  -- The same delimiters are open on both sides, so this one pairs up on both.
  have hpaired : t.delimiters.head?.any (·.1 ≠ d) = false := by
    have hs := (closeDelimiter_eq_ok_iff.mp hclose).1
    have hheads : t.delimiters.head?.map (·.1) = s.delimiters.head?.map (·.1) := by
      rw [← List.head?_map, ← List.head?_map, h.delimiters]
    have hany (o : Option (Delimiter × Span)) :
        o.any (·.1 ≠ d) = (o.map (·.1)).any (· ≠ d) := by cases o <;> rfl
    rw [hany, hheads, ← hany, hs]
  -- The closer is ahead, since nothing was reported.
  obtain ⟨text, hinput⟩ := hsilent.input_closer h.unreported hclose
  obtain ⟨s₁, hlook, hbump⟩ := hsilent.closed h.unreported hclose
  obtain ⟨t₁, hlook', h₁⟩ := htail.look (e := e) hlook
  have hfront : kindAt (({ s with delimiters := s.delimiters.tail } : State).reading.input ++
      x.ahead) 0 = d.closer := by
    show kindAt (s.reading.input ++ x.ahead) 0 = d.closer
    rw [hinput]
    rfl
  rw [hfront] at hlook'
  obtain ⟨t', hbump', h'⟩ := h₁.bump (e := e) hbump
  have heat : ({ t with delimiters := t.delimiters.tail } : State).eat e d.closer =
      .ok (true, t') :=
    eat_eq_ok_iff.mpr ⟨_, t₁, hlook', .inl ⟨rfl, rfl, hbump'⟩⟩
  exact ⟨t', closeDelimiter_eq_ok_iff.mpr ⟨hpaired, true, t', heat, .inl ⟨rfl, rfl⟩⟩, h'⟩

/-- In a silent parse nothing is empty that must not be. -/
theorem Beside.closeEmpty (h : s.Beside x t) {ifEmpty : Option Problem} {answer : Bool}
    {opener : Span} (opener' : Span) (hclose : s.closeEmpty g ifEmpty answer opener = .ok s')
    (hsilent : s'.Silent) : s' = s ∧ t.closeEmpty e ifEmpty answer opener' = .ok t := by
  obtain ⟨hanswer, rfl⟩ | ⟨problem, -, -, hremark⟩ := closeEmpty_eq_ok_iff.mp hclose
  · exact ⟨rfl, closeEmpty_eq_ok_iff.mpr (.inl ⟨hanswer, rfl⟩)⟩
  · exfalso
    obtain ⟨d, rfl, -⟩ := remarkSince_report hremark
    have hextends := extends_reportAt g s
    exact not_silent_reportAt (hsilent.of_extends (hextends _ _)).running h.unreported _ _ hsilent

end State

end ScriptTree
