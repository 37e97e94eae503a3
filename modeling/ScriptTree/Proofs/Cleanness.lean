import ScriptTree.Proofs.Analyses
import ScriptTree.Proofs.Discipline
import ScriptTree.Proofs.Losslessness

/-!
# Runs without errors

Reports are never taken back, and what has run out stays so (`State.Extends`).  If a run has ended
without an error, no step of it has reported one.

A complaint is dropped if the last report was about the same offset.  So one must know that this
cannot hide the only error: while there is no error, the last report is about a token that has been
consumed since (`State.Fresh`), because only warnings are reported and a warning is about a token
that is consumed next.

## Key results

- `Rule.run_extends`: a rule only adds to the reports
- `Rule.run_reads`: a run without errors reads without mistakes
-/

namespace ScriptTree

namespace State

variable {g : Setting} {s s' s'' : State}

/-! ## Reports are never taken back -/

/-- A later state: with more reports perhaps, and with nothing restored that has run out.  Lexical
    errors that were passed over on the way were reported, unless the parse had halted. -/
def Extends (s s' : State) : Prop :=
  s.diagnostics.toList <+: s'.diagnostics.toList ∧ (s'.exhausted = none → s.exhausted = none) ∧
    (s.halted = true → s'.halted = true) ∧
    ∀ t ∈ s.rest, t.kind.isLexError = true →
      t ∈ s'.rest ∨ s'.halted = true ∨ ∃ d ∈ s'.diagnostics.toList, d.isError = true

/-- A state extends itself. -/
theorem Extends.refl (s : State) : s.Extends s :=
  ⟨List.prefix_rfl, id, id, fun _ ht _ => .inl ht⟩

/-- Reports are added to reports. -/
theorem Extends.trans (h : s.Extends s') (h' : s'.Extends s'') : s.Extends s'' := by
  obtain ⟨hreports, hexhausted, hhalted, htold⟩ := h
  obtain ⟨hreports', hexhausted', hhalted', htold'⟩ := h'
  refine ⟨hreports.trans hreports', fun hnone => hexhausted (hexhausted' hnone),
    fun h => hhalted' (hhalted h), fun t ht herror => ?_⟩
  obtain ht | h | ⟨d, hd, herror'⟩ := htold t ht herror
  · exact htold' t ht herror
  · exact .inr (.inl (hhalted' h))
  · exact .inr (.inr ⟨d, hreports'.subset hd, herror'⟩)

/-- Skipping adds reports at the end. -/
theorem extends_skip (g : Setting) (s : State) : s.Extends (s.skip g) := by
  refine ⟨by rw [skip_eq]; simp, fun h => by rwa [skip_exhausted] at h,
    fun h => by rw [skip_eq]; simp [h], fun t ht herror => ?_⟩
  rw [← List.takeWhile_append_dropWhile (p := (·.kind.isSkipped)) (l := s.rest)] at ht
  rw [skip_rest]
  -- A lexical error that is skipped halts a strict parse and is reported by one that recovers.
  obtain ht | ht := List.mem_append.mp ht
  · right
    rw [skip_eq]
    cases hhalted : s.halted with
    | true => exact .inl rfl
    | false =>
      cases hrecovery : g.recovery with
      | false =>
        left
        simp only [Bool.false_or, Bool.not_false, Bool.true_and, List.any_eq_true]
        exact ⟨t, ht, herror⟩
      | true =>
        have hd : t.lexDiagnostic ∈ passReports g false (s.rest.takeWhile (·.kind.isSkipped)) := by
          rw [passReports, hrecovery]
          exact List.mem_map_of_mem (List.mem_filter.mpr ⟨ht, herror⟩)
        exact .inr ⟨t.lexDiagnostic, by simp [hd], t.isError_lexDiagnostic⟩
  -- A token that is still unread has not been lost.
  · exact .inl ht

/-- A report is added at the end, or dropped. -/
theorem extends_reportAt (g : Setting) (s : State) (o : Nat) (d : Diagnostic) :
    s.Extends (s.reportAt g o d) := by
  refine ⟨?_, fun h => by rwa [reportAt_exhausted] at h, ?_, fun t ht _ => .inl ?_⟩
  · unfold reportAt
    split
    · exact List.prefix_rfl
    · simp [emit]
  · intro h
    simp [reportAt, h]
  · rwa [reportAt_rest]

/-- Consuming a token adds no report. -/
theorem extends_consume {t : Token} {ts : List Token} (hrest : s.rest = t :: ts)
    (ht : t.kind.isSkipped = false) : s.Extends (s.consume t ts) := by
  refine ⟨by simp [consume_diagnostics], fun h => ?_, fun h => by rw [consume_halted, h],
    fun u hu herror => .inl ?_⟩
  -- The budget could run out only where the run is halted.
  · unfold consume spend at h
    split at h
    · exact h
    · cases hs : s.exhausted with
      | none => rfl
      | some e => simp [drain, hs] at h
    · exact h
  · rw [hrest] at hu
    obtain rfl | hu := List.mem_cons.mp hu
    · simp [Kind.isSkipped, herror] at ht
    · exact hu

/-- To be refused a level adds a report at the end. -/
private theorem extends_enter {b : Bool} (h : s.enter g = (b, s')) : s.Extends s' := by
  cases b with
  | false =>
    have hexhausted := exhausted_of_enter h
    obtain ⟨-, rfl⟩ := enter_eq_false_iff.mp h
    exact ⟨List.prefix_rfl, fun hnone => absurd hnone hexhausted, id, fun _ ht _ => .inl ht⟩
  | true =>
    obtain ⟨-, rfl⟩ := enter_eq_true_iff.mp h
    exact .refl s

/-- Neither the frame nor the delimiters nor the depth have a part in what is reported. -/
theorem extends_lasting : Lasting g Extends where
  refl := .refl
  trans := .trans
  skip := extends_skip g
  consume := extends_consume
  reportAt := extends_reportAt g
  withPatience s _ := .refl s
  drain s := .refl s
  regrouped h _ := h
  refused := extends_enter
  granted henter h := (extends_enter henter).trans h
  delimited h := h

end State

variable {g : Setting}

/-- A script only adds to the reports if the rules it calls do. -/
theorem Script.run_extends {rules : Rule → State → Reply}
    (hrules : ∀ rule s a s', rules rule s = .ok (a, s') → s.Extends s')
    {script : Script} {s s' : State} {a : Bool} (h : script.run g rules s = .ok (a, s')) :
    s.Extends s' := Script.run_lasting State.extends_lasting hrules h

/-- A rule only adds to the reports. -/
theorem Rule.run_extends {budget : Nat} {rule : Rule} {s s' : State} {a : Bool}
    (h : rule.run g budget s = .ok (a, s')) : s.Extends s' :=
  Rule.run_lasting State.extends_lasting h

/-! ## What an error-free run goes through -/

namespace State

variable {s s' s'' : State}

/-- No error was reported, and nothing ran out. -/
def Clean (s : State) : Prop := s.exhausted = none ∧ ∀ d ∈ s.diagnostics.toList, d.isError = false

/-- If nothing went wrong in the end, nothing had gone wrong before. -/
theorem Clean.of_extends (h : s'.Clean) (hextends : s.Extends s') : s.Clean :=
  ⟨hextends.2.1 h.1, fun d hd => h.2 d (hextends.1.subset hd)⟩

/-- An error that is not dropped is seen. -/
private theorem not_clean_reportAt {o : Nat} {d : Diagnostic} (hrunning : s.halted = false)
    (hreported : s.reported ≠ some o) (herror : d.isError = true) : ¬ (s.reportAt g o d).Clean := by
  intro h
  have hd : d ∈ (s.reportAt g o d).diagnostics.toList := by
    simp [reportAt, hrunning, hreported, emit]
  have hnone := h.2 d hd
  rw [herror] at hnone
  cases hnone

/-- Offset of the current token, or of the end of the source. -/
def front (g : Setting) (s : State) : Nat := ((s.skip g).frontSpan g).start

/-- The tokens ahead are in order, and the parse has not halted. -/
structure Orderly (g : Setting) (s : State) : Prop where
  waits : s.Waits
  running : s.halted = false
  sorted : s.rest.Pairwise (·.start < ·.start)
  bounded : ∀ t ∈ s.rest, t.start < g.sourceEnd

/-- Nothing was reported about the current token. -/
def Fresh (g : Setting) (s : State) : Prop := ∀ o, s.reported = some o → o < s.front g

/-- Nothing was consumed and nothing was reported. -/
structure Still (g : Setting) (s s' : State) : Prop where
  orderly : s'.Orderly g
  front : s'.front g = s.front g
  reported : s'.reported = s.reported

/-- Something may have been consumed, and reported before it was consumed. -/
structure Passes (g : Setting) (s s' : State) : Prop where
  orderly : s'.Orderly g
  fresh : s'.Fresh g
  front : s.front g ≤ s'.front g
  reported : ∀ o, s'.reported = some o → s.reported = some o ∨ s.front g ≤ o

/-- A state that stands still stays fresh. -/
theorem Still.fresh (h : s.Still g s') (hfresh : s.Fresh g) : s'.Fresh g := by
  intro o ho
  rw [h.reported] at ho
  rw [h.front]
  exact hfresh o ho

/-- A state that stands still passes on what was fresh. -/
theorem Still.passes (h : s.Still g s') (hfresh : s.Fresh g) : s.Passes g s' :=
  ⟨h.orderly, h.fresh hfresh, Nat.le_of_eq h.front.symm,
    fun o ho => .inl (by rw [← h.reported, ho])⟩

/-- One passage after another is a passage. -/
theorem Passes.trans (h : s.Passes g s') (h' : s'.Passes g s'') : s.Passes g s'' := by
  refine ⟨h'.orderly, h'.fresh, Nat.le_trans h.front h'.front, fun o ho => ?_⟩
  obtain ho | ho := h'.reported o ho
  · exact h.reported o ho
  · exact .inr (Nat.le_trans h.front ho)

/-- To stand still first changes nothing of a passage. -/
theorem Still.trans_passes (h : s.Still g s') (h' : s'.Passes g s'') : s.Passes g s'' := by
  refine ⟨h'.orderly, h'.fresh, ?_, fun o ho => ?_⟩
  · rw [← h.front]
    exact h'.front
  · rw [← h.reported, ← h.front]
    exact h'.reported o ho

/-- The position depends on the tokens ahead only. -/
theorem front_congr (h : s'.rest = s.rest) : s'.front g = s.front g := by
  simp [front, frontSpan, skip_rest, h]

/-- Skipping does not move the front. -/
@[simp] theorem front_skip : (s.skip g).front g = s.front g := by simp [front]

/-- What leaves the tokens ahead and the last report alone stands still. -/
theorem Orderly.still (h : s.Orderly g) (hwaits : s'.Waits) (hhalted : s'.halted = s.halted)
    (hrest : s'.rest = s.rest) (hreported : s'.reported = s.reported) : s.Still g s' :=
  ⟨⟨hwaits, by rw [hhalted, h.running], by rw [hrest]; exact h.sorted,
    by rw [hrest]; exact h.bounded⟩, front_congr hrest, hreported⟩

/-- What has a frame of its own is read into an empty one. -/
theorem Orderly.still_emptied (h : s.Orderly g) : s.Still g { s.drain with frame := #[] } :=
  h.still (waits_drain (s := s)) rfl rfl rfl

/-- The frame has no part in what is reported. -/
theorem Passes.withFrame (h : s.Passes g s') (f : Array Tree) :
    s.Passes g { s' with frame := f } := by
  have hstill : s'.Still g { s' with frame := f } :=
    h.orderly.still h.orderly.waits rfl rfl rfl
  exact h.trans (hstill.passes h.fresh)

/-- Skipping stands still. -/
theorem Orderly.still_skip (hrecovery : g.recovery = true) (h : s.Orderly g) :
    s.Still g (s.skip g) := by
  have hsub : ∀ t ∈ (s.skip g).rest, t ∈ s.rest := by
    rw [skip_rest]
    exact fun t ht => (List.dropWhile_sublist _).subset ht
  refine ⟨⟨h.waits.skip, ?_, ?_, fun t ht => h.bounded t (hsub t ht)⟩, front_skip, skip_reported⟩
  · rw [skip_eq]
    simp [hrecovery, h.running]
  · rw [skip_rest]
    exact h.sorted.sublist (List.dropWhile_sublist _)

/-- A token that is consumed leaves all reports behind. -/
private theorem Orderly.passes_consume (hrecovery : g.recovery = true) (h : s.Orderly g)
    (hreported : ∀ o, s.reported = some o → o ≤ s.front g) {t : Token} {ts : List Token}
    (hrest : (s.skip g).rest = t :: ts) :
    s.Passes g ((s.skip g).consume t ts) ∧ s.front g < ((s.skip g).consume t ts).front g := by
  have hskip := (h.still_skip hrecovery).orderly
  have hfront : s.front g = t.start := by simp [front, frontSpan, hrest, Token.span]
  have hsorted := hskip.sorted
  have hbounded := hskip.bounded
  rw [hrest] at hsorted hbounded
  obtain ⟨hfirst, hsorted⟩ := List.pairwise_cons.mp hsorted
  -- The next front is either another token, which starts later, or the end of the source.
  have hlt : s.front g < ((s.skip g).consume t ts).front g := by
    rw [hfront, front, frontSpan, skip_rest, consume_rest]
    cases hts : ts.dropWhile (·.kind.isSkipped) with
    | nil => exact hbounded t List.mem_cons_self
    | cons u us =>
      have hu : u ∈ ts := (List.dropWhile_sublist _).subset (by rw [hts]; exact List.mem_cons_self)
      exact hfirst u hu
  refine ⟨⟨⟨waits_consume t ts, ?_, hsorted, fun u hu => hbounded u (List.mem_cons_of_mem t hu)⟩,
    ?_, Nat.le_of_lt hlt, ?_⟩, hlt⟩
  · rw [consume_halted, hskip.running]
  · intro o ho
    rw [consume_reported, skip_reported] at ho
    exact Nat.lt_of_le_of_lt (hreported o ho) hlt
  · intro o ho
    rw [consume_reported, skip_reported] at ho
    exact .inl ho

/-- Consuming a token moves the front beyond all reports, and the reading eats the token. -/
theorem Orderly.passes_bump (hrecovery : g.recovery = true) (h : s.Orderly g)
    (hreported : ∀ o, s.reported = some o → o ≤ s.front g) (hbump : s.bump g = .ok s') :
    s.Passes g s' ∧ s.front g < s'.front g ∧ s'.reported = s.reported ∧
      ∃ k, s.reading.Eats k s'.reading := by
  obtain ⟨t, ts, hrest, rfl⟩ := bump_eq_ok_iff.mp hbump
  obtain ⟨hpasses, hlt⟩ := h.passes_consume hrecovery hreported hrest
  exact ⟨hpasses, hlt, by rw [consume_reported, skip_reported], t.kind,
    reading_consume h.waits hrest⟩

/-- What is looked at stays. -/
theorem Orderly.still_look (hrecovery : g.recovery = true) (h : s.Orderly g) {n : Nat} {k : Kind}
    (hlook : s.look g n = .ok (k, s')) :
    s.Still g s' ∧ k = kindAt s.reading.input n ∧ s'.reading = s.reading := by
  obtain ⟨-, rfl, rfl⟩ := look_eq_ok_iff.mp hlook
  have hskip := h.still_skip hrecovery
  refine ⟨⟨⟨hskip.orderly.waits, hskip.orderly.running, hskip.orderly.sorted,
    hskip.orderly.bounded⟩, ?_, hskip.reported⟩, (kindAt_reading s n).symm, ?_⟩
  · rw [← hskip.front]
    exact front_congr rfl
  · have hlooked : ({ s.skip g with patience := s.patience - 1 } : State).reading =
        (s.skip g).reading := reading_congr rfl rfl
    rw [hlooked, reading_skip]

/-- To ask for a level stands still. -/
theorem Orderly.still_enter (h : s.Orderly g) {b : Bool} (henter : s.enter g = (b, s')) :
    s.Still g s' ∧ s'.reading = s.reading := by
  obtain ⟨_, _, _, rfl⟩ := enter_eq henter
  exact ⟨h.still h.waits rfl rfl rfl, rfl⟩

/-- A complaint is an error that is seen. -/
private theorem Orderly.not_clean_complain (hrecovery : g.recovery = true) (h : s.Orderly g)
    (hfresh : s.Fresh g) {x : Complaint} (hx : x.problem.severity = .error)
    (hcomplain : s.complain g x = .ok s') : ¬ s'.Clean := by
  obtain ⟨p, d, rfl, hd⟩ := complain_eq_ok hcomplain
  refine not_clean_reportAt (h.still_skip hrecovery).orderly.running ?_ ?_
  · intro hreported
    have hlt := hfresh _ (by rw [← skip_reported, ← hreported])
    exact Nat.lt_irrefl _ hlt
  · rw [Diagnostic.isError, Diagnostic.severity, hd, hx]
    rfl

/-- After a report the last place is the one before, or that of the report. -/
theorem reported_of_reportAt {o o' : Nat} {d : Diagnostic}
    (h : (s.reportAt g o d).reported = some o') : s.reported = some o' ∨ o' = o := by
  unfold reportAt at h
  split at h
  · exact .inl h
  · exact .inr (Option.some.inj h).symm

/-- A remark about the current token changes nothing but the reports. -/
theorem Orderly.remark (hrecovery : g.recovery = true) (h : s.Orderly g) (problem : Problem) :
    (s.remark g problem).Orderly g ∧ (s.remark g problem).front g = s.front g ∧
      (∀ o, (s.remark g problem).reported = some o → s.reported = some o ∨ o = s.front g) ∧
        (s.remark g problem).reading = s.reading := by
  have hskip := h.still_skip hrecovery
  have hfront : (s.remark g problem).front g = s.front g := by
    rw [State.remark, front_congr (reportAt_rest _ _), front_skip]
  -- A remark skips and reports, so the invariant is that of the skipped state.
  refine ⟨⟨?_, ?_, ?_, ?_⟩, hfront, fun o ho => ?_, ?_⟩
  · rw [State.remark, Waits, reportAt_pending]
    exact h.waits.skip
  · unfold State.remark reportAt
    dsimp only
    split
    · exact hskip.orderly.running
    · simp [emit, hskip.orderly.running, hrecovery]
  · rw [State.remark, reportAt_rest]
    exact hskip.orderly.sorted
  · rw [State.remark, reportAt_rest]
    exact hskip.orderly.bounded
  · obtain ho | ho := reported_of_reportAt ho
    · exact .inl (by rw [← hskip.reported, ho])
    · exact .inr ho
  · rw [State.remark, reading_reportAt, reading_skip]

/-- A closer that is missing is an error that is seen. -/
private theorem Orderly.closer_of_clean (hrecovery : g.recovery = true) (h : s.Orderly g)
    (hfresh : s.Fresh g) {d : Delimiter} {construct : String}
    (hclose : s.closeDelimiter g d construct = .ok s') (hclean : s'.Clean) :
    s.Passes g s' ∧ s'.reported = s.reported ∧ s.reading.Eats d.closer s'.reading := by
  -- A closer is looked for; the lookahead does not change what is read.
  obtain ⟨found, s₁, hlook, hclosed⟩ := closeDelimiter_eq_ok hclose
  have htail : s.Still g { s with delimiters := s.delimiters.tail } :=
    h.still h.waits rfl rfl rfl
  obtain ⟨hlooked, hfound, hreading⟩ := htail.orderly.still_look hrecovery hlook
  have hfresh₁ := hlooked.fresh (htail.fresh hfresh)
  have hfound : found = kindAt s.reading.input 0 := hfound
  have hreading : s₁.reading = s.reading := hreading
  obtain ⟨rfl, hbump⟩ | ⟨-, p, dg, hdg, rfl⟩ := hclosed
  · obtain ⟨hpasses, -, hreported, k, heats⟩ := hlooked.orderly.passes_bump hrecovery
      (fun o ho => Nat.le_of_lt (hfresh₁ o ho)) hbump
    rw [hreading] at heats
    obtain rfl : k = d.closer := by rw [hfound, heats.kindAt_eq]
    refine ⟨htail.trans_passes (hlooked.trans_passes hpasses), ?_, heats⟩
    rw [hreported, hlooked.reported, htail.reported]
  -- Nothing has been reported at the front since it was reached, so the report that the closer is
  -- missing is not a duplicate and is recorded.
  · refine absurd hclean (not_clean_reportAt hlooked.orderly.running ?_ hdg)
    intro hreported
    have hlt := hfresh₁ _ hreported
    rw [front, skip_of_look hlook] at hlt
    exact Nat.lt_irrefl _ hlt

/-- A block that is empty is an error that is seen, since no report is about its opener. -/
private theorem nonempty_of_clean {ifEmpty : Option Problem} {answer : Bool} {opener : Span}
    (hrunning : s.halted = false) (hreported : s.reported ≠ some opener.start)
    (herror : ∀ problem, ifEmpty = some problem → problem.severity = .error)
    (hempty : s.closeEmpty g ifEmpty answer opener = .ok s') (hclean : s'.Clean) :
    s' = s ∧ (ifEmpty.isSome = true → answer = true) := by
  obtain ⟨hanswer, rfl⟩ | ⟨problem, hproblem, -, hremark⟩ := closeEmpty_eq_ok_iff.mp hempty
  · exact ⟨rfl, hanswer⟩
  · obtain ⟨d, rfl, hd, -⟩ := remarkSince_report hremark
    -- The report on an empty block stands where its opener starts, where none was made before.
    refine absurd hclean (not_clean_reportAt hrunning hreported ?_)
    simp [Diagnostic.isError, Diagnostic.severity, hd, herror problem hproblem]

/-- An opener is consumed like any token. -/
theorem Orderly.passes_openDelimiter (hrecovery : g.recovery = true) (h : s.Orderly g)
    (hfresh : s.Fresh g) {d : Delimiter} (hopen : s.openDelimiter g d = .ok s') :
    s.Passes g s' ∧ s.front g < s'.front g ∧ s'.reported = s.reported ∧
      ∃ k, s.reading.Eats k s'.reading := by
  have hskip := h.still_skip hrecovery
  have hpushed : (s.skip g).Still g
      { s.skip g with delimiters := (d, (s.skip g).frontSpan g) :: (s.skip g).delimiters } :=
    hskip.orderly.still hskip.orderly.waits rfl rfl rfl
  have hfresh' := hpushed.fresh (hskip.fresh hfresh)
  -- The opener is consumed with the delimiter already open.
  obtain ⟨hpasses, hlt, hreported, k, heats⟩ := hpushed.orderly.passes_bump hrecovery
    (fun o ho => Nat.le_of_lt (hfresh' o ho)) hopen
  have hsame : State.reading { s.skip g with
      delimiters := (d, (s.skip g).frontSpan g) :: (s.skip g).delimiters } = s.reading :=
    (reading_congr rfl rfl).trans (reading_skip (g := g))
  rw [hsame] at heats
  refine ⟨hskip.trans_passes (hpushed.trans_passes hpasses), ?_, ?_, k, heats⟩
  · rwa [hpushed.front, hskip.front] at hlt
  · rw [hreported, hpushed.reported, hskip.reported]

end State

/-- What a rule does in a run without errors. -/
def Rule.Tracks (g : Setting) (rules : Rule → State → Reply) (calls : Calls) : Prop :=
  ∀ rule s a s', rules rule s = .ok (a, s') → s'.Clean → s.Orderly g → s.Fresh g →
    s.Passes g s' ∧ calls rule s.reading a s'.reading

/-- From the state the script is in order, and that it reads without mistakes shows what is claimed
    of the outcome.  A token that was warned about may stand in front of it if it is consumed next.
    -/
def Script.KeepsReading (g : Setting) (calls : Calls) (rank : Nat) (script : Script) (s : State)
    (goal : Bool → State → Prop) : Prop :=
  ∃ e p post, script.Steady rank e p post ∧ s.Orderly g ∧
    (∀ o, s.reported = some o → o ≤ s.front g) ∧ (script.isBump = true ∨ s.Fresh g) ∧
      ∀ a s', s.Passes g s' → (∃ e' p', post e' p') →
        script.Reads true calls s.reading a s'.reading → goal a s'

namespace Script.KeepsReading

variable {calls : Calls} {rank p : Nat} {post : Bool → Nat → Prop} {script next body : Script}
  {s s' s₁ : State} {goal goal' : Bool → State → Prop}

/-- A run may be promised less of in the end. -/
theorem mono (h : script.KeepsReading g calls rank s goal)
    (hgoal : ∀ a s', goal a s' → goal' a s') : script.KeepsReading g calls rank s goal' := by
  obtain ⟨e, p, post, hsteady, horderly, hback, hfresh, hshown⟩ := h
  exact ⟨e, p, post, hsteady, horderly, hback, hfresh, fun a s' hpasses hpost hreads =>
    hgoal a s' (hshown a s' hpasses hpost hreads)⟩

/-- From a fresh state the walk through a script is what its run reads. -/
theorem of_fresh {e : Bool} (hsteady : script.Steady rank e p post) (horderly : s.Orderly g)
    (hfresh : s.Fresh g)
    (hgoal : ∀ a s', s.Passes g s' → (∃ e' p', post e' p') →
      script.Reads true calls s.reading a s'.reading → goal a s') :
    script.KeepsReading g calls rank s goal :=
  ⟨e, p, post, hsteady, horderly, fun o ho => Nat.le_of_lt (hfresh o ho), .inr hfresh, hgoal⟩

/-- Only a script that consumes the next token may begin after a warning about it. -/
theorem fresh (h : script.KeepsReading g calls rank s goal) (hbump : script.isBump = false) :
    ∃ e p post, script.Steady rank e p post ∧ s.Orderly g ∧ s.Fresh g ∧
      ∀ a s', s.Passes g s' → (∃ e' p', post e' p') →
        script.Reads true calls s.reading a s'.reading → goal a s' := by
  obtain ⟨e, p, post, hsteady, horderly, -, hfresh, hgoal⟩ := h
  exact ⟨e, p, post, hsteady, horderly, hfresh.resolve_left (by simp [hbump]), hgoal⟩

/-- The warning may be about the front token itself, since that one is consumed next. -/
theorem remark (hrecovery : g.recovery = true) {problem : Problem}
    (h : (Script.remark problem next).KeepsReading g calls rank s goal) :
    next.KeepsReading g calls rank (s.remark g problem) goal := by
  obtain ⟨e, p, post, ⟨hwarning, hbump, hsteady⟩, horderly, hback, hfresh, hgoal⟩ := h
  obtain ⟨horderly₁, hfront, hreported, hreading⟩ := horderly.remark hrecovery problem
  have hback₁ : ∀ o, (s.remark g problem).reported = some o →
      o ≤ (s.remark g problem).front g := by
    -- What was reported lies at the front or behind it.
    intro o ho
    rw [hfront]
    obtain ho | rfl := hreported o ho
    · exact hback o ho
    · exact Nat.le_refl _
  refine ⟨e, p, post, hsteady, horderly₁, hback₁, .inl hbump, fun a s' hpasses hpost hreads => ?_⟩
  rw [hreading] at hreads
  -- The body goes on after the remark, which has moved nothing.
  refine hgoal a s' ⟨hpasses.orderly, hpasses.fresh, by rw [← hfront]; exact hpasses.front, ?_⟩
    hpost ⟨rfl, hwarning, hreads⟩
  intro o ho
  obtain ho | ho := hpasses.reported o ho
  · exact (hreported o ho).imp_right fun heq => Nat.le_of_eq heq.symm
  · exact .inr (by rwa [hfront] at ho)

/-- A complaint is an error, and errors do not go away; all other answers are as the tokens ahead
    make them. -/
theorem step (hrecovery : g.recovery = true) (hstep : Step g script s next s') (hclean : s'.Clean)
    (h : script.KeepsReading g calls rank s goal) : next.KeepsReading g calls rank s' goal := by
  -- Each step reads what it should; a step that looks or skips leaves the reading as it is.
  cases hstep with
  | remark problem => exact h.remark hrecovery
  | look hlook =>
    obtain ⟨e, p, post, hsteady, horderly, hfresh, hgoal⟩ := h.fresh rfl
    obtain ⟨hstill, rfl, hreading⟩ := horderly.still_look hrecovery hlook
    refine of_fresh (hsteady.2 _) hstill.orderly (hstill.fresh hfresh) ?_
    intro a s' hpasses hpost hreads
    rw [hreading] at hreads
    exact hgoal a s' (hstill.trans_passes hpasses) hpost hreads
  | text next =>
    obtain ⟨e, p, post, hsteady, horderly, hfresh, hgoal⟩ := h.fresh rfl
    have hstill := horderly.still_skip hrecovery
    refine of_fresh (hsteady _) hstill.orderly (hstill.fresh hfresh) ?_
    intro a s' hpasses hpost hreads
    rw [State.reading_skip, ← State.frontText_reading] at hreads
    exact hgoal a s' (hstill.trans_passes hpasses) hpost hreads
  | stopped next =>
    obtain ⟨e, p, post, hsteady, horderly, hfresh, hgoal⟩ := h.fresh rfl
    have hstill := horderly.still_skip hrecovery
    have hstopped : (s.skip g).isStopped = s.reading.input.isEmpty := by
      rw [State.reading_input_isEmpty (g := g), State.isStopped, hclean.1, hstill.orderly.running]
      simp
    refine of_fresh (hsteady _) hstill.orderly (hstill.fresh hfresh) ?_
    intro a s' hpasses hpost hreads
    rw [State.reading_skip, hstopped] at hreads
    exact hgoal a s' (hstill.trans_passes hpasses) hpost hreads
  | exhausted next =>
    obtain ⟨e, p, post, hsteady, horderly, hfresh, hgoal⟩ := h.fresh rfl
    rw [hclean.1]
    exact of_fresh hsteady horderly hfresh hgoal
  | flush =>
    obtain ⟨e, p, post, hsteady, horderly, hfresh, hgoal⟩ := h.fresh rfl
    have hskip := horderly.still_skip hrecovery
    have hdrain : (s.skip g).Still g (s.skip g).drain :=
      hskip.orderly.still State.waits_drain rfl rfl rfl
    refine of_fresh hsteady hdrain.orderly (hdrain.fresh (hskip.fresh hfresh)) ?_
    intro a s' hpasses hpost hreads
    rw [State.reading_drain hskip.orderly.waits, State.reading_skip] at hreads
    exact hgoal a s' (hskip.trans_passes (hdrain.trans_passes hpasses)) hpost hreads
  | complain hcomplain =>
    obtain ⟨e, p, post, hsteady, horderly, hfresh, hgoal⟩ := h.fresh rfl
    exact absurd hclean (horderly.not_clean_complain hrecovery hfresh hsteady hcomplain)

/-- The reading eats the token that is consumed, and the walk goes on behind it. -/
theorem bump (hrecovery : g.recovery = true) (hbump : s.bump g = .ok s')
    (h : (Script.bump next).KeepsReading g calls rank s goal) :
    next.KeepsReading g calls rank s' goal := by
  obtain ⟨e, p, post, hsteady, horderly, hback, -, hgoal⟩ := h
  obtain ⟨hpasses, -, -, k, heats⟩ := horderly.passes_bump hrecovery hback hbump
  exact of_fresh hsteady hpasses.orderly hpasses.fresh fun a s' hpasses' hpost hreads =>
    hgoal a s' (hpasses.trans hpasses') hpost ⟨k, _, heats, hreads⟩

/-- The body of a node is read from an empty frame, and the node put behind what was there. -/
theorem node {k : Kind} (h : (Script.node k body next).KeepsReading g calls rank s goal) :
    body.KeepsReading g calls rank { s.drain with frame := #[] } fun _ s₁ =>
      next.KeepsReading g calls rank
        { s₁ with frame := s.drain.frame.push (.node k s₁.frame.toList) } goal := by
  obtain ⟨e, p, post, hsteady, horderly, hfresh, hgoal⟩ := h.fresh rfl
  have hemptied := horderly.still_emptied
  refine of_fresh hsteady hemptied.orderly (hemptied.fresh hfresh) ?_
  rintro b s₁ hbodied ⟨e', p', hsteady'⟩ hreads
  -- The node is put behind what was in the frame before.
  have hpushed := (hemptied.trans_passes hbodied).withFrame
    (s.drain.frame.push (.node k s₁.frame.toList))
  refine of_fresh hsteady' hpushed.orderly hpushed.fresh fun a s' hpasses hpost hreads' => ?_
  rw [State.reading_emptied] at hreads
  rw [State.reading_pushNode horderly.waits] at hreads'
  exact hgoal a s' (hpushed.trans hpasses) hpost ⟨b, _, hreads, hreads'⟩

/-- The body of a group is read from an empty frame, and its trees put behind what was there. -/
theorem group (h : (Script.group body next).KeepsReading g calls rank s goal) :
    body.KeepsReading g calls rank { s.drain with frame := #[] } fun _ s₁ =>
      next.KeepsReading g calls rank { s₁ with frame := s.drain.frame ++ s₁.frame } goal := by
  obtain ⟨e, p, post, hsteady, horderly, hfresh, hgoal⟩ := h.fresh rfl
  have hemptied := horderly.still_emptied
  refine of_fresh hsteady hemptied.orderly (hemptied.fresh hfresh) ?_
  rintro b s₁ hbodied ⟨e', p', hsteady'⟩ hreads
  have hgrouped := (hemptied.trans_passes hbodied).withFrame (s.drain.frame ++ s₁.frame)
  refine of_fresh hsteady' hgrouped.orderly hgrouped.fresh fun a s' hpasses hpost hreads' => ?_
  rw [State.reading_emptied] at hreads
  rw [State.reading_appendFrame horderly.waits] at hreads'
  exact hgoal a s' (hgrouped.trans hpasses) hpost ⟨b, _, hreads, hreads'⟩

/-- The body of what wraps is read in the same frame, which is one node then. -/
theorem wrap {k : Kind} (h : (Script.wrap k body next).KeepsReading g calls rank s goal) :
    body.KeepsReading g calls rank s fun _ s₁ =>
      next.KeepsReading g calls rank { s₁ with frame := #[.node k s₁.frame.toList] } goal := by
  obtain ⟨e, p, post, hsteady, horderly, hfresh, hgoal⟩ := h.fresh rfl
  refine of_fresh hsteady horderly hfresh ?_
  rintro b s₁ hbodied ⟨e', p', hsteady'⟩ hreads
  have hwrapped := hbodied.withFrame #[.node k s₁.frame.toList]
  refine of_fresh hsteady' hwrapped.orderly hwrapped.fresh fun a s' hpasses hpost hreads' => ?_
  rw [State.reading_wrapped] at hreads'
  exact hgoal a s' (hwrapped.trans hpasses) hpost ⟨b, _, hreads, hreads'⟩

/-- On a level that was granted the reading goes on, and after it was left. -/
theorem granted {next : Bool → Script} (henter : s.enter g = (true, s₁))
    (h : (Script.deeper body next).KeepsReading g calls rank s goal) :
    body.KeepsReading g calls rank s₁ fun _ s₂ =>
      (next true).KeepsReading g calls rank s₂.leave goal := by
  obtain ⟨e, p, post, hsteady, horderly, hfresh, hgoal⟩ := h.fresh rfl
  obtain ⟨hentered, hreading⟩ := horderly.still_enter henter
  refine of_fresh hsteady hentered.orderly (hentered.fresh hfresh) ?_
  rintro b s₂ hpasses ⟨e', p', hsteady'⟩ hreads
  -- To leave the level moves nothing.
  have hleft : s₂.Still g s₂.leave := hpasses.orderly.still hpasses.orderly.waits rfl rfl rfl
  refine of_fresh hsteady' hleft.orderly (hleft.fresh hpasses.fresh)
    fun a s' hpasses' hpost hreads' => ?_
  rw [hreading] at hreads
  exact hgoal a s' (hentered.trans_passes (hpasses.trans (hleft.trans_passes hpasses'))) hpost
    ⟨b, _, hreads, hreads'⟩

/-- The closer was there, and the text between the delimiters is not empty where it must not be. -/
theorem enclosed (hrecovery : g.recovery = true) {d : Delimiter} {construct : String}
    {ifEmpty : Option Problem} (hopen : s.openDelimiter g d = .ok s₁)
    (h : (Script.enclosed d construct ifEmpty body next).KeepsReading g calls rank s goal) :
    body.KeepsReading g calls rank s₁ fun b s₂ => ∀ s₃ s₄,
      s₂.closeDelimiter g d construct = .ok s₃ →
        s₃.closeEmpty g ifEmpty b ((s.skip g).frontSpan g) = .ok s₄ → s₄.Clean →
          next.KeepsReading g calls rank s₄ goal := by
  obtain ⟨e, p, post, ⟨herror, hsteady⟩, horderly, hfresh, hgoal⟩ := h.fresh rfl
  obtain ⟨hopened, hlt, hreported₁, k, heats⟩ :=
    horderly.passes_openDelimiter hrecovery hfresh hopen
  refine of_fresh hsteady hopened.orderly hopened.fresh ?_
  rintro b s₂ hpasses ⟨e', p', -, hsteady'⟩ hreads s₃ s₄ hclose hempty hclean
  obtain ⟨hclosed, hreported₃, heats'⟩ :=
    hpasses.orderly.closer_of_clean hrecovery hpasses.fresh hclose
      (hclean.of_extends (State.extends_lasting.closeEmpty hempty))
  -- Reports after the opener are about later tokens, and those before it about earlier ones.
  have hopener : s₃.reported ≠ some ((s.skip g).frontSpan g).start := by
    intro ho
    rw [hreported₃] at ho
    obtain ho | ho := hpasses.reported _ ho
    · rw [hreported₁] at ho
      exact Nat.lt_irrefl _ (hfresh _ ho)
    · exact Nat.lt_irrefl _ (Nat.lt_of_lt_of_le hlt ho)
  obtain ⟨rfl, hanswer⟩ := State.nonempty_of_clean hclosed.orderly.running hopener herror hempty
    hclean
  exact of_fresh hsteady' hclosed.orderly hclosed.fresh fun a s' hpasses' hpost hreads' =>
    hgoal a s' (hopened.trans (hpasses.trans (hclosed.trans hpasses'))) hpost
      ⟨k, _, heats, b, _, hreads, hanswer, _, heats', hreads'⟩

/-- A rule that was called read what is promised of rules. -/
theorem call {rules : Rule → State → Reply} (hrules : Rule.Tracks g rules calls) {rule : Rule}
    {next : Bool → Script} {b : Bool} (hcall : rules rule s = .ok (b, s₁)) (hclean : s₁.Clean)
    (h : (Script.call rule next).KeepsReading g calls rank s goal) :
    (next b).KeepsReading g calls rank s₁ goal := by
  obtain ⟨e, p, post, hsteady, horderly, hfresh, hgoal⟩ := h.fresh rfl
  obtain ⟨hpasses, hcalled⟩ := hrules _ _ _ _ hcall hclean horderly hfresh
  exact of_fresh (hsteady.2.2 b) hpasses.orderly hpasses.fresh fun a s' hpasses' hpost hreads =>
    hgoal a s' (hpasses.trans hpasses') hpost ⟨b, _, hcalled, hreads⟩

end Script.KeepsReading

/-- The order of a script shows that it reads without mistakes, unless an error is reported. -/
def Script.readingAnalysis (hrecovery : g.recovery = true) {rules : Rule → State → Reply}
    {calls : Calls} (hrules : Rule.Tracks g rules calls)
    (hextends : ∀ rule s a s', rules rule s = .ok (a, s') → s.Extends s') (rank : Nat) :
    Script.Analysis g rules where
  Fine := KeepsReading g calls rank
  Last := State.Clean
  Before := State.Extends
  lasting := State.extends_lasting
  before := hextends
  back hbefore hclean := hclean.of_extends hbefore
  outer hclean := hclean
  done h := by
    obtain ⟨e, p, post, hsteady, horderly, hfresh, hgoal⟩ := h.fresh rfl
    exact hgoal _ _ ((horderly.still horderly.waits rfl rfl rfl).passes hfresh) ⟨e, p, hsteady⟩
      ⟨rfl, rfl⟩
  step := .step hrecovery
  bump hbump _ := .bump hrecovery hbump
  node h := h.node.mono fun _ _ hnext _ _ => hnext
  group h := h.group.mono fun _ _ hnext _ _ => hnext
  wrap h := h.wrap.mono fun _ _ hnext _ _ => hnext
  refused henter hclean _ := absurd hclean.1 (State.exhausted_of_enter henter)
  granted henter h := (h.granted henter).mono fun _ _ hnext _ _ => hnext
  enclosed hopen h := (h.enclosed hrecovery hopen).mono fun _ _ hnext _ => hnext
  call := .call hrules

/-- A script whose run ends without errors reads without mistakes, if that is so for the rules that
    it calls.  A token that was warned about may stand in front of it if that is consumed next. -/
theorem Script.run_reads (hrecovery : g.recovery = true) {rules : Rule → State → Reply}
    {calls : Calls} (hrules : Rule.Tracks g rules calls)
    (hextends : ∀ rule s a s', rules rule s = .ok (a, s') → s.Extends s')
    {rank : Nat} {e : Bool} {p : Nat} {post : Bool → Nat → Prop} {script : Script}
    {s s' : State} {a : Bool} (hsteady : script.Steady rank e p post)
    (hrun : script.run g rules s = .ok (a, s')) (hclean : s'.Clean) (h : s.Orderly g)
    (hback : ∀ o, s.reported = some o → o ≤ s.front g)
    (hfresh : script.isBump = true ∨ s.Fresh g) :
    s.Passes g s' ∧ (∃ e' p', post e' p') ∧ script.Reads true calls s.reading a s'.reading := by
  have hkeeps : script.KeepsReading g calls rank s fun a s' =>
      s.Passes g s' ∧ (∃ e' p', post e' p') ∧ script.Reads true calls s.reading a s'.reading :=
    ⟨e, p, post, hsteady, h, hback, hfresh, fun _ _ hpasses hpost hreads =>
      ⟨hpasses, hpost, hreads⟩⟩
  exact run_sound (readingAnalysis hrecovery hrules hextends rank) hkeeps hrun hclean

/-- A rule whose run ends without errors reads without mistakes. -/
theorem Rule.run_reads (hrecovery : g.recovery = true) (budget : Nat) :
    Rule.Tracks g (Rule.run g budget) (Rule.Reads true budget) := by
  induction budget with
  | zero =>
    intro rule s a s' hrun
    cases hrun
  | succ budget ih =>
    intro rule s a s' hrun hclean h hfresh
    have hsteady := rule.steady rule.spends_le (Nat.le_refl _)
    obtain ⟨hpasses, -, hreads⟩ := Script.run_reads hrecovery ih
      (fun _ _ _ _ => Rule.run_extends) hsteady hrun hclean h
      (fun o ho => Nat.le_of_lt (hfresh o ho)) (.inr hfresh)
    exact ⟨hpasses, hreads⟩

/-- A parse that recovers from errors, but has met none, reads without mistakes, and no token was a
    lexical error. -/
theorem parseLexed_reads {o : Options} (hrecovery : o.recovery = true) {source : String}
    {tokens : List Token} (hsorted : tokens.Pairwise (·.start < ·.start))
    (hbounded : ∀ t ∈ tokens, t.start < Text.byteLength source.toList) {p : Parsed}
    (hparse : parseLexed o source tokens = .ok (.ok p))
    (hclean : ∀ d ∈ p.diagnostics, d.isError = false) :
    (∀ t ∈ tokens, t.kind.isLexError = false) ∧ ∃ input children,
      (Rule.Parses true).To .program ⟨(Token.significant tokens).map Token.label, []⟩
        ⟨input, children⟩ ∧
      p.tree.significant = .node .program children := by
  rw [parseLexed] at hparse
  obtain ⟨⟨a, s⟩, hrun, hfinish⟩ := bind_eq_ok_iff.mp hparse
  dsimp only at hfinish
  unfold State.finish at hfinish
  split at hfinish
  · cases hfinish
  next hexhausted =>
  split at hfinish
  · cases hfinish
  next hhalted =>
  dsimp only at hfinish
  split at hfinish
  · cases hfinish
    have horderly : (State.initial tokens o.stepLimit).Orderly
        ⟨Text.byteLength source.toList, o.recovery, o.depthLimit⟩ :=
      ⟨by simp [State.Waits, State.initial], rfl, hsorted, hbounded⟩
    obtain ⟨-, hreads⟩ := Rule.run_reads hrecovery _ _ _ _ _ hrun ⟨hexhausted, hclean⟩ horderly
      (by simp [State.Fresh, State.initial])
    refine ⟨fun t ht => ?_, s.reading.input, s.reading.frame, ⟨a, _, hreads⟩, ?_⟩
    -- Every token has been passed, so a lexical error among them has been reported or has halted
    -- the run.
    · obtain ⟨hrest, -⟩ := Rule.run_program_rest hrun hexhausted (by simpa using hhalted)
      cases herror : t.kind.isLexError with
      | false => rfl
      | true =>
        obtain hrest' | hhalted' | ⟨d, hd, herror'⟩ := (Rule.run_extends hrun).2.2.2 t ht herror
        · rw [hrest] at hrest'
          cases hrest'
        · exact absurd hhalted' hhalted
        · rw [hclean d hd] at herror'
          cases herror'
    · rw [Tree.significant, Tree.erase]
      rfl
  · cases hfinish

end ScriptTree
