import ScriptTree.Proofs.Reading
import ScriptTree.Proofs.Yield

/-!
# The reading of a state

`State.reading` forgets everything of a state but the significant tokens ahead and the significant
part of the frame.  Skipping, draining and reporting do not change it, and consuming a token moves
that token from the input to the frame.

All of this holds while only skipped tokens are pending (`State.Waits`), and it stays so: one lemma
for each operation says what it does to the reading (`State.Waits.look`, `State.Waits.bump`, …).
-/

namespace ScriptTree

namespace Tree

variable {drop : Kind → Bool}

@[simp] theorem eraseAll_nil : eraseAll drop [] = [] := by simp [eraseAll]

/-- Trees are erased one by one. -/
private theorem eraseAll_append (ts us : List Tree) :
    eraseAll drop (ts ++ us) = eraseAll drop ts ++ eraseAll drop us := by
  induction ts with
  | nil => simp
  | cons t ts ih =>
    rw [List.cons_append, eraseAll, eraseAll]
    split
    · exact ih
    · rw [ih, List.cons_append]

/-- A node stays, with what is erased in it. -/
@[simp] theorem eraseAll_node (k : Kind) (cs : List Tree) :
    eraseAll drop [node k cs] = [node k (eraseAll drop cs)] := by
  simp [eraseAll, erase, isDropped]

/-- A leaf stays unless its kind is dropped. -/
theorem eraseAll_leaf {k : Kind} {text : String} (h : drop k = false) :
    eraseAll drop [leaf k text] = [leaf k text] := by
  simp [eraseAll, erase, isDropped, h]

/-- Leaves that are all to be dropped leave nothing. -/
private theorem eraseAll_map_ofToken {ts : List Token} (h : ∀ t ∈ ts, drop t.kind = true) :
    eraseAll drop (ts.map ofToken) = [] := by
  induction ts with
  | nil => simp
  | cons t ts ih =>
    have ht : drop t.kind = true := h t List.mem_cons_self
    simp [eraseAll, ofToken, isDropped, ht, ih fun u hu => h u (List.mem_cons_of_mem t hu)]

end Tree

namespace State

variable {g : Setting} {s s' : State}

/-- The significant tokens ahead, and the significant part of the frame. -/
def reading (s : State) : Reading :=
  ⟨(Token.significant s.rest).map Token.label, Tree.eraseAll Kind.isSkipped s.frame.toList⟩

/-- Only skipped tokens are pending. -/
def Waits (s : State) : Prop := ∀ t ∈ s.pending, t.kind.isSkipped = true

/-! ## The input -/

/-- The kinds that a reading has ahead are those of the significant tokens. -/
theorem kindAt_reading (s : State) (n : Nat) :
    kindAt s.reading.input n = ((Token.significant s.rest)[n]?.map (·.kind)).getD .error := by
  simp [kindAt, reading, Token.label, Function.comp_def]

/-- After skipping, the reading has the current token ahead. -/
theorem reading_input_of_rest {t : Token} {ts : List Token} (h : (s.skip g).rest = t :: ts) :
    s.reading.input = t.label :: (Token.significant ts).map Token.label := by
  rw [skip_rest] at h
  have hsig : t.kind.isSkipped = false := Token.isSkipped_of_dropWhile h
  rw [reading, ← significant_dropWhile, h]
  simp [Token.significant, hsig]

/-- A reading has nothing ahead exactly if nothing is left after skipping. -/
theorem reading_input_isEmpty : s.reading.input.isEmpty = (s.skip g).rest.isEmpty := by
  cases h : (s.skip g).rest with
  | nil =>
    rw [skip_rest] at h
    rw [reading, ← significant_dropWhile, h]
    rfl
  | cons t ts => simp [reading_input_of_rest h]

/-- The text that a reading has ahead is that of the current token. -/
theorem frontText_reading : ScriptTree.frontText s.reading.input = (s.skip g).frontText := by
  cases h : (s.skip g).rest with
  | nil =>
    have hempty : s.reading.input = [] := by
      rw [← List.isEmpty_iff, reading_input_isEmpty (g := g), h]
      rfl
    simp [hempty, ScriptTree.frontText, State.frontText, h]
  | cons t ts =>
    simp [reading_input_of_rest h, State.frontText, h, Token.label]

/-! ## Steps that do not change the reading -/

/-- A reading depends on the tokens ahead and the frame only. -/
theorem reading_congr (hrest : s'.rest = s.rest) (hframe : s'.frame = s.frame) :
    s'.reading = s.reading := by
  rw [reading, reading, hrest, hframe]

/-- Skipping does not change the reading. -/
@[simp] theorem reading_skip : (s.skip g).reading = s.reading := by
  rw [reading, reading, skip_rest, significant_dropWhile, skip_frame]

/-- A report does not change the reading. -/
@[simp] theorem reading_reportAt (o : Nat) (d : Diagnostic) :
    (s.reportAt g o d).reading = s.reading :=
  reading_congr (reportAt_rest o d) (reportAt_frame o d)

/-- Placing skipped tokens does not change the reading. -/
theorem reading_drain (h : s.Waits) : s.drain.reading = s.reading := by
  rw [reading, reading, drain]
  simp [Tree.eraseAll_append, Tree.eraseAll_map_ofToken h]

/-- What is skipped waits with the other tokens that the grammar does not see. -/
theorem Waits.skip (h : s.Waits) : (s.skip g).Waits := by
  intro t ht
  rw [skip_pending] at ht
  obtain ht | ht := List.mem_append.mp ht
  · exact h t ht
  · exact List.all_eq_true.mp List.all_takeWhile t ht

/-- After they were placed, no tokens wait. -/
@[simp] theorem waits_drain : s.drain.Waits := by simp [Waits, drain]

/-! ## Consuming a token -/

/-- A consumed token moves from the input to the frame. -/
theorem reading_consume (hwaits : s.Waits) {t : Token} {ts : List Token}
    (h : (s.skip g).rest = t :: ts) :
    s.reading.Eats t.kind ((s.skip g).consume t ts).reading := by
  have hsig : t.kind.isSkipped = false := by
    rw [skip_rest] at h
    exact Token.isSkipped_of_dropWhile h
  refine ⟨t.text, reading_input_of_rest h, ?_⟩
  simp [reading, Tree.eraseAll_append, Tree.eraseAll_map_ofToken hwaits.skip, Tree.ofToken,
    Tree.eraseAll_leaf hsig]

/-- Behind a token that was consumed, no tokens wait. -/
@[simp] theorem waits_consume (t : Token) (ts : List Token) : (s.consume t ts).Waits := by
  simp [Waits]

/-! ## Frames -/

/-- What is read with a frame of its own starts with nothing. -/
theorem reading_emptied : ({ s.drain with frame := #[] } : State).reading =
    ⟨s.reading.input, []⟩ := by
  simp [reading, drain]

/-- The reading of a frame with a new node is that of both frames. -/
theorem reading_pushNode (hwaits : s.Waits) (k : Kind) (s' : State) :
    ({ s' with frame := s.drain.frame.push (.node k s'.frame.toList) } : State).reading =
      ⟨s'.reading.input, s.reading.frame ++ [Tree.node k s'.reading.frame]⟩ := by
  have hframe := congrArg Reading.frame (reading_drain hwaits)
  simp only [reading] at hframe
  simp [reading, Tree.eraseAll_append, hframe]

/-- The reading of two frames together is that of both. -/
theorem reading_appendFrame (hwaits : s.Waits) (s' : State) :
    ({ s' with frame := s.drain.frame ++ s'.frame } : State).reading =
      ⟨s'.reading.input, s.reading.frame ++ s'.reading.frame⟩ := by
  have hframe := congrArg Reading.frame (reading_drain hwaits)
  simp only [reading] at hframe
  simp [reading, Tree.eraseAll_append, hframe]

/-- The reading of a wrapped frame has one node. -/
theorem reading_wrapped (k : Kind) :
    ({ s with frame := #[.node k s.frame.toList] } : State).reading =
      ⟨s.reading.input, [.node k s.reading.frame]⟩ := by
  simp [reading]

/-! ## Operations -/

/-- What is pending and what is read depend on three fields only. -/
theorem Waits.congr {u : State} (h : s.Waits) (hrest : u.rest = s.rest)
    (hpending : u.pending = s.pending) (hframe : u.frame = s.frame) :
    u.Waits ∧ u.reading = s.reading :=
  ⟨by rwa [Waits, hpending], reading_congr hrest hframe⟩

/-- A report changes neither what waits nor the reading. -/
theorem Waits.reportAt (h : s.Waits) (o : Nat) (d : Diagnostic) :
    (s.reportAt g o d).Waits ∧ (s.reportAt g o d).reading = s.reading :=
  h.congr (reportAt_rest o d) (reportAt_pending o d) (reportAt_frame o d)

/-- A lookahead tells what the reading has ahead, and changes nothing of it. -/
theorem Waits.look (h : s.Waits) {n : Nat} {k : Kind} (hlook : s.look g n = .ok (k, s')) :
    k = kindAt s.reading.input n ∧ s'.Waits ∧ s'.reading = s.reading := by
  obtain ⟨-, rfl, rfl⟩ := look_eq_ok_iff.mp hlook
  obtain ⟨hwaits, hreading⟩ := (h.skip (g := g)).congr
    (u := { s.skip g with patience := s.patience - 1 }) rfl rfl rfl
  exact ⟨(kindAt_reading s n).symm, hwaits, hreading.trans reading_skip⟩

/-- The reading eats the token that is consumed. -/
theorem Waits.bump (h : s.Waits) (hbump : s.bump g = .ok s') :
    s'.Waits ∧ ∃ k, s.reading.Eats k s'.reading := by
  obtain ⟨t, ts, hrest, rfl⟩ := bump_eq_ok_iff.mp hbump
  exact ⟨waits_consume t ts, t.kind, reading_consume h hrest⟩

/-- A complaint changes nothing of the reading. -/
theorem Waits.complain (h : s.Waits) {x : Complaint} (hcomplain : s.complain g x = .ok s') :
    s'.Waits ∧ s'.reading = s.reading := by
  obtain ⟨p, d, rfl, -⟩ := complain_eq_ok hcomplain
  obtain ⟨hwaits, hreading⟩ := (h.skip (g := g)).congr (u := { s.skip g with patience := p })
    rfl rfl rfl
  obtain ⟨hwaits', hreading'⟩ := hwaits.reportAt (g := g) ((s.skip g).frontSpan g).start d
  exact ⟨hwaits', hreading'.trans (hreading.trans reading_skip)⟩

/-- A warning changes nothing of the reading. -/
theorem Waits.remark (h : s.Waits) (problem : Problem) :
    (s.remark g problem).Waits ∧ (s.remark g problem).reading = s.reading := by
  obtain ⟨hwaits, hreading⟩ := (h.skip (g := g)).reportAt (g := g)
    ((s.skip g).frontSpan g).start (.ofProblem problem ((s.skip g).frontSpan g))
  exact ⟨hwaits, hreading.trans reading_skip⟩

/-- To ask for a level changes nothing of the reading. -/
theorem Waits.enter (h : s.Waits) {b : Bool} (henter : s.enter g = (b, s')) :
    s'.Waits ∧ s'.reading = s.reading := by
  obtain ⟨_, _, _, rfl⟩ := enter_eq henter
  exact h.congr rfl rfl rfl

/-- To leave a level changes nothing of the reading. -/
theorem Waits.leave (h : s.Waits) : s.leave.Waits ∧ s.leave.reading = s.reading :=
  h.congr rfl rfl rfl

/-- The reading eats the opener. -/
theorem Waits.openDelimiter (h : s.Waits) {d : Delimiter}
    (hopen : s.openDelimiter g d = .ok s') : s'.Waits ∧ ∃ k, s.reading.Eats k s'.reading := by
  obtain ⟨hwaits, hreading⟩ := (h.skip (g := g)).congr (u := { s.skip g with
    delimiters := (d, (s.skip g).frontSpan g) :: (s.skip g).delimiters }) rfl rfl rfl
  rw [← reading_skip (g := g), ← hreading]
  exact hwaits.bump hopen

/-- A closer is eaten if it is there. -/
theorem Waits.closeDelimiter (h : s.Waits) {d : Delimiter} {construct : String}
    (hclose : s.closeDelimiter g d construct = .ok s') :
    s'.Waits ∧ (s.reading.Eats d.closer s'.reading ∨
      kindAt s.reading.input 0 ≠ d.closer ∧ s'.reading = s.reading) := by
  obtain ⟨found, s₁, hlook, hclosed⟩ := closeDelimiter_eq_ok hclose
  obtain ⟨hwaits, hreading⟩ := h.congr (u := { s with delimiters := s.delimiters.tail })
    rfl rfl rfl
  obtain ⟨hfound, hwaits₁, hreading₁⟩ := hwaits.look hlook
  rw [hreading] at hfound hreading₁
  obtain ⟨rfl, hbump⟩ | ⟨hne, p, dg, -, rfl⟩ := hclosed
  · obtain ⟨hwaits', k, heats⟩ := hwaits₁.bump hbump
    rw [hreading₁] at heats
    obtain rfl : k = d.closer := by rw [hfound, heats.kindAt_eq]
    exact ⟨hwaits', .inl heats⟩
  · obtain ⟨hwaits₂, hreading₂⟩ := hwaits₁.congr (u := { s₁ with patience := p }) rfl rfl rfl
    obtain ⟨hwaits', hreading'⟩ := hwaits₂.reportAt (g := g) (s₁.frontSpan g).start dg
    exact ⟨hwaits', .inr ⟨hfound ▸ hne, hreading'.trans (hreading₂.trans hreading₁)⟩⟩

/-- The report on an empty block changes nothing of the reading. -/
theorem Waits.closeEmpty (h : s.Waits) {ifEmpty : Option Problem} {answer : Bool} {opener : Span}
    (hempty : s.closeEmpty g ifEmpty answer opener = .ok s') :
    s'.Waits ∧ s'.reading = s.reading := by
  obtain ⟨-, rfl⟩ | ⟨problem, -, -, hremark⟩ := closeEmpty_eq_ok_iff.mp hempty
  · exact ⟨h, rfl⟩
  · obtain ⟨d, rfl, -⟩ := remarkSince_report hremark
    exact h.reportAt _ _

/-- A parse that goes on stops at the end of the input. -/
theorem isStopped_reading (hexhausted : s.exhausted = none) (hhalted : (s.skip g).halted = false) :
    (s.skip g).isStopped = s.reading.input.isEmpty := by
  rw [reading_input_isEmpty (g := g), isStopped, skip_exhausted, hexhausted, hhalted]
  simp

end State

end ScriptTree
