import ScriptTree.Proofs.Execution
import ScriptTree.Proofs.Safety

/-!
# The grammar does not see skipped tokens

Two sources with the same significant tokens are parsed alike, whatever stands between the tokens:
the same trees are built, the same things are reported about the same tokens, and the same limits
are met.

Offsets differ, so they are compared by the tokens they belong to.  `Landmarks` are the places of
the significant tokens of a source; two offsets are alike if they are where corresponding tokens
start, or where they stop.  In particular two reports about one offset in one source are about one
offset in the other, which matters since the second one is dropped.

## Key results

- `Rule.run_alike`: a rule takes states that are alike to states that are alike
- `parse_alike`: parses of sources with the same significant tokens
-/

namespace ScriptTree

/-! ## Places -/

/-- The significant tokens of a source, and where it ends. -/
structure Landmarks where
  tokens : List Token
  sourceEnd : Nat

namespace Landmarks

/-- The landmarks of a source. -/
def ofSource (source : String) : Landmarks :=
  ⟨Token.significant (Token.lex source), Text.byteLength source.toList⟩

/-- Where the token with a given index starts; after the last one, the end of the source. -/
def startAt (l : Landmarks) (i : Nat) : Nat := (l.tokens[i]?.map (·.start)).getD l.sourceEnd

/-- Where the token with a given index stops; after the last one, the end of the source. -/
def stopAt (l : Landmarks) (i : Nat) : Nat := (l.tokens[i]?.map (·.stop)).getD l.sourceEnd

/-- A parse with recovery. -/
def setting (l : Landmarks) (depth : Option Nat) : Setting := ⟨l.sourceEnd, true, depth⟩

/-- The tokens are in order, and before the end. -/
structure Ordered (l : Landmarks) : Prop where
  sorted : l.tokens.Pairwise (·.start < ·.start)
  bounded : ∀ t ∈ l.tokens, t.start < l.sourceEnd

/-- Two sources have the same significant tokens. -/
structure Match (l l' : Landmarks) : Prop where
  labels : l.tokens.map Token.label = l'.tokens.map Token.label
  ordered : l.Ordered
  ordered' : l'.Ordered

/-- Two offsets are where corresponding tokens start, or where the sources end. -/
def StartsAlike (l l' : Landmarks) (o o' : Nat) : Prop :=
  ∃ i ≤ l.tokens.length, o = l.startAt i ∧ o' = l'.startAt i

/-- Two offsets are where corresponding tokens stop, or where the sources end. -/
def StopsAlike (l l' : Landmarks) (o o' : Nat) : Prop :=
  ∃ i ≤ l.tokens.length, o = l.stopAt i ∧ o' = l'.stopAt i

variable {l l' : Landmarks}

/-- Behind the last token a source ends. -/
private theorem startAt_length : l.startAt l.tokens.length = l.sourceEnd := by simp [startAt]

/-- Behind the last token a source ends. -/
private theorem stopAt_length : l.stopAt l.tokens.length = l.sourceEnd := by simp [stopAt]

/-- Later tokens start later. -/
private theorem Ordered.startAt_lt (h : l.Ordered) {i j : Nat} (hij : i < j)
    (hj : j ≤ l.tokens.length) : l.startAt i < l.startAt j := by
  have hi : i < l.tokens.length := by omega
  have hstart : l.startAt i = l.tokens[i].start := by simp [startAt, hi]
  rw [hstart]
  obtain rfl | hj := Nat.eq_or_lt_of_le hj
  · rw [startAt_length]
    exact h.bounded _ (List.getElem_mem hi)
  · have hstart' : l.startAt j = l.tokens[j].start := by simp [startAt, hj]
    rw [hstart']
    exact List.pairwise_iff_getElem.mp h.sorted i j hi hj hij

/-- No two tokens start at the same offset. -/
private theorem Ordered.startAt_inj (h : l.Ordered) {i j : Nat} (hi : i ≤ l.tokens.length)
    (hj : j ≤ l.tokens.length) : l.startAt i = l.startAt j ↔ i = j := by
  constructor
  · intro heq
    obtain hlt | rfl | hlt := Nat.lt_trichotomy i j
    · have := h.startAt_lt hlt hj
      omega
    · rfl
    · have := h.startAt_lt hlt hi
      omega
  · rintro rfl
    rfl

/-- Sources that match have as many significant tokens. -/
theorem Match.length_eq (h : l.Match l') : l'.tokens.length = l.tokens.length := by
  have hlength := congrArg List.length h.labels
  simpa using hlength.symm

/-- The ends of the sources are alike. -/
private theorem Match.stopsAlike_end (h : l.Match l') : l.StopsAlike l' l.sourceEnd l'.sourceEnd :=
  ⟨l.tokens.length, Nat.le_refl _, stopAt_length.symm, by rw [← h.length_eq, stopAt_length]⟩

/-- The ends of sources that match correspond. -/
private theorem Match.startsAlike_end (h : l.Match l') :
    l.StartsAlike l' l.sourceEnd l'.sourceEnd :=
  ⟨l.tokens.length, Nat.le_refl _, startAt_length.symm, by rw [← h.length_eq, startAt_length]⟩

/-- Offsets that are equal in one source are equal in the other. -/
private theorem Match.eq_iff (h : l.Match l') {o o' r r' : Nat} (ho : l.StartsAlike l' o o')
    (hr : l.StartsAlike l' r r') : r = o ↔ r' = o' := by
  obtain ⟨i, hi, rfl, rfl⟩ := ho
  obtain ⟨j, hj, rfl, rfl⟩ := hr
  rw [h.ordered.startAt_inj hj hi]
  rw [← h.length_eq] at hi hj
  rw [h.ordered'.startAt_inj hj hi]

end Landmarks

/-! ## Reports -/

variable {l l' : Landmarks}

/-- Two spans start and stop at corresponding places. -/
structure Span.Alike (l l' : Landmarks) (x y : Span) : Prop where
  start : l.StartsAlike l' x.start y.start
  stop : l.StopsAlike l' x.stop y.stop

/-- Spans between corresponding places are alike, unless one runs backwards. -/
def Span.BothAlike (l l' : Landmarks) (x y : Option Span) : Prop :=
  x = none ∨ y = none ∨ ∃ a b, x = some a ∧ y = some b ∧ a.Alike l l' b

/-- Offsets that correspond make spans that do, or none on either side. -/
private theorem Span.bothAlike_make? {o o' r r' : Nat} (hstart : l.StartsAlike l' o o')
    (hstop : l.StopsAlike l' r r') : BothAlike l l' (make? o r) (make? o' r') := by
  unfold make?
  split
  · split
    · exact .inr (.inr ⟨_, _, rfl, rfl, hstart, hstop⟩)
    · exact .inr (.inl rfl)
  · exact .inl rfl

/-- Two notes with one message at corresponding places. -/
structure Related.Alike (l l' : Landmarks) (x y : Related) : Prop where
  span : x.span.Alike l l' y.span
  message : x.message = y.message

/-- Two reports of the same thing at corresponding places. -/
structure Diagnostic.Alike (l l' : Landmarks) (d e : Diagnostic) : Prop where
  problem : d.problem = e.problem
  span : d.span.Alike l l' e.span
  region : d.region.Alike l l' e.region
  message : d.message = e.message
  expected : d.expected = e.expected
  found : d.found = e.found
  related : List.Forall₂ (Related.Alike l l') d.related e.related

/-- Reports of one problem at spans that correspond do so themselves. -/
private theorem Diagnostic.alike_ofProblem (problem : Problem) {x y : Span} (h : x.Alike l l' y) :
    (ofProblem problem x).Alike l l' (ofProblem problem y) :=
  ⟨rfl, h, h, rfl, rfl, rfl, .nil⟩

/-! ## Outcomes -/

/-- Is it patience that ran out? -/
def Fault.isStall : Fault → Bool
  | stalled _ => true
  | _ => false

/-- Two outcomes are related, or both ran out of patience.  Other faults are not compared: there are
    none. -/
def Agree {α β : Type} (R : α → β → Prop) : Except Fault α → Except Fault β → Prop
  | .ok a, .ok b => R a b
  | .ok _, .error fault => fault.isStall = false
  | .error fault, .ok _ => fault.isStall = false
  | .error _, .error _ => True

/-- Computations that agree go on to agree. -/
theorem Agree.bind {α α' β β' : Type} {R : α → α' → Prop} {S : β → β' → Prop}
    {x : Except Fault α} {y : Except Fault α'} {f : α → Except Fault β} {g : α' → Except Fault β'}
    (h : Agree R x y) (hf : ∀ a b, R a b → Agree S (f a) (g b)) : Agree S (x >>= f) (y >>= g) := by
  -- A fault on one side leaves nothing to compare on the other.
  cases x with
  | ok a =>
    cases y with
    | ok b => exact hf a b h
    | error fault =>
      show Agree S (f a) (.error fault)
      cases f a with
      | ok c => exact h
      | error _ => exact trivial
  | error fault =>
    cases y with
    | ok b =>
      show Agree S (.error fault) (g b)
      cases g b with
      | ok c => exact h
      | error _ => exact trivial
    | error _ => exact trivial

/-- A parse that fails otherwise than by stalling need not agree with anything. -/
theorem Agree.left {α β : Type} {R : α → β → Prop} {fault : Fault} {y : Except Fault β}
    (h : fault.isStall = false) : Agree R (.error fault) y := by
  cases y with
  | ok b => exact h
  | error _ => exact trivial

/-- A parse need not agree with one that fails otherwise than by stalling. -/
theorem Agree.right {α β : Type} {R : α → β → Prop} {x : Except Fault α} {fault : Fault}
    (h : fault.isStall = false) : Agree R x (.error fault) := by
  cases x with
  | ok a => exact h
  | error _ => exact trivial

/-! ## States -/

namespace State

variable {s t : State} {g g' : Setting}

/-- Two states of parses that went alike so far. -/
structure Alike (l l' : Landmarks) (s t : State) : Prop where
  reading : s.reading = t.reading
  ahead : ∃ i ≤ l.tokens.length, Token.significant s.rest = l.tokens.drop i ∧
    Token.significant t.rest = l'.tokens.drop i
  waits : s.Waits
  waits' : t.Waits
  running : s.halted = false
  running' : t.halted = false
  depth : s.depth = t.depth
  patience : s.patience = t.patience
  steps : s.steps = t.steps
  exhausted : s.exhausted = t.exhausted
  reported : Option.Rel (l.StartsAlike l') s.reported t.reported
  delimiters : List.Forall₂ (fun x y => x.1 = y.1 ∧ x.2.Alike l l' y.2) s.delimiters t.delimiters
  consumedTo : Option.Rel (l.StopsAlike l') s.consumedTo t.consumedTo
  reports : List.Forall₂ (Diagnostic.Alike l l') (Diagnostic.grammatical s.diagnostics.toList)
    (Diagnostic.grammatical t.diagnostics.toList)

variable {depth : Option Nat}

/-- The reports of a parse without the lexical ones are those of the grammar. -/
private theorem grammatical_skip : Diagnostic.grammatical (s.skip g).diagnostics.toList =
    Diagnostic.grammatical s.diagnostics.toList := by
  have hlexical : ∀ d ∈ passReports g s.halted (s.rest.takeWhile (·.kind.isSkipped)),
      d.problem.isLexical = true := by
    intro d hd
    obtain ⟨t, rfl⟩ := mem_passReports hd
    exact t.isLexical_lexDiagnostic
  have hnil : Diagnostic.grammatical (passReports g s.halted
      (s.rest.takeWhile (·.kind.isSkipped))) = [] :=
    List.filter_eq_nil_iff.mpr fun d hd => by simp [hlexical d hd]
  rw [Diagnostic.grammatical] at hnil
  rw [skip_eq]
  simp [Diagnostic.grammatical, hnil]

/-- Skipping keeps states alike, however much there is to skip. -/
theorem Alike.skip (h : s.Alike l l' t) :
    (s.skip (l.setting depth)).Alike l l' (t.skip (l'.setting depth)) where
  reading := by rw [reading_skip, reading_skip, h.reading]
  ahead := by
    rw [skip_rest, skip_rest, significant_dropWhile, significant_dropWhile]
    exact h.ahead
  waits := h.waits.skip
  waits' := h.waits'.skip
  running := by simp [skip_eq, Landmarks.setting, h.running]
  running' := by simp [skip_eq, Landmarks.setting, h.running']
  depth := by rw [skip_depth, skip_depth, h.depth]
  patience := by rw [skip_patience, skip_patience, h.patience]
  steps := by rw [skip_steps, skip_steps, h.steps]
  exhausted := by rw [skip_exhausted, skip_exhausted, h.exhausted]
  reported := by rw [skip_reported, skip_reported]; exact h.reported
  delimiters := by rw [skip_delimiters, skip_delimiters]; exact h.delimiters
  consumedTo := by rw [skip_consumedTo, skip_consumedTo]; exact h.consumedTo
  reports := by rw [grammatical_skip, grammatical_skip]; exact h.reports

/-- What stands at the front of two inputs: the same token with the same index, or the end. -/
inductive Fronts (l l' : Landmarks) : List Token → List Token → Prop where
  | nil : Fronts l l' [] []
  | cons {a b : Token} {as bs : List Token} (i : Nat) (hi : i < l.tokens.length)
      (ha : l.tokens[i]? = some a) (hb : l'.tokens[i]? = some b) (hlabel : a.label = b.label)
      (has : Token.significant as = l.tokens.drop (i + 1))
      (hbs : Token.significant bs = l'.tokens.drop (i + 1)) : Fronts l l' (a :: as) (b :: bs)

/-- The front of an input after skipping. -/
private theorem rest_eq_cons {ts : List Token} {a : Token} {as : List Token}
    (h : Token.significant ts = a :: as) :
    ∃ us, ts.dropWhile (·.kind.isSkipped) = a :: us ∧ Token.significant us = as := by
  rw [← significant_dropWhile] at h
  cases hdrop : ts.dropWhile (·.kind.isSkipped) with
  | nil => simp [hdrop, Token.significant] at h
  | cons b us =>
    have hb := Token.isSkipped_of_dropWhile hdrop
    simp only [hdrop, Token.significant, List.filter_cons, hb, Bool.not_false, ↓reduceIte,
      List.cons.injEq] at h
    obtain ⟨rfl, hus⟩ := h
    exact ⟨us, rfl, hus⟩

/-- Without significant tokens ahead all is skipped. -/
private theorem rest_eq_nil {ts : List Token} (h : Token.significant ts = []) :
    ts.dropWhile (·.kind.isSkipped) = [] := by
  rw [← significant_dropWhile] at h
  cases hdrop : ts.dropWhile (·.kind.isSkipped) with
  | nil => rfl
  | cons b us => simp [hdrop, Token.significant, Token.isSkipped_of_dropWhile hdrop] at h

/-- After skipping, states that are alike stand at tokens that correspond. -/
private theorem Alike.fronts (hmatch : l.Match l') (h : s.Alike l l' t) (g g' : Setting) :
    Fronts l l' (s.skip g).rest (t.skip g').rest := by
  obtain ⟨i, hi, hs, ht⟩ := h.ahead
  have hlength := hmatch.length_eq
  rw [skip_rest, skip_rest]
  -- The runs are at the end of both inputs, or at tokens of one place.
  obtain rfl | hlt := Nat.eq_or_lt_of_le hi
  · rw [List.drop_length] at hs
    rw [← hlength, List.drop_length] at ht
    rw [rest_eq_nil hs, rest_eq_nil ht]
    exact .nil
  · have hlt' : i < l'.tokens.length := by omega
    rw [List.drop_eq_getElem_cons hlt] at hs
    rw [List.drop_eq_getElem_cons hlt'] at ht
    obtain ⟨as, has, has'⟩ := rest_eq_cons hs
    obtain ⟨bs, hbs, hbs'⟩ := rest_eq_cons ht
    rw [has, hbs]
    refine .cons i hlt (by simp [hlt]) (by simp [hlt']) ?_ has' hbs'
    have hlabel := congrArg (·[i]?) hmatch.labels
    simpa [hlt, hlt'] using hlabel

/-- The current tokens have spans that correspond. -/
private theorem Fronts.span_alike (hmatch : l.Match l') (h : Fronts l l' s.rest t.rest)
    (depth : Option Nat) :
    (s.frontSpan (l.setting depth)).Alike l l' (t.frontSpan (l'.setting depth)) := by
  unfold frontSpan
  generalize s.rest = as at h
  generalize t.rest = bs at h
  -- At the end the spans are those of the sources, else of the tokens.
  cases h with
  | nil => exact ⟨hmatch.startsAlike_end, hmatch.stopsAlike_end⟩
  | cons i hi ha hb =>
    refine ⟨⟨i, Nat.le_of_lt hi, ?_, ?_⟩, ⟨i, Nat.le_of_lt hi, ?_, ?_⟩⟩
    · simp [Landmarks.startAt, ha, Token.span]
    · simp [Landmarks.startAt, hb, Token.span]
    · simp [Landmarks.stopAt, ha, Token.span]
    · simp [Landmarks.stopAt, hb, Token.span]

/-! ## Operations -/

/-- Reports about corresponding offsets are added or dropped alike. -/
theorem Alike.reportAt (hmatch : l.Match l') (h : s.Alike l l' t) {o o' : Nat}
    (ho : l.StartsAlike l' o o') {d e : Diagnostic} (hd : d.Alike l l' e) :
    (s.reportAt (l.setting depth) o d).Alike l l' (t.reportAt (l'.setting depth) o' e) := by
  -- Both runs have reported at matching places so far, so both drop the report or neither does.
  have hdropped : (s.halted || s.reported == some o) = (t.halted || t.reported == some o') := by
    rw [h.running, h.running', Bool.false_or, Bool.false_or]
    have hreported := h.reported
    generalize s.reported = r at hreported
    generalize t.reported = r' at hreported
    cases hreported with
    | none => rfl
    | some hr => simp [hmatch.eq_iff ho hr]
  unfold State.reportAt
  rw [hdropped]
  split
  · exact h
  -- Lexical reports are left out on both sides, and the others are paired.
  · have hreports : List.Forall₂ (Diagnostic.Alike l l')
        (Diagnostic.grammatical (s.diagnostics.push d).toList)
        (Diagnostic.grammatical (t.diagnostics.push e).toList) := by
      rw [Array.toList_push, Array.toList_push, Diagnostic.grammatical, Diagnostic.grammatical,
        List.filter_append, List.filter_append]
      refine List.rel_append h.reports ?_
      cases hlexical : d.problem.isLexical with
      | true =>
        have hlexical' : e.problem.isLexical = true := by rw [← hd.problem, hlexical]
        simp [hlexical, hlexical']
      | false =>
        have hlexical' : e.problem.isLexical = false := by rw [← hd.problem, hlexical]
        simp [hlexical, hlexical', hd]
    exact { h with
      running := by simp [emit, Landmarks.setting, h.running]
      running' := by simp [emit, Landmarks.setting, h.running']
      reported := .some ho
      reports := hreports }

/-- What is known once the skipped tokens are behind. -/
structure Poised (l l' : Landmarks) (depth : Option Nat) (s t : State) : Prop where
  alike : s.Alike l l' t
  settled : s.skip (l.setting depth) = s
  settled' : t.skip (l'.setting depth) = t

/-- After skipping, states that are alike are poised. -/
private theorem Alike.poised (h : s.Alike l l' t) (depth : Option Nat) :
    Poised l l' depth (s.skip (l.setting depth)) (t.skip (l'.setting depth)) :=
  ⟨h.skip, skip_skip, skip_skip⟩

/-- Poised states stand at tokens that correspond. -/
private theorem Poised.fronts (hmatch : l.Match l') (h : Poised l l' depth s t) :
    Fronts l l' s.rest t.rest := by
  have hfronts := h.alike.fronts hmatch (l.setting depth) (l'.setting depth)
  rwa [h.settled, h.settled'] at hfronts

/-- The patience of both may be changed alike. -/
theorem Alike.withPatience (h : s.Alike l l' t) (p : Nat) :
    ({ s with patience := p } : State).Alike l l' { t with patience := p } :=
  { h with patience := rfl }

/-- Without patience a lookahead stalls. -/
private theorem look_eq_error (h : s.patience = 0) (n : Nat) :
    s.look g n = .error (.stalled (s.skip g).index) := by
  unfold State.look
  rw [if_pos (skip_patience.trans h)]

/-- A lookahead answers alike, or stalls on both sides. -/
theorem Alike.look (h : s.Alike l l' t) (n : Nat) :
    Agree (fun r r' => r.1 = r'.1 ∧ Poised l l' depth r.2 r'.2) (s.look (l.setting depth) n)
      (t.look (l'.setting depth) n) := by
  have hkind : ((Token.significant s.rest)[n]?.map (·.kind)).getD .error =
      ((Token.significant t.rest)[n]?.map (·.kind)).getD .error := by
    rw [← kindAt_reading, ← kindAt_reading, h.reading]
  -- The patience agrees, so both runs panic or neither.
  by_cases hpatience : s.patience = 0
  · rw [look_eq_error hpatience, look_eq_error (h.patience ▸ hpatience)]
    exact trivial
  · rw [look_eq_ok_iff.mpr ⟨hpatience, rfl, rfl⟩,
      look_eq_ok_iff.mpr ⟨h.patience ▸ hpatience, rfl, rfl⟩, h.patience]
    refine ⟨hkind, h.skip.withPatience _, ?_, ?_⟩
    · rw [skip_withPatience, skip_skip]
    · rw [skip_withPatience, skip_skip]

/-- Both spend a step, or run out of steps. -/
theorem Alike.spend (h : s.Alike l l' t) :
    s.spend.steps = t.spend.steps ∧ s.spend.exhausted = t.spend.exhausted := by
  unfold State.spend
  rw [h.steps]
  split
  · exact ⟨h.steps, h.exhausted⟩
  · exact ⟨rfl, by rw [h.exhausted]⟩
  · exact ⟨rfl, h.exhausted⟩

/-- Corresponding tokens are consumed. -/
theorem Alike.consume (h : s.Alike l l' t) {a b : Token} {as bs : List Token} {i : Nat}
    (hs : (s.skip (l.setting depth)).rest = a :: as)
    (ht : (t.skip (l'.setting depth)).rest = b :: bs) (hi : i < l.tokens.length)
    (ha : l.tokens[i]? = some a) (hb : l'.tokens[i]? = some b)
    (has : Token.significant as = l.tokens.drop (i + 1))
    (hbs : Token.significant bs = l'.tokens.drop (i + 1)) :
    ((s.skip (l.setting depth)).consume a as).Alike l l'
      ((t.skip (l'.setting depth)).consume b bs) where
  -- Both readings go on by a token, and there is only one way to do so.
  reading := by
    have heats := reading_consume h.waits hs
    rw [h.reading] at heats
    exact heats.unique (reading_consume h.waits' ht)
  ahead := ⟨i + 1, hi, has, hbs⟩
  waits := waits_consume a as
  waits' := waits_consume b bs
  running := by rw [consume_halted, h.skip.running]
  running' := by rw [consume_halted, h.skip.running']
  depth := by rw [consume_depth, consume_depth, h.skip.depth]
  patience := rfl
  steps := h.skip.spend.1
  exhausted := h.skip.spend.2
  reported := by rw [consume_reported, consume_reported]; exact h.skip.reported
  delimiters := by rw [consume_delimiters, consume_delimiters]; exact h.skip.delimiters
  consumedTo := .some ⟨i, Nat.le_of_lt hi, by simp [Landmarks.stopAt, ha],
    by simp [Landmarks.stopAt, hb]⟩
  reports := by rw [consume_diagnostics, consume_diagnostics]; exact h.skip.reports

/-- Both consume a token, and stay alike. -/
theorem Alike.bump (hmatch : l.Match l') (h : s.Alike l l' t) :
    Agree (Alike l l') (s.bump (l.setting depth)) (t.bump (l'.setting depth)) := by
  have hfronts := h.fronts hmatch (l.setting depth) (l'.setting depth)
  generalize hs : (s.skip (l.setting depth)).rest = as at hfronts
  generalize ht : (t.skip (l'.setting depth)).rest = bs at hfronts
  -- Both fronts are empty, or both have a token of the same label.
  cases hfronts with
  | nil =>
    unfold State.bump
    dsimp only
    rw [hs, ht]
    exact trivial
  | cons i hi ha hb _ has hbs =>
    rw [bump_eq_ok_iff.mpr ⟨_, _, hs, rfl⟩, bump_eq_ok_iff.mpr ⟨_, _, ht, rfl⟩]
    exact h.consume hs ht hi ha hb has hbs

/-- Both eat the token or leave it, and stay alike. -/
theorem Alike.eat (hmatch : l.Match l') (h : s.Alike l l' t) (k : Kind) :
    Agree (fun r r' => r.1 = r'.1 ∧ r.2.Alike l l' r'.2 ∧
        (r.1 = false → Poised l l' depth r.2 r'.2))
      (s.eat (l.setting depth) k) (t.eat (l'.setting depth) k) := by
  unfold State.eat
  refine (h.look 0).bind ?_
  rintro ⟨found, s'⟩ ⟨found', t'⟩ ⟨hfound, hpoised⟩
  obtain rfl : found = found' := hfound
  dsimp only at hpoised ⊢
  split
  · exact (hpoised.alike.bump hmatch).bind fun s'' t'' h'' => ⟨rfl, h'', fun h => by cases h⟩
  · exact ⟨rfl, hpoised.alike, fun _ => hpoised⟩

/-- Corresponding tokens are described alike. -/
theorem Alike.describeFront (hmatch : l.Match l') (h : s.Alike l l' t) :
    Agree (fun r r' => r.1 = r'.1 ∧ Poised l l' depth r.2 r'.2)
      (s.describeFront (l.setting depth)) (t.describeFront (l'.setting depth)) := by
  have hpoised := h.poised depth
  have hfronts := hpoised.fronts hmatch
  unfold State.describeFront
  dsimp only
  generalize (s.skip (l.setting depth)).rest = as at hfronts
  generalize (t.skip (l'.setting depth)).rest = bs at hfronts
  -- At the end of the input both describe it as that.
  cases hfronts with
  | nil => exact ⟨rfl, hpoised⟩
  | @cons a b _ _ i hi ha hb hlabel =>
    have htext : a.text = b.text := congrArg Prod.snd hlabel
    refine (hpoised.alike.look 0).bind ?_
    rintro r r' ⟨hfound, hpoised'⟩
    refine ⟨?_, hpoised'⟩
    dsimp only
    rw [hfound, htext]

/-- What a complaint is about corresponds on both sides. -/
theorem Poised.region (hmatch : l.Match l') (h : Poised l l' depth s t) :
    Span.BothAlike l l' (s.region (l.setting depth)) (t.region (l'.setting depth)) := by
  have hdelimiters := h.alike.delimiters
  unfold State.region
  generalize s.delimiters = ds at hdelimiters
  generalize t.delimiters = es at hdelimiters
  cases hdelimiters with
  | nil => exact .inr (.inr ⟨_, _, rfl, rfl, (h.fronts hmatch).span_alike hmatch depth⟩)
  | cons hopener _ => exact Span.bothAlike_make? hopener.2.start hmatch.stopsAlike_end

/-- A complaint is reported or dropped on both sides. -/
theorem Alike.complain (hmatch : l.Match l') (h : s.Alike l l' t) (x : Complaint) :
    Agree (Alike l l') (s.complain (l.setting depth) x) (t.complain (l'.setting depth) x) := by
  unfold State.complain
  refine (h.describeFront hmatch).bind ?_
  rintro r r' ⟨hfound, hpoised⟩
  have hspan := (hpoised.fronts hmatch).span_alike hmatch depth
  dsimp only
  -- A region that cannot be made ends its run, and nothing is left to compare.
  obtain hnone | hnone | ⟨a, b, ha, hb, hregion⟩ := hpoised.region hmatch
  · rw [hnone]
    exact .left rfl
  · rw [hnone]
    exact .right rfl
  · rw [ha, hb]
    exact hpoised.alike.reportAt hmatch hspan.start
      ⟨rfl, hspan, hregion, rfl, rfl, by rw [hfound], .nil⟩

/-- A warning is reported on both sides. -/
theorem Alike.remark (hmatch : l.Match l') (h : s.Alike l l' t) (problem : Problem) :
    (s.remark (l.setting depth) problem).Alike l l' (t.remark (l'.setting depth) problem) := by
  have hpoised := h.poised depth
  have hspan := (hpoised.fronts hmatch).span_alike hmatch depth
  exact hpoised.alike.reportAt hmatch hspan.start (Diagnostic.alike_ofProblem problem hspan)

/-- An expected token is there on both sides, or complained about on both. -/
theorem Alike.expect (hmatch : l.Match l') (h : s.Alike l l' t) (k : Kind) (what : String) :
    Agree (fun r r' => r.2.Alike l l' r'.2) (s.expect (l.setting depth) k what)
      (t.expect (l'.setting depth) k what) := by
  unfold State.expect
  refine (h.eat hmatch k).bind ?_
  rintro ⟨eaten, s'⟩ ⟨eaten', t'⟩ ⟨heaten, h', _⟩
  obtain rfl : eaten = eaten' := heaten
  cases eaten with
  | true => exact h'
  | false => exact (h'.complain hmatch _).bind fun _ _ h'' => h''

/-! ### Delimiters -/

/-- A delimiter is opened on both sides, at openers that correspond. -/
theorem Alike.openDelimiter (hmatch : l.Match l') (h : s.Alike l l' t) (d : Delimiter) :
    Agree (Alike l l') (s.openDelimiter (l.setting depth) d)
      (t.openDelimiter (l'.setting depth) d) := by
  have hpoised := h.poised depth
  have hspan := (hpoised.fronts hmatch).span_alike hmatch depth
  have hpushed : ({ s.skip (l.setting depth) with delimiters :=
      (d, (s.skip (l.setting depth)).frontSpan (l.setting depth)) ::
        (s.skip (l.setting depth)).delimiters } : State).Alike l l'
      { t.skip (l'.setting depth) with delimiters :=
        (d, (t.skip (l'.setting depth)).frontSpan (l'.setting depth)) ::
          (t.skip (l'.setting depth)).delimiters } :=
    { h.skip with delimiters := .cons ⟨rfl, hspan⟩ h.skip.delimiters }
  exact hpushed.bump hmatch

/-- An unclosed delimiter is reported on both sides. -/
theorem Poised.reportUnclosed (hmatch : l.Match l') (h : Poised l l' depth s t) (d : Delimiter)
    (construct : String) {x y : Span} (hopener : x.Alike l l' y) :
    Agree (Alike l l') (s.reportUnclosed (l.setting depth) d construct x)
      (t.reportUnclosed (l'.setting depth) d construct y) := by
  have hspan := (h.fronts hmatch).span_alike hmatch depth
  unfold State.reportUnclosed
  dsimp only
  -- As for a complaint: a region that cannot be made ends its run.
  obtain hnone | hnone | ⟨a, b, ha, hb, hregion⟩ := Span.bothAlike_make? hopener.start hspan.stop
  · rw [hnone]
    exact .left rfl
  · rw [hnone]
    exact .right rfl
  · rw [ha, hb]
    exact h.alike.reportAt hmatch hspan.start
      { Diagnostic.alike_ofProblem d.unclosed hregion with
        found := rfl
        related := .cons ⟨hopener, rfl⟩ .nil }

/-- An empty block is reported on both sides. -/
theorem Alike.closeEmpty (hmatch : l.Match l') (h : s.Alike l l' t) (ifEmpty : Option Problem)
    (answer : Bool) {x y : Span} (hopener : x.Alike l l' y) :
    Agree (Alike l l') (s.closeEmpty (l.setting depth) ifEmpty answer x)
      (t.closeEmpty (l'.setting depth) ifEmpty answer y) := by
  unfold State.closeEmpty
  split
  -- Where nothing has been consumed the report stops with the opener, as on the other side.
  · have hstop : l.StopsAlike l' (s.consumedTo.getD x.stop) (t.consumedTo.getD y.stop) := by
      have hconsumedTo := h.consumedTo
      generalize s.consumedTo = n at hconsumedTo
      generalize t.consumedTo = m at hconsumedTo
      cases hconsumedTo with
      | none => exact hopener.stop
      | some hstop => exact hstop
    unfold State.remarkSince
    obtain hnone | hnone | ⟨a, b, ha, hb, hspan⟩ := Span.bothAlike_make? hopener.start hstop
    · rw [hnone]
      exact .left rfl
    · rw [hnone]
      exact .right rfl
    · rw [ha, hb]
      exact h.reportAt hmatch hspan.start (Diagnostic.alike_ofProblem _ hspan)
  · exact h

/-- Lists that are related have first elements that are. -/
private theorem head?_alike {α β : Type} {R : α → β → Prop} {xs : List α} {ys : List β}
    (h : List.Forall₂ R xs ys) : Option.Rel R xs.head? ys.head? := by
  cases h with
  | nil => exact .none
  | cons hxy _ => exact .some hxy

/-- A delimiter is closed on both sides, or reported on both. -/
theorem Alike.closeDelimiter (hmatch : l.Match l') (h : s.Alike l l' t) (d : Delimiter)
    (construct : String) :
    Agree (Alike l l') (s.closeDelimiter (l.setting depth) d construct)
      (t.closeDelimiter (l'.setting depth) d construct) := by
  have hhead := head?_alike h.delimiters
  have htail : ({ s with delimiters := s.delimiters.tail } : State).Alike l l'
      { t with delimiters := t.delimiters.tail } :=
    { h with delimiters := by simpa using List.forall₂_drop 1 h.delimiters }
  have hpaired : s.delimiters.head?.any (·.1 ≠ d) = t.delimiters.head?.any (·.1 ≠ d) := by
    generalize s.delimiters.head? = x at hhead
    generalize t.delimiters.head? = y at hhead
    cases hhead with
    | none => rfl
    | some hopener => simp [hopener.1]
  unfold State.closeDelimiter
  dsimp only
  rw [hpaired]
  split
  · exact trivial
  · refine (htail.eat hmatch d.closer).bind ?_
    rintro ⟨closed, s'⟩ ⟨closed', t'⟩ ⟨hclosed, h', hpoised⟩
    obtain rfl : closed = closed' := hclosed
    cases closed with
    | true => exact h'
    | false =>
      -- The closer is missing.  The sources end together, so both runs blame the opener or neither.
      have hpoised := hpoised rfl
      have hfronts := hpoised.fronts hmatch
      simp only [Bool.false_eq_true, ↓reduceIte, hpoised.settled, hpoised.settled']
      generalize s.delimiters.head? = x at hhead
      generalize t.delimiters.head? = y at hhead
      generalize hs : s'.rest = as at hfronts
      generalize ht : t'.rest = bs at hfronts
      cases hhead with
      | none => exact (h'.expect hmatch d.closer _).bind fun _ _ h'' => h''
      | some hopener =>
        cases hfronts with
        | nil => exact hpoised.reportUnclosed hmatch d construct hopener.2
        | cons => exact (h'.expect hmatch d.closer _).bind fun _ _ h'' => h''

/-- Both have come to the end, or neither. -/
theorem Poised.isStopped (hmatch : l.Match l') (h : Poised l l' depth s t) :
    s.isStopped = t.isStopped := by
  have hrest : s.rest.isEmpty = t.rest.isEmpty := by
    have hfronts := h.fronts hmatch
    generalize s.rest = as at hfronts
    generalize t.rest = bs at hfronts
    cases hfronts <;> rfl
  unfold State.isStopped
  rw [hrest, h.alike.exhausted, h.alike.running, h.alike.running']

/-- A level is granted to both or to neither. -/
theorem Alike.enter (h : s.Alike l l' t) (depth : Option Nat) :
    (s.enter (l.setting depth)).1 = (t.enter (l'.setting depth)).1 ∧
      (s.enter (l.setting depth)).2.Alike l l' (t.enter (l'.setting depth)).2 := by
  unfold State.enter Landmarks.setting
  rw [h.depth]
  dsimp only
  split
  · exact ⟨rfl, { h with depth := rfl, exhausted := by rw [h.exhausted] }⟩
  · exact ⟨rfl, { h with depth := rfl, patience := rfl }⟩

/-- A level is left on both sides. -/
theorem Alike.leave (h : s.Alike l l' t) : s.leave.Alike l l' t.leave :=
  { h with depth := by rw [State.leave, State.leave, h.depth], patience := rfl }

/-! ### Frames -/

/-- The skipped tokens are no part of what is alike. -/
theorem Alike.drain (h : s.Alike l l' t) : s.drain.Alike l l' t.drain :=
  { h with
    reading := by rw [reading_drain h.waits, reading_drain h.waits', h.reading]
    waits := waits_drain
    waits' := waits_drain }

/-- Both may start on an empty frame. -/
theorem Alike.emptied (h : s.Alike l l' t) :
    ({ s.drain with frame := #[] } : State).Alike l l' { t.drain with frame := #[] } :=
  { h with
    reading := by rw [reading_emptied, reading_emptied, h.reading]
    waits := waits_drain (s := s)
    waits' := waits_drain (s := t) }

variable {s₁ t₁ : State}

/-- Both put a node behind what they had before. -/
theorem Alike.pushNode (h : s.Alike l l' t) (h₁ : s₁.Alike l l' t₁) (k : Kind) :
    ({ s₁ with frame := s.drain.frame.push (.node k s₁.frame.toList) } : State).Alike l l'
      { t₁ with frame := t.drain.frame.push (.node k t₁.frame.toList) } :=
  { h₁ with
    reading := by
      rw [reading_pushNode h.waits, reading_pushNode h.waits', h.reading, h₁.reading] }

/-- Both put the trees of a group behind what they had before. -/
theorem Alike.appendFrame (h : s.Alike l l' t) (h₁ : s₁.Alike l l' t₁) :
    ({ s₁ with frame := s.drain.frame ++ s₁.frame } : State).Alike l l'
      { t₁ with frame := t.drain.frame ++ t₁.frame } :=
  { h₁ with
    reading := by
      rw [reading_appendFrame h.waits, reading_appendFrame h.waits', h.reading, h₁.reading] }

/-- Both make one node of all that they have. -/
theorem Alike.wrapped (h : s.Alike l l' t) (k : Kind) :
    ({ s with frame := #[.node k s.frame.toList] } : State).Alike l l'
      { t with frame := #[.node k t.frame.toList] } :=
  { h with reading := by rw [reading_wrapped, reading_wrapped, h.reading] }

end State

/-! ## Scripts and rules -/

variable {depth : Option Nat}

/-- Answers are the same, and states are alike. -/
def Reply.Alike (l l' : Landmarks) (r r' : Bool × State) : Prop := r.1 = r'.1 ∧ r.2.Alike l l' r'.2

/-- A script takes states that are alike to states that are alike, if the rules it calls do. -/
theorem Script.run_alike (hmatch : l.Match l') {rules rules' : Rule → State → Reply}
    (hrules : ∀ rule s t, s.Alike l l' t →
      Agree (Reply.Alike l l') (rules rule s) (rules' rule t))
    (script : Script) {s t : State} (h : s.Alike l l' t) :
    Agree (Reply.Alike l l') (script.run (l.setting depth) rules s)
      (script.run (l'.setting depth) rules' t) := by
  -- The two runs take the same branch at every step, since alike states show the same kinds and
  -- texts.
  induction script generalizing s t with
  -- Induction on the script: related states answer alike and stay related.
  | done answer => exact ⟨rfl, h⟩
  | fail fault => exact trivial
  | look n next ih =>
    refine (h.look n).bind ?_
    rintro ⟨k, s₁⟩ ⟨k', t₁⟩ ⟨hk, hpoised⟩
    obtain rfl : k = k' := hk
    exact ih k hpoised.alike
  | text next ih =>
    -- Texts and kinds are those of the significant tokens, which agree.
    have htext : (s.skip (l.setting depth)).frontText = (t.skip (l'.setting depth)).frontText := by
      rw [← State.frontText_reading, ← State.frontText_reading, h.reading]
    unfold Script.run
    dsimp only
    rw [htext]
    exact ih _ h.skip
  | stopped next ih =>
    unfold Script.run
    dsimp only
    rw [(h.poised depth).isStopped hmatch]
    exact ih _ h.skip
  | exhausted next ih =>
    unfold Script.run
    rw [h.exhausted]
    exact ih _ h
  | bump next ih => exact (h.bump hmatch).bind fun _ _ h₁ => ih h₁
  | flush next ih => exact ih h.skip.drain
  | complain x next ih => exact (h.complain hmatch x).bind fun _ _ h₁ => ih h₁
  | remark problem next ih => exact ih (h.remark hmatch problem)
  -- What a node collects is compared without the tokens skipped.
  | node k body next ihbody ihnext =>
    refine (ihbody h.emptied).bind ?_
    rintro ⟨_, s₁⟩ ⟨_, t₁⟩ ⟨_, h₁⟩
    exact ihnext (h.pushNode h₁ k)
  | group body next ihbody ihnext =>
    refine (ihbody h.emptied).bind ?_
    rintro ⟨_, s₁⟩ ⟨_, t₁⟩ ⟨_, h₁⟩
    exact ihnext (h.appendFrame h₁)
  | wrap k body next ihbody ihnext =>
    refine (ihbody h).bind ?_
    rintro ⟨_, s₁⟩ ⟨_, t₁⟩ ⟨_, h₁⟩
    exact ihnext (State.Alike.wrapped h₁ k)
  | deeper body next ihbody ihnext =>
    obtain ⟨hgranted, h₁⟩ := h.enter depth
    unfold Script.run
    -- The grant is the same on both sides, so only the cases in which both enter or neither does
    -- are left.
    generalize s.enter (l.setting depth) = x at hgranted h₁ ⊢
    generalize t.enter (l'.setting depth) = y at hgranted h₁ ⊢
    obtain ⟨granted, s₁⟩ := x
    obtain ⟨granted', t₁⟩ := y
    obtain rfl : granted = granted' := hgranted
    cases granted with
    | false => exact ihnext _ h₁
    | true =>
      refine (ihbody h₁).bind ?_
      rintro ⟨_, s₂⟩ ⟨_, t₂⟩ ⟨_, h₂⟩
      exact ihnext _ (State.Alike.leave h₂)
  | enclosed d construct ifEmpty body next ihbody ihnext =>
    -- The opener is compared before the body moves on: it is what a block that is empty is told
    -- about.
    have hspan := ((h.poised depth).fronts hmatch).span_alike hmatch depth
    rw [run_enclosed_eq, run_enclosed_eq]
    refine (h.openDelimiter hmatch d).bind fun s₁ t₁ h₁ => ?_
    refine (ihbody h₁).bind ?_
    rintro ⟨a, s₂⟩ ⟨a', t₂⟩ ⟨ha, h₂⟩
    obtain rfl : a = a' := ha
    refine (State.Alike.closeDelimiter hmatch h₂ d construct).bind fun s₃ t₃ h₃ => ?_
    exact (h₃.closeEmpty hmatch ifEmpty a hspan).bind fun s₄ t₄ h₄ => ihnext h₄
  | call rule next ih =>
    refine (hrules rule s t h).bind ?_
    rintro ⟨a, s₁⟩ ⟨a', t₁⟩ ⟨ha, h₁⟩
    obtain rfl : a = a' := ha
    exact ih a h₁

/-- A rule takes states that are alike to states that are alike. -/
theorem Rule.run_alike (hmatch : l.Match l') (depth : Option Nat) (budget : Nat) (rule : Rule)
    {s t : State} (h : s.Alike l l' t) :
    Agree (Reply.Alike l l') (rule.run (l.setting depth) budget s)
      (rule.run (l'.setting depth) budget t) := by
  induction budget generalizing rule s t with
  | zero => exact trivial
  | succ budget ih => exact Script.run_alike hmatch (fun rule _ _ h => ih rule h) rule.script h

/-! ## Parses -/

/-- Two parses that went alike: trees that differ in skipped tokens only, and reports of the same
    things about the same tokens; or the same limit was exceeded; or patience ran out, after any
    number of tokens. -/
inductive Outcome.Alike (l l' : Landmarks) : Outcome → Outcome → Prop where
  | parsed {p p' : Parsed} (tree : p.tree.significant = p'.tree.significant)
      (diagnostics : List.Forall₂ (Diagnostic.Alike l l') (Diagnostic.grammatical p.diagnostics)
        (Diagnostic.grammatical p'.diagnostics)) : Alike l l' (.ok (.ok p)) (.ok (.ok p'))
  | exhausted (resource : Exhaustion) :
      Alike l l' (.ok (.error (.exhausted resource))) (.ok (.error (.exhausted resource)))
  | stalled (index index' : Nat) : Alike l l' (.error (.stalled index)) (.error (.stalled index'))

/-- The tokens of a source come one after the other. -/
private theorem Landmarks.ordered_ofSource (source : String) : (ofSource source).Ordered := by
  obtain ⟨hsorted, hbounded⟩ := Token.lex_sorted source
  exact ⟨hsorted.sublist List.filter_sublist, fun t ht => hbounded t (List.mem_filter.mp ht).1⟩

/-- States that are alike amount to the same. -/
theorem State.Alike.finish {s t : State} (h : s.Alike l l' t) (source source' : String) :
    Agree (fun x y => Outcome.Alike l l' (.ok x) (.ok y)) (s.finish source) (t.finish source') := by
  unfold State.finish
  rw [h.exhausted, h.running, h.running']
  -- Exhausted runs agree on the resource, others on the tree.
  cases t.exhausted with
  | some resource => exact .exhausted resource
  | none =>
    dsimp only
    simp only [Bool.false_eq_true, ↓reduceIte]
    split
    · split
      · refine .parsed ?_ h.reports
        have hframe := congrArg Reading.frame h.reading
        simp only [State.reading] at hframe
        simp only [Tree.significant, Tree.erase, hframe]
      · exact .right rfl
    · exact .left rfl

/-- Sources with the same significant tokens are parsed alike. -/
theorem parse_alike {source source' : String}
    (h : (Token.significant (Token.lex source)).map Token.label =
      (Token.significant (Token.lex source')).map Token.label) (steps depth : Option Nat) :
    Outcome.Alike (.ofSource source) (.ofSource source') (parse ⟨true, steps, depth⟩ source)
      (parse ⟨true, steps, depth⟩ source') := by
  -- The labels match, hence the landmarks and the states at the start.
  have hmatch : (Landmarks.ofSource source).Match (.ofSource source') :=
    ⟨h, Landmarks.ordered_ofSource source, Landmarks.ordered_ofSource source'⟩
  have hinitial : (State.initial (Token.lex source) steps).Alike (.ofSource source)
      (.ofSource source') (State.initial (Token.lex source') steps) :=
    { reading := by rw [State.reading, State.reading]; exact congrArg (Reading.mk · _) h
      ahead := ⟨0, Nat.zero_le _, rfl, rfl⟩
      waits := by simp [State.Waits, State.initial]
      waits' := by simp [State.Waits, State.initial]
      running := rfl, running' := rfl, depth := rfl, patience := rfl, steps := rfl
      exhausted := rfl
      reported := .none, delimiters := .nil, consumedTo := .none, reports := .nil }
  -- The budget depends on the number of significant tokens only.
  have hbudget : callBudget (Token.lex source) = callBudget (Token.lex source') := by
    have hlength := congrArg List.length h
    simp only [List.length_map] at hlength
    rw [callBudget, callBudget, hlength]
  have hrun := Rule.run_alike hmatch depth (callBudget (Token.lex source)) .program hinitial
  -- The outcomes agree unless one of the two runs faults.
  have hagree : Agree (fun x y => Outcome.Alike (.ofSource source) (.ofSource source') (.ok x)
      (.ok y)) (parse ⟨true, steps, depth⟩ source) (parse ⟨true, steps, depth⟩ source') := by
    rw [parse, parse, parseLexed, parseLexed, ← hbudget]
    refine hrun.bind ?_
    rintro ⟨_, s⟩ ⟨_, t⟩ ⟨_, hst⟩
    exact State.Alike.finish hst source source'
  -- Patience is all that can run out, but not after the same number of tokens.
  have hx := (parse_ensures .any ⟨true, steps, depth⟩ source (by simp)
    (by simp [Mode.Shows])).ok_or_stalled
  have hy := (parse_ensures .any ⟨true, steps, depth⟩ source' (by simp)
    (by simp [Mode.Shows])).ok_or_stalled
  -- Outcomes of one shape on both sides; the mixed cases contradict the agreement.
  obtain ⟨x, hx⟩ | ⟨-, index, hx⟩ := hx
  · obtain ⟨y, hy⟩ | ⟨-, index, hy⟩ := hy
    · rw [hx, hy] at hagree ⊢
      exact hagree
    · rw [hx, hy] at hagree
      cases hagree
  · obtain ⟨y, hy⟩ | ⟨-, index', hy⟩ := hy
    · rw [hx, hy] at hagree
      cases hagree
    · rw [hx, hy]
      exact .stalled index index'

/-- A call that is not closed, with a comment and garbage in it and without. -/
theorem parse_alike_unclosed :
    (Token.significant (Token.lex "f(a")).map Token.label =
      (Token.significant (Token.lex "f /*(*/ ( a §")).map Token.label ∧
    Outcome.Alike (.ofSource "f(a") (.ofSource "f /*(*/ ( a §")
      (parse ⟨true, some 3, some 9⟩ "f(a") (parse ⟨true, some 3, some 9⟩ "f /*(*/ ( a §") := by
  have hlabels : (Token.significant (Token.lex "f(a")).map Token.label =
      (Token.significant (Token.lex "f /*(*/ ( a §")).map Token.label := by decide +kernel
  exact ⟨hlabels, parse_alike hlabels (some 3) (some 9)⟩

end ScriptTree
