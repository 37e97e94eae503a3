import ScriptTree.Parser.State

/-!
# What the operations of a parse do

One lemma for each operation of `ScriptTree.Parser.State` that can fail says exactly when it
succeeds and with which state; the others have one `@[simp]` lemma for each field they leave alone.
Later proofs cite these and never unfold an operation.

* `State.look_eq_ok_iff`, `State.bump_eq_ok_iff`, `State.eat_eq_ok_iff`: reading tokens
* `State.complain_eq_ok`: a complaint is at most one report at the current token
* `State.closeDelimiter_eq_ok`: a delimiter is closed by its closer, or reported
-/

namespace ScriptTree

/-- A sequence of two steps succeeds exactly if both do. -/
theorem bind_eq_ok_iff {ε α β : Type} {x : Except ε α} {f : α → Except ε β} {b : β} :
    (x >>= f) = .ok b ↔ ∃ a, x = .ok a ∧ f a = .ok b := by
  cases x with
  | error e => simp [bind, Except.bind]
  | ok a => simp [bind, Except.bind]

/-- What the lexer reports are errors. -/
theorem Token.isError_lexDiagnostic (t : Token) : t.lexDiagnostic.isError = true := by
  unfold Token.lexDiagnostic
  split <;> rfl

/-- What the lexer reports are lexical problems. -/
theorem Token.isLexical_lexDiagnostic (t : Token) : t.lexDiagnostic.problem.isLexical = true := by
  unfold Token.lexDiagnostic
  split <;> rfl

/-- The token after the skipped ones is significant. -/
theorem Token.isSkipped_of_dropWhile {ts us : List Token} {t : Token}
    (h : ts.dropWhile (·.kind.isSkipped) = t :: us) : t.kind.isSkipped = false := by
  have hhead := List.head?_dropWhile_not (·.kind.isSkipped) ts
  rw [h] at hhead
  simpa using hhead

namespace State

variable {g : Setting} {s s' : State}

/-! ## Reports -/

section reportAt

variable (o : Nat) (d : Diagnostic)

/-- A report leaves all but the list of reports and the last place alone. -/
@[simp] theorem reportAt_rest : (s.reportAt g o d).rest = s.rest := by
  unfold reportAt; split <;> rfl
@[simp] theorem reportAt_index : (s.reportAt g o d).index = s.index := by
  unfold reportAt; split <;> rfl
@[simp] theorem reportAt_pending : (s.reportAt g o d).pending = s.pending := by
  unfold reportAt; split <;> rfl
@[simp] theorem reportAt_frame : (s.reportAt g o d).frame = s.frame := by
  unfold reportAt; split <;> rfl
@[simp] theorem reportAt_depth : (s.reportAt g o d).depth = s.depth := by
  unfold reportAt; split <;> rfl
@[simp] theorem reportAt_delimiters : (s.reportAt g o d).delimiters = s.delimiters := by
  unfold reportAt; split <;> rfl
@[simp] theorem reportAt_patience : (s.reportAt g o d).patience = s.patience := by
  unfold reportAt; split <;> rfl
@[simp] theorem reportAt_steps : (s.reportAt g o d).steps = s.steps := by
  unfold reportAt; split <;> rfl
@[simp] theorem reportAt_exhausted : (s.reportAt g o d).exhausted = s.exhausted := by
  unfold reportAt; split <;> rfl
@[simp] theorem reportAt_consumedTo : (s.reportAt g o d).consumedTo = s.consumedTo := by
  unfold reportAt; split <;> rfl

end reportAt

/-! ## Skipped tokens -/

/-- What passing over tokens reports: the lexical errors, up to one that halts the parse. -/
def passReports (g : Setting) (halted : Bool) (ts : List Token) : List Diagnostic :=
  if halted then []
  else if g.recovery then Token.lexDiagnostics ts
  else (Token.lexDiagnostics ts).take 1

/-- What is reported on the way past some tokens are lexical errors of theirs. -/
theorem mem_passReports {halted : Bool} {ts : List Token} {d : Diagnostic}
    (h : d ∈ passReports g halted ts) : ∃ t, d = Token.lexDiagnostic t := by
  have hd : d ∈ Token.lexDiagnostics ts := by
    unfold passReports at h
    split at h
    · cases h
    · split at h
      · exact h
      · exact List.mem_of_mem_take h
  obtain ⟨t, -, rfl⟩ := List.mem_map.mp hd
  exact ⟨t, rfl⟩

/-- Passing the skipped tokens in one step: they wait to be placed, and their errors are
    reported. -/
theorem passAll_eq (ts : List Token) : s.passAll g ts =
    { s with
      rest := ts.dropWhile (·.kind.isSkipped)
      index := s.index + (ts.takeWhile (·.kind.isSkipped)).length
      pending := s.pending ++ ts.takeWhile (·.kind.isSkipped)
      diagnostics := s.diagnostics ++
        (passReports g s.halted (ts.takeWhile (·.kind.isSkipped))).toArray
      halted := s.halted ||
        !g.recovery && (ts.takeWhile (·.kind.isSkipped)).any (·.kind.isLexError) } := by
  -- Induction on the tokens, of which only those that are skipped count.
  induction ts generalizing s with
  | nil => simp [passAll, passReports, Token.lexDiagnostics]
  | cons t ts ih =>
    unfold passAll
    split
    case isFalse h => simp [h, passReports, Token.lexDiagnostics]
    case isTrue h =>
      rw [ih]
      simp only [List.dropWhile_cons, h, List.takeWhile_cons, ↓reduceIte]
      unfold pass
      -- Without recovery the first lexical error halts, and a halted parse reports nothing.
      by_cases hl : t.kind.isLexError = true <;> cases hh : s.halted <;> cases hr : g.recovery <;>
        simp [hl, hh, hr, emit, passReports, Token.lexDiagnostics, Token.isError_lexDiagnostic] <;>
        omega

/-- Skipping moves the skipped tokens at the front of the input to the pending ones and reports
    the lexical errors among them. -/
theorem skip_eq : s.skip g =
    { s with
      rest := s.rest.dropWhile (·.kind.isSkipped)
      index := s.index + (s.rest.takeWhile (·.kind.isSkipped)).length
      pending := s.pending ++ s.rest.takeWhile (·.kind.isSkipped)
      diagnostics := s.diagnostics ++
        (passReports g s.halted (s.rest.takeWhile (·.kind.isSkipped))).toArray
      halted := s.halted ||
        !g.recovery && (s.rest.takeWhile (·.kind.isSkipped)).any (·.kind.isLexError) } :=
  passAll_eq s.rest

/-- Skipping stops at the first token that the grammar sees. -/
theorem skip_rest : (s.skip g).rest = s.rest.dropWhile (·.kind.isSkipped) := by rw [skip_eq]
/-- What is skipped waits to be placed. -/
theorem skip_pending :
    (s.skip g).pending = s.pending ++ s.rest.takeWhile (·.kind.isSkipped) := by rw [skip_eq]
@[simp] theorem skip_frame : (s.skip g).frame = s.frame := by rw [skip_eq]
@[simp] theorem skip_depth : (s.skip g).depth = s.depth := by rw [skip_eq]
@[simp] theorem skip_reported : (s.skip g).reported = s.reported := by rw [skip_eq]
@[simp] theorem skip_delimiters : (s.skip g).delimiters = s.delimiters := by rw [skip_eq]
@[simp] theorem skip_patience : (s.skip g).patience = s.patience := by rw [skip_eq]
@[simp] theorem skip_steps : (s.skip g).steps = s.steps := by rw [skip_eq]
@[simp] theorem skip_exhausted : (s.skip g).exhausted = s.exhausted := by rw [skip_eq]
@[simp] theorem skip_consumedTo : (s.skip g).consumedTo = s.consumedTo := by rw [skip_eq]

/-- Skipping does not depend on the patience. -/
theorem skip_withPatience (p : Nat) :
    ({ s with patience := p } : State).skip g = { s.skip g with patience := p } := by
  rw [skip_eq, skip_eq]

/-- After skipping there is nothing to skip. -/
@[simp] theorem skip_skip : (s.skip g).skip g = s.skip g := by
  suffices h : ∀ ts (s : State), (s.passAll g ts).skip g = s.passAll g ts from h s.rest s
  intro ts
  induction ts with
  | nil => intro s; rfl
  | cons t ts ih =>
    intro s
    unfold passAll
    split
    case isTrue => exact ih (s.pass g t)
    case isFalse h => simp only [skip, passAll, h, Bool.false_eq_true, ↓reduceIte]

/-! ## Reading tokens -/

/-- The state after the token `t`, with `ts` behind it, was consumed. -/
def consume (t : Token) (ts : List Token) (s : State) : State :=
  { s.spend.drain with
    rest := ts
    index := s.spend.drain.index + 1
    frame := s.spend.drain.frame.push (.ofToken t)
    patience := fullPatience
    consumedTo := some t.stop }

section consume

variable (t : Token) (ts : List Token)

@[simp] theorem consume_rest : (s.consume t ts).rest = ts := rfl
@[simp] theorem consume_pending : (s.consume t ts).pending = [] := rfl
@[simp] theorem consume_patience : (s.consume t ts).patience = fullPatience := rfl
@[simp] theorem consume_frame : (s.consume t ts).frame =
    (s.frame ++ (s.pending.map Tree.ofToken).toArray).push (.ofToken t) := by
  unfold consume spend; split <;> rfl
@[simp] theorem consume_diagnostics : (s.consume t ts).diagnostics = s.diagnostics := by
  unfold consume spend; split <;> rfl
@[simp] theorem consume_depth : (s.consume t ts).depth = s.depth := by
  unfold consume spend; split <;> rfl
@[simp] theorem consume_reported : (s.consume t ts).reported = s.reported := by
  unfold consume spend; split <;> rfl
@[simp] theorem consume_delimiters : (s.consume t ts).delimiters = s.delimiters := by
  unfold consume spend; split <;> rfl
@[simp] theorem consume_halted : (s.consume t ts).halted = s.halted := by
  unfold consume spend; split <;> rfl

end consume

/-- A token can be consumed exactly if there is one. -/
theorem bump_eq_ok_iff : s.bump g = .ok s' ↔
    ∃ t ts, (s.skip g).rest = t :: ts ∧ s' = (s.skip g).consume t ts := by
  unfold bump
  dsimp only
  split
  case h_1 h => simp [h]
  case h_2 t ts h =>
    constructor
    · intro h'
      exact ⟨t, ts, h, (Except.ok.inj h').symm⟩
    · rintro ⟨u, us, hu, rfl⟩
      rw [h] at hu
      cases hu
      rfl

/-- Dropping what is skipped drops nothing that the grammar sees. -/
@[simp] theorem significant_dropWhile (ts : List Token) :
    Token.significant (ts.dropWhile (·.kind.isSkipped)) = Token.significant ts := by
  induction ts with
  | nil => rfl
  | cons t ts ih =>
    by_cases h : t.kind.isSkipped = true
    · rw [List.dropWhile_cons_of_pos (by simpa using h), ih]
      simp [Token.significant, h]
    · rw [List.dropWhile_cons_of_neg (by simpa using h)]

/-- A lookahead answers with the kind of a significant token, and costs one unit of patience. -/
theorem look_eq_ok_iff {n : Nat} {k : Kind} : s.look g n = .ok (k, s') ↔
    s.patience ≠ 0 ∧ k = ((Token.significant s.rest)[n]?.map (·.kind)).getD .error ∧
      s' = { s.skip g with patience := s.patience - 1 } := by
  unfold look
  dsimp only
  split
  case isTrue h =>
    rw [skip_patience] at h
    simp [h]
  case isFalse h =>
    rw [skip_patience] at h
    rw [nthSignificant_eq_getElem?, skip_rest, significant_dropWhile, skip_patience]
    simp only [Except.ok.injEq, Prod.mk.injEq, ne_eq, h, not_false_iff, true_and]
    constructor
    · rintro ⟨rfl, rfl⟩; exact ⟨rfl, rfl⟩
    · rintro ⟨rfl, rfl⟩; exact ⟨rfl, rfl⟩

/-- A state that was looked at has nothing to skip. -/
theorem skip_of_look {n : Nat} {k : Kind} (h : s.look g n = .ok (k, s')) : s'.skip g = s' := by
  obtain ⟨-, -, rfl⟩ := look_eq_ok_iff.mp h
  rw [skip_withPatience, skip_skip]

/-- A token is eaten exactly if it has the kind asked for. -/
theorem eat_eq_ok_iff {k : Kind} {b : Bool} : s.eat g k = .ok (b, s') ↔
    ∃ found s₁, s.look g 0 = .ok (found, s₁) ∧
      (found = k ∧ b = true ∧ s₁.bump g = .ok s' ∨ found ≠ k ∧ b = false ∧ s' = s₁) := by
  unfold eat
  rw [bind_eq_ok_iff]
  constructor
  -- The kind looked at is the one asked for, or nothing is consumed.
  · rintro ⟨⟨found, s₁⟩, hlook, h⟩
    refine ⟨found, s₁, hlook, ?_⟩
    dsimp only at h
    split at h
    case isTrue hk =>
      obtain ⟨s₂, hbump, h⟩ := bind_eq_ok_iff.mp h
      cases h
      exact .inl ⟨hk, rfl, hbump⟩
    case isFalse hk =>
      cases h
      exact .inr ⟨hk, rfl, rfl⟩
  · rintro ⟨found, s₁, hlook, ⟨hk, rfl, hbump⟩ | ⟨hk, rfl, rfl⟩⟩
    · refine ⟨_, hlook, ?_⟩
      simp only [hk, ↓reduceIte, hbump]
      rfl
    · refine ⟨_, hlook, ?_⟩
      simp only [hk, ↓reduceIte]
      rfl

/-! ## Complaints -/

/-- Describing the current token changes nothing but the patience. -/
theorem describeFront_eq_ok {found : String} (h : s.describeFront g = .ok (found, s')) :
    ∃ p, s' = { s.skip g with patience := p } := by
  unfold describeFront at h
  dsimp only at h
  split at h
  · cases h
    exact ⟨(s.skip g).patience, rfl⟩
  · obtain ⟨⟨k, s₁⟩, hlook, h⟩ := bind_eq_ok_iff.mp h
    cases h
    obtain ⟨-, -, rfl⟩ := look_eq_ok_iff.mp hlook
    exact ⟨_, by rw [skip_skip]⟩

/-- A complaint is at most one report of its problem at the current token. -/
theorem complain_eq_ok {x : Complaint} (h : s.complain g x = .ok s') :
    ∃ p d, s' = ({ s.skip g with patience := p } : State).reportAt g
      ((s.skip g).frontSpan g).start d ∧ d.problem = x.problem := by
  unfold complain at h
  obtain ⟨⟨found, s₁⟩, hfound, h⟩ := bind_eq_ok_iff.mp h
  obtain ⟨p, rfl⟩ := describeFront_eq_ok hfound
  dsimp only at h
  split at h
  · cases h
    exact ⟨p, _, rfl, rfl⟩
  · cases h

/-- Missing tokens are reported as errors. -/
theorem expect_eq_ok {k : Kind} {what : String} {b : Bool} (h : s.expect g k what = .ok (b, s')) :
    ∃ found s₁, s.look g 0 = .ok (found, s₁) ∧
      (found = k ∧ b = true ∧ s₁.bump g = .ok s' ∨
        found ≠ k ∧ b = false ∧
          s₁.complain g ⟨.expectedToken, some what, some k.describe⟩ = .ok s') := by
  unfold expect at h
  obtain ⟨⟨eaten, s₁⟩, heat, h⟩ := bind_eq_ok_iff.mp h
  obtain ⟨found, s₂, hlook, ⟨hk, rfl, hbump⟩ | ⟨hk, rfl, rfl⟩⟩ := eat_eq_ok_iff.mp heat
  · cases h
    exact ⟨found, s₂, hlook, .inl ⟨hk, rfl, hbump⟩⟩
  · obtain ⟨s₃, hcomplain, h⟩ := bind_eq_ok_iff.mp h
    cases h
    exact ⟨found, s₁, hlook, .inr ⟨hk, rfl, hcomplain⟩⟩

/-! ## Nesting -/

/-- A level is refused exactly if it would be too deep. -/
theorem enter_eq_false_iff : s.enter g = (false, s') ↔
    g.depthLimit.any (· ≤ s.depth) = true ∧
      s' = { s with exhausted := s.exhausted <|> some .depth } := by
  unfold enter
  split
  · next hdeep => simp [hdeep, eq_comm]
  · next hdeep => simp [hdeep]

/-- A level is granted exactly if the limit has not been reached. -/
theorem enter_eq_true_iff : s.enter g = (true, s') ↔
    g.depthLimit.any (· ≤ s.depth) = false ∧
      s' = { s with depth := s.depth + 1, patience := fullPatience } := by
  unfold enter
  split
  · next hdeep => simp [hdeep]
  · next hdeep => simp [hdeep, eq_comm]

/-- Asking for a level changes what limits the parse, and nothing else. -/
theorem enter_eq {b : Bool} (h : s.enter g = (b, s')) : ∃ depth patience exhausted,
    s' = { s with depth := depth, patience := patience, exhausted := exhausted } := by
  cases b with
  | false =>
    obtain ⟨-, rfl⟩ := enter_eq_false_iff.mp h
    exact ⟨_, _, _, rfl⟩
  | true =>
    obtain ⟨-, rfl⟩ := enter_eq_true_iff.mp h
    exact ⟨_, _, _, rfl⟩

/-- Where a level is refused, a resource has run out. -/
theorem exhausted_of_enter (h : s.enter g = (false, s')) : s'.exhausted ≠ none := by
  obtain ⟨-, rfl⟩ := enter_eq_false_iff.mp h
  cases s.exhausted <;> simp

/-! ## Delimiters -/

/-- A delimiter that is open at the end of the source is reported as such. -/
private theorem reportUnclosed_eq_ok {d : Delimiter} {construct : String} {opener : Span}
    (h : s.reportUnclosed g d construct opener = .ok s') :
    ∃ dg, dg.problem = d.unclosed ∧ s' = s.reportAt g (s.frontSpan g).start dg := by
  unfold reportUnclosed at h
  dsimp only at h
  split at h
  · cases h
    exact ⟨_, rfl, rfl⟩
  · cases h

/-- A delimiter is closed by its closer.  If that is missing at the end of the source, the opener is
    blamed, and otherwise the token that stands in its place. -/
theorem closeDelimiter_eq_ok_iff {d : Delimiter} {construct : String} :
    s.closeDelimiter g d construct = .ok s' ↔ s.delimiters.head?.any (·.1 ≠ d) = false ∧
      ∃ closed s₁, ({ s with delimiters := s.delimiters.tail } : State).eat g d.closer =
          .ok (closed, s₁) ∧
        (closed = true ∧ s₁ = s' ∨ closed = false ∧
          ((∃ x, s.delimiters.head? = some x ∧ (s₁.skip g).rest = [] ∧
              (s₁.skip g).reportUnclosed g d construct x.2 = .ok s') ∨
            (s.delimiters.head? = none ∨ (s₁.skip g).rest ≠ []) ∧ ∃ b, (s₁.skip g).expect g
              d.closer (d.closer.describe ++ " to close the " ++ construct) = .ok (b, s'))) := by
  unfold closeDelimiter
  dsimp only
  split
  · next hunpaired =>
    rw [hunpaired]
    constructor
    · intro h
      cases h
    · rintro ⟨h, -⟩
      cases h
  next hpaired =>
  rw [Bool.not_eq_true] at hpaired
  rw [bind_eq_ok_iff]
  simp only [hpaired, true_and, Prod.exists]
  -- Both sides look for the closer in the same way, so they differ at most in what follows.
  refine exists_congr fun closed => exists_congr fun s₁ => and_congr_right fun _ => ?_
  cases closed with
  | true => simp [pure, Except.pure]
  | false =>
    cases s.delimiters.head? with
    | none => simp [bind_eq_ok_iff, pure, Except.pure]
    | some x =>
      obtain ⟨d', opener⟩ := x
      cases (s₁.skip g).rest <;> simp [bind_eq_ok_iff, pure, Except.pure, and_assoc]

/-- What is reported if a closer is missing after a lookahead that led to `s`: the delimiter is
    still open at the end of the source, or another token stands here. -/
inductive MissesCloser (d : Delimiter) (open? : Option (Delimiter × Span)) (s : State) :
    Problem → Prop where
  | unclosed (hopen : open?.isSome = true) (hrest : s.rest = []) : MissesCloser d open? s d.unclosed
  | expected : MissesCloser d open? s .expectedToken

/-- A delimiter is closed by its closer; if that is missing, this is reported at the current
    token. -/
theorem closeDelimiter_cases {d : Delimiter} {construct : String}
    (h : s.closeDelimiter g d construct = .ok s') :
    ∃ found s₁, ({ s with delimiters := s.delimiters.tail } : State).look g 0 = .ok (found, s₁) ∧
      (found = d.closer ∧ s₁.bump g = .ok s' ∨
        found ≠ d.closer ∧ ∃ p dg, MissesCloser d s.delimiters.head? s₁ dg.problem ∧
          s' = ({ s₁ with patience := p } : State).reportAt g (s₁.frontSpan g).start dg) := by
  -- The closer was looked at: it is consumed, or something else is there.
  obtain ⟨-, closed, s₁, heat, h⟩ := closeDelimiter_eq_ok_iff.mp h
  obtain ⟨found, s₂, hlook, ⟨hk, rfl, hbump⟩ | ⟨hk, rfl, rfl⟩⟩ := eat_eq_ok_iff.mp heat
  · obtain ⟨-, rfl⟩ | ⟨hclosed, -⟩ := h
    · exact ⟨found, s₂, hlook, .inl ⟨hk, hbump⟩⟩
    · cases hclosed
  obtain ⟨hclosed, -⟩ | ⟨-, h⟩ := h
  · cases hclosed
  refine ⟨found, s₁, hlook, .inr ⟨hk, ?_⟩⟩
  -- Looking has skipped already, so skipping once more does nothing.
  have hskip : s₁.skip g = s₁ := skip_of_look hlook
  rw [hskip] at h
  obtain ⟨x, hopen, hrest, h⟩ | ⟨-, b, hexpect⟩ := h
  -- At the end of the source the delimiter is reported.
  · obtain ⟨dg, hdg, rfl⟩ := reportUnclosed_eq_ok h
    exact ⟨s₁.patience, dg, hdg ▸ .unclosed (by rw [hopen]; rfl) hrest, rfl⟩
  -- Elsewhere the look of the complaint sees the same token, so it is no closer either.
  · obtain ⟨found', s₃, hlook', ⟨hk', -, -⟩ | ⟨-, -, hcomplain⟩⟩ := expect_eq_ok hexpect
    · obtain ⟨-, hfound, rfl⟩ := look_eq_ok_iff.mp hlook
      obtain ⟨-, hfound', -⟩ := look_eq_ok_iff.mp hlook'
      rw [skip_rest, significant_dropWhile] at hfound'
      exact absurd (hfound.trans (hfound'.symm.trans hk')) hk
    · obtain ⟨p, dg, rfl, hdg⟩ := complain_eq_ok hcomplain
      obtain ⟨-, -, rfl⟩ := look_eq_ok_iff.mp hlook'
      refine ⟨p, dg, hdg ▸ .expected, ?_⟩
      rw [skip_withPatience, hskip, hskip]
      rfl

/-- What is reported if a closer is missing is an error. -/
theorem closeDelimiter_eq_ok {d : Delimiter} {construct : String}
    (h : s.closeDelimiter g d construct = .ok s') :
    ∃ found s₁, ({ s with delimiters := s.delimiters.tail } : State).look g 0 = .ok (found, s₁) ∧
      (found = d.closer ∧ s₁.bump g = .ok s' ∨
        found ≠ d.closer ∧ ∃ p dg, dg.isError = true ∧
          s' = ({ s₁ with patience := p } : State).reportAt g (s₁.frontSpan g).start dg) := by
  obtain ⟨found, s₁, hlook, hclosed | ⟨hk, p, dg, hmisses, rfl⟩⟩ := closeDelimiter_cases h
  · exact ⟨found, s₁, hlook, .inl hclosed⟩
  · refine ⟨found, s₁, hlook, .inr ⟨hk, p, dg, ?_, rfl⟩⟩
    rw [Diagnostic.isError, Diagnostic.severity]
    generalize dg.problem = problem at hmisses ⊢
    cases hmisses with
    | unclosed => cases d <;> rfl
    | expected => rfl

/-- The report that a text is empty covers it from its opener to what was consumed last. -/
theorem remarkSince_report {problem : Problem} {opener : Span}
    (h : s.remarkSince g problem opener = .ok s') :
    ∃ dg, s' = s.reportAt g opener.start dg ∧ dg.problem = problem ∧
      dg.span.start = opener.start ∧ dg.span.stop = s.consumedTo.getD opener.stop ∧
      dg.region = dg.span ∧ dg.related = [] := by
  unfold remarkSince at h
  split at h
  · next span hspan =>
    cases h
    obtain ⟨hstart, hstop⟩ := Span.make?_eq_some_iff.mp hspan
    exact ⟨_, by rw [hstart], rfl, hstart, hstop, rfl, rfl⟩
  · cases h

end State

end ScriptTree
