import ScriptTree.Proofs.TopLevel

/-!
# One text after another

A text that ends with a semicolon, and one without imports, may be written one after the other, on
lines of their own: if nothing is reported for either, nothing is reported for both, and the program
has the parts of the one and then those of the other.

## Key results

- `parse_append`: the parse of two texts, one after the other
-/

namespace ScriptTree

/-- The setting in which a text is parsed if nothing else is asked for. -/
def Setting.ofSource (source : String) : Setting :=
  ⟨Text.byteLength source.toList, Options.default.recovery, Options.default.depthLimit⟩

/-- The state before the first token of a text. -/
def State.ofSource (source : String) : State :=
  .initial (Token.lex source) Options.default.stepLimit

section

variable {source rest : String} {p q : Parsed}

/-- At the start no tokens wait to be placed. -/
private theorem State.waits_ofSource : (State.ofSource source).Waits := by
  simp [ofSource, Waits, initial]

/-- At the start the whole source is ahead. -/
theorem State.reading_ofSource : (State.ofSource source).reading = ⟨sourceLabels source, []⟩ := by
  simp [ofSource, initial, reading, sourceLabels]

/-! ## The phases of a parse -/

/-- A parse that reports nothing reads the imports, and then the items. -/
theorem parse_phases (hparse : parse .default source = .ok (.ok p)) (hsilent : p.diagnostics = []) :
    ∃ budget a b s₁ s₂,
      Rule.imports.run (.ofSource source) budget (.ofSource source) = .ok (a, s₁) ∧
      Rule.items.run (.ofSource source) budget s₁ = .ok (b, s₂) ∧ s₂.Silent ∧
      s₂.reading = ⟨[], p.tree.significant.children⟩ ∧ s₂.depth = 0 ∧ s₂.delimiters = [] := by
  obtain ⟨a, s, hrun, hfinish⟩ := parseLexed_eq_ok_iff.mp hparse
  replace hrun : Rule.program.run (.ofSource source) (callBudget (Token.lex source))
      (.ofSource source) = .ok (a, s) := hrun
  obtain ⟨hexhausted, hhalted, htree, hreports⟩ := State.finish_eq_ok hfinish
  have hs : s.Silent := ⟨hexhausted, hhalted, Array.toList_eq_nil_iff.mp (hreports ▸ hsilent)⟩
  obtain ⟨-, hdepth⟩ := Rule.run_low rfl hrun (State.low_empty _ _ rfl) (Nat.le_refl _)
  have hdelimiters := (Rule.run_later hrun).delimiters
  obtain ⟨hrest, -⟩ := Rule.run_program_rest hrun hexhausted hhalted
  generalize callBudget (Token.lex source) = budget at hrun
  -- The program rule is the imports followed by the items.
  cases budget with
  | zero => cases hrun
  | succ budget =>
    rw [Rule.run, Rule.script_program] at hrun
    obtain ⟨b, s₁, himports, hrun⟩ := Script.run_call_eq_ok_iff.mp hrun
    obtain ⟨c, s₂, hitems, hrun⟩ := Script.run_call_eq_ok_iff.mp hrun
    cases hrun
    -- Nothing was reported at the end, so nothing was before: reports only grow.
    have hskipped : (s₂.skip (.ofSource source)).Silent :=
      ⟨hs.supplied, hs.running, hs.unreported⟩
    have hs₂ : s₂.Silent := hskipped.of_extends (State.extends_skip _ _)
    have hs₁ : s₁.Silent := hs₂.of_extends (Rule.run_extends hitems)
    -- Only skipped tokens are pending, so to place them does not change the reading.
    have horderly : (State.ofSource source).Orderly (.ofSource source) :=
      ⟨State.waits_ofSource, rfl, (Token.lex_sorted source).1,
        (Token.lex_sorted source).2⟩
    obtain ⟨hpasses₁, -⟩ := Rule.run_reads rfl _ _ _ _ _ himports hs₁.clean horderly
      (by simp [State.Fresh, State.ofSource, State.initial])
    obtain ⟨hpasses₂, -⟩ := Rule.run_reads rfl _ _ _ _ _ hitems hs₂.clean hpasses₁.orderly
      hpasses₁.fresh
    have hreading := State.reading_drain (hpasses₂.orderly.waits.skip (g := .ofSource source))
    rw [State.reading_skip] at hreading
    refine ⟨budget, b, c, s₁, s₂, himports, hitems, hs₂, ?_, ?_, ?_⟩
    · rw [← hreading, State.reading, hrest, htree, Tree.significant, Tree.erase]
      rfl
    · rw [← State.skip_depth (g := .ofSource source)]
      exact hdepth
    · rw [← State.skip_delimiters (g := .ofSource source)]
      exact hdelimiters

/-- What the grammar sees of a node's children is in the node. -/
private theorem Tree.exists_mem_preorderOf {k : Kind} {cs ts : List Tree}
    (h : .node k cs ∈ eraseAll Kind.isSkipped ts) (start : Nat) :
    ∃ e ∈ preorderOf start ts, e.kind = k := by
  induction ts generalizing start with
  | nil => cases h
  | cons t ts ih =>
    have hmore (h : .node k cs ∈ eraseAll Kind.isSkipped ts) :
        ∃ e ∈ preorderOf start (t :: ts), e.kind = k := by
      obtain ⟨e, he, hk⟩ := ih h (start + t.width)
      exact ⟨e, List.mem_append_right _ he, hk⟩
    rw [eraseAll] at h
    split at h
    · exact hmore h
    · obtain heq | h := List.mem_cons.mp h
      · cases t with
        | leaf j text => cases heq
        | node j ds =>
          obtain ⟨rfl, -⟩ := Tree.node.inj heq
          exact ⟨_, List.mem_append_left _ List.mem_cons_self, rfl⟩
      · exact hmore h

/-- A text without imports does not begin with one. -/
private theorem kindAt_of_noImport (hparse : parse .default source = .ok (.ok p))
    (hsilent : p.diagnostics = []) (himports : ∀ e ∈ p.tree.preorder 0, e.kind ≠ .importDecl) :
    kindAt (sourceLabels source) 0 ≠ .kwImport := by
  intro hfirst
  -- The grammar describes the tree read; its imports come first and take the keyword.
  obtain ⟨-, input, children, ⟨a, hreads⟩, hsignificant⟩ := parseLexed_reads rfl
    (Token.lex_sorted source).1 (Token.lex_sorted source).2 hparse (by simp [hsilent])
  replace hreads : Rule.Parses true .program ⟨sourceLabels source, []⟩ a ⟨input, children⟩ := hreads
  obtain ⟨y, ⟨b, hbefore⟩, z, ⟨c, hitems⟩, rfl⟩ :=
    Grammar.leads_program.mp ⟨a, Rule.parses_iff.mp hreads⟩
  have himported := Grammar.leads_imports.mp ⟨b, Rule.parses_iff.mp hbefore⟩
  simp only [Step.may, Step.branch, Step.isAt, hfirst, beq_self_eq_true, if_true] at himported
  obtain ⟨w, ⟨d, himport⟩, v, ⟨e, hmore⟩, rfl⟩ := himported
  -- The import is the first child of the program.
  obtain ⟨k, cs, hk, hframe, -⟩ := Shape.Adds.nodes_iff.mp (Rule.sound himport)
  obtain ⟨ts, hframe', -⟩ := Rule.sound hmore
  obtain ⟨us, hframe'', -⟩ := Rule.sound hitems
  obtain rfl : k = .importDecl := by simpa using hk
  obtain ⟨⟨cs', htree⟩, -⟩ := parseLexed_leaves hparse
  -- What was recorded is what the significant tree of the parse holds.
  rw [htree, Tree.significant, Tree.erase] at hsignificant
  have hall : children = (([] ++ [Tree.node .importDecl cs]) ++ ts) ++ us :=
    hframe''.trans (by rw [hframe', hframe])
  have hchildren : Tree.node .importDecl cs ∈ Tree.eraseAll Kind.isSkipped cs' := by
    rw [(Tree.node.inj hsignificant).2, hall]
    simp
  obtain ⟨e, he, hk⟩ := Tree.exists_mem_preorderOf hchildren 0
  exact himports e (htree ▸ List.mem_cons_of_mem _ he) hk

/-- A text that reports nothing has no lexical errors. -/
theorem clean_of_silent (hparse : parse .default source = .ok (.ok p))
    (hsilent : p.diagnostics = []) : Token.Clean (Token.lex source) :=
  (parse_significant_follows rfl hparse (by simp [hsilent])).1

/-- A text that reports nothing does not begin with a semicolon. -/
private theorem kindAt_of_silent (hparse : parse .default source = .ok (.ok p))
    (hsilent : p.diagnostics = []) : kindAt (sourceLabels source) 0 ≠ .semiColon := by
  -- The first look of the items is at the first token of the text, and skips semicolons.
  intro hfirst
  obtain ⟨budget, a, b, s₁, s₂, hbefore, hitems, hs₂, -⟩ := parse_phases hparse hsilent
  cases budget with
  | zero => cases hbefore
  | succ budget =>
    have hs₁ : s₁.reading = ⟨sourceLabels source, []⟩ ∧ s₁.Waits ∧ s₁.reported = none := by
      -- The imports have read nothing: the text is empty, or its first token is the semicolon.
      obtain ⟨-, rfl⟩ | ⟨-, k, s₃, hlook, hmore⟩ := Rule.run_imports_cases hbefore
      · exact ⟨by rw [State.reading_skip, State.reading_ofSource], State.waits_ofSource.skip,
          State.skip_reported⟩
      · obtain ⟨hk, hwaits₃, hreading⟩ := State.waits_ofSource.skip.look hlook
        rw [State.reading_skip, State.reading_ofSource] at hk hreading
        obtain ⟨-, rfl⟩ | ⟨rfl, -⟩ := hmore
        · obtain ⟨-, -, rfl⟩ := State.look_eq_ok_iff.mp hlook
          exact ⟨hreading, hwaits₃, State.skip_reported.trans State.skip_reported⟩
        · rw [hfirst] at hk
          cases hk
    obtain ⟨hreading, hwaits₁, hreported⟩ := hs₁
    -- The items end at once, or look at a token that is no semicolon.
    obtain ⟨hstopped, rfl⟩ | ⟨s₃, -, ⟨-, k, s₄, -, -, -, hlook, hk, -⟩, -⟩ :=
      Rule.run_items_cases hreported hitems hs₂
    · rw [hs₂.isStopped, List.isEmpty_iff, hreading] at hstopped
      replace hstopped : sourceLabels source = [] := hstopped
      rw [hstopped] at hfirst
      cases hfirst
    · obtain ⟨rfl, -⟩ := hwaits₁.skip.look hlook
      rw [State.reading_skip, hreading] at hk
      exact hk hfirst

/-- The parse of a text ends, and what it amounts to, if its phases do. -/
theorem parse_of_reaches {s t : State} {log : Array Diagnostic × Option Nat} {f : List Tree}
    (himports : Rule.imports.Reaches (.ofSource source) (.ofSource source) s)
    (hitems : Rule.items.Reaches (.ofSource source) s t) (ht : t.Unhindered log)
    (hreading : t.reading = ⟨[], f⟩) : ∃ p, parse .default source = .ok (.ok p) ∧
      p.tree.significant = .node .program f ∧ p.diagnostics = log.1.toList := by
  -- Both rules run within one budget.
  obtain ⟨budget, a, b, himports, hitems⟩ := himports.common hitems
  have hprogram : Rule.program.run (.ofSource source) (budget + 1) (.ofSource source) =
      .ok (true, (t.skip (.ofSource source)).drain) := by
    rw [Rule.run, Rule.script_program]
    refine Script.run_call_eq_ok_iff.mpr ⟨a, s, himports, ?_⟩
    exact Script.run_call_eq_ok_iff.mpr ⟨b, t, hitems, rfl⟩
  -- The budget of a parse is large enough, so it ends as it does with the one found here.
  have hsafe := (parse_ensures .any .default source (by simp) (by simp [Mode.Shows])).ok_or_stalled
  have hsettled : Rule.program.run (.ofSource source) (callBudget (Token.lex source))
      (.ofSource source) ≠ .error .runaway := by
    intro hrunaway
    have hparse : parse .default source = .error .runaway := by
      rw [parse, parseLexed]
      exact congrArg (· >>= _) hrunaway
    rw [hparse] at hsafe
    simp at hsafe
  have hrun : Rule.program.run (.ofSource source) (callBudget (Token.lex source))
      (.ofSource source) = .ok (true, (t.skip (.ofSource source)).drain) := by
    rw [← Rule.run_mono (Nat.le_max_left _ (budget + 1)) hsettled]
    exact Rule.run_mono_ok (Nat.le_max_right _ _) hprogram
  have hparse : parse .default source = ((t.skip (.ofSource source)).drain).finish source := by
    rw [parse, parseLexed]
    exact congrArg (· >>= _) hrun
  -- What is left of the blanks goes into the tree without a report.
  have hdrained := (ht.skip (g := .ofSource source)).drain
  have hread := State.reading_drain (ht.skip (g := .ofSource source)).waits
  rw [State.reading_skip, hreading] at hread
  have hlog := hdrained.log
  unfold State.finish at hparse
  rw [hdrained.supplied, hdrained.running] at hparse
  dsimp only at hparse
  rw [if_neg Bool.false_ne_true] at hparse
  -- The tree spells out the source, since a parse of a source ends in no other fault.
  split at hparse
  · refine ⟨_, hparse, congrArg (Tree.node .program ∘ Reading.frame) hread, ?_⟩
    rw [← hlog]
  · rw [hparse] at hsafe
    simp at hsafe

/-! ## Between two items -/

/-- No item is being read. -/
structure State.Outside (log : Array Diagnostic × Option Nat) (x : Reading) (t : State) : Prop where
  unhindered : t.Unhindered log
  reading : t.reading = x
  depth : t.depth = 0
  delimiters : t.delimiters = []

/-- At the end of the first text the parse of both is outside of everything, with the second text
    ahead. -/
private theorem State.Beside.outside {s t : State} {x : Surplus} (h : s.Beside x t)
    (hinput : s.reading.input = []) (hdepth : s.depth = 0) (hdelimiters : s.delimiters = []) :
    t.Outside x.log ⟨x.ahead, x.behind ++ s.reading.frame⟩ where
  unhindered := h.unhindered
  reading := by
    have hsame : t.reading = ⟨t.reading.input, t.reading.frame⟩ := rfl
    rw [hsame, h.input, h.frame, hinput, List.nil_append]
  depth := by rw [h.depth, hdepth]
  delimiters := by
    have hnone := h.delimiters
    rw [hdelimiters] at hnone
    exact List.map_eq_nil_iff.mp hnone

/-- At the end of the first text the parse of both has all its patience but for one lookahead. -/
private theorem State.Beside.rested {s t : State} {x : Surplus} (h : s.Beside x t)
    (hinput : s.reading.input = []) (hrested : s.Rested x) (hahead : x.ahead ≠ []) :
    fullPatience ≤ t.patience + 1 :=
  Nat.le_trans (hrested hinput hahead) (Nat.succ_le_succ h.patience)

/-- A text that reports nothing, and ends with a semicolon, is read in the same way where more
    follows. -/
theorem parse_before (hparse : parse .default source = .ok (.ok p)) (hsilent : p.diagnostics = [])
    {e : Setting} (hlimit : e.depthLimit = Options.default.depthLimit) {t : State} {x : Surplus}
    (h : (State.ofSource source).Beside x t) (hseals : x.Seals (.ofSource source))
    (himport : kindAt x.ahead 0 ≠ .kwImport) (hsemicolon : kindAt x.ahead 0 ≠ .semiColon) :
    ∃ t₁ t₂, Rule.imports.Reaches e t t₁ ∧
      (∀ u, Rule.items.Reaches e t₂ u → Rule.items.Reaches e t₁ u) ∧ t.Later e t₂ ∧
      t₂.Outside x.log ⟨x.ahead, x.behind ++ p.tree.significant.children⟩ ∧
        (x.ahead ≠ [] → fullPatience ≤ t₂.patience + 1) := by
  -- Both phases of the first text, each with the state it leaves.
  obtain ⟨budget, a, b, s₁, s₂, himports, hitems, hs₂, hreading, hdepth, hdelimiters⟩ :=
    parse_phases hparse hsilent
  have hs₁ := hs₂.of_extends (Rule.run_extends hitems)
  -- The imports do the same with more tokens behind, up to where they look beyond the text.
  obtain ⟨t₁, p', himports', h₁, hrested, hsame⟩ :=
    Rule.imports_beside hlimit h hseals (fun _ _ => rfl) himport himports hs₁
  obtain ⟨m, c, hrun'⟩ := himports'
  by_cases hnil : s₁.reading.input = []
  · -- There were imports only.
    have hreported : s₁.reported = none := h₁.unreported
    obtain rfl := Rule.run_items_end hreported hnil hitems hs₂
    rw [State.skip_depth] at hdepth
    rw [State.skip_delimiters] at hdelimiters
    rw [State.reading_skip] at hreading
    have houtside := h₁.outside hnil hdepth hdelimiters
    have hframe : ({ s₁ with patience := p' } : State).reading.frame =
        p.tree.significant.children := congrArg Reading.frame hreading
    rw [hframe] at houtside
    exact ⟨t₁, t₁, ⟨m, c, hrun'⟩, fun _ => id, Rule.run_later hrun', houtside,
      h₁.rested hnil hrested⟩
  -- The text goes on after its imports, so the items run side by side as well.
  · obtain rfl := hsame hnil
    obtain ⟨t₂, hgoes, hlater, h₂, hrested₂, hinput⟩ := Rule.items_beside hlimit h₁
      (hseals.of_suffix (Rule.run_later himports).input_suffix) hrested hsemicolon hitems hs₂
    have houtside := h₂.outside hinput hdepth hdelimiters
    rw [hreading] at houtside
    exact ⟨t₁, t₂, ⟨m, c, hrun'⟩, hgoes, (Rule.run_later hrun').trans hlater, houtside,
      h₂.rested hinput hrested₂⟩

/-- Other items do not make a difference to a text, once it has been looked at. -/
private theorem State.Outside.beside_looked {s t : State} {log : Array Diagnostic × Option Nat}
    {f : List Tree} {g : Setting} {k : Kind} (h : t.Outside log ⟨sourceLabels source, f⟩)
    (hfull : fullPatience ≤ t.patience + 1)
    (hlook : (State.skip g (.ofSource source)).look g 0 = .ok (k, s)) :
    s.Beside ⟨[], f, log⟩ t := by
  obtain ⟨-, hwaits', hreading⟩ := State.waits_ofSource.skip.look hlook
  rw [State.reading_skip, State.reading_ofSource] at hreading
  obtain ⟨-, -, rfl⟩ := State.look_eq_ok_iff.mp hlook
  -- A look at the first token leaves all else as it is at the start.
  refine ⟨hwaits', ?_, h.unhindered, ?_, ?_, ?_, ?_, ?_⟩
  · show (State.skip g (State.skip g (.ofSource source))).reported = none
    rw [State.skip_reported, State.skip_reported]
    rfl
  · rw [h.reading, hreading, List.append_nil]
  · rw [h.reading, hreading, List.append_nil]
  · show t.depth = (State.skip g (State.skip g (.ofSource source))).depth
    rw [State.skip_depth, State.skip_depth, h.depth]
    rfl
  · show t.delimiters.map (·.1) =
      (State.skip g (State.skip g (.ofSource source))).delimiters.map (·.1)
    rw [State.skip_delimiters, State.skip_delimiters, h.delimiters]
    rfl
  · show (State.skip g (.ofSource source)).patience - 1 ≤ t.patience
    rw [State.skip_patience]
    exact Nat.sub_le_of_le_add hfull

/-- A text that reports nothing, and has no imports, is read in the same way after other items. -/
theorem State.Outside.parse_after {t : State} {log : Array Diagnostic × Option Nat} {f : List Tree}
    (h : t.Outside log ⟨sourceLabels source, f⟩)
    (hrested : sourceLabels source ≠ [] → fullPatience ≤ t.patience + 1)
    (hparse : parse .default source = .ok (.ok p)) (hsilent : p.diagnostics = [])
    (himports : ∀ e ∈ p.tree.preorder 0, e.kind ≠ .importDecl)
    {e : Setting} (hlimit : e.depthLimit = Options.default.depthLimit) :
    ∃ u, Rule.items.Reaches e t u ∧ u.Unhindered log ∧
      u.reading = ⟨[], f ++ p.tree.significant.children⟩ := by
  -- Both phases of the second text.
  obtain ⟨budget, a, b, s₁, s₂, hbefore, hitems, hs₂, hreading, hdepth, hdelimiters⟩ :=
    parse_phases hparse hsilent
  have hs₁ := hs₂.of_extends (Rule.run_extends hitems)
  cases budget with
  | zero => cases hbefore
  | succ budget =>
    obtain ⟨hstopped, rfl⟩ | ⟨hgoes, k, s₃, hlook, hmore⟩ := Rule.run_imports_cases hbefore
    · -- There is nothing in the text.
      rw [hs₁.isStopped, List.isEmpty_iff] at hstopped
      obtain rfl := Rule.run_items_end (State.skip_reported) (by rw [State.reading_skip, hstopped])
        hitems hs₂
      rw [State.reading_skip, State.reading_skip, State.reading_ofSource] at hreading
      rw [State.reading_ofSource] at hstopped
      have hnone : p.tree.significant.children = [] := (congrArg Reading.frame hreading).symm
      have hempty : t.reading.input = [] := by rw [h.reading, hstopped]
      refine ⟨t.skip e, Rule.items_reaches_end ?_, h.unhindered.skip, ?_⟩
      -- The items end where they begin.
      · rw [h.unhindered.isStopped, hempty]
        rfl
      · rw [State.reading_skip, h.reading, hnone, List.append_nil]
        exact congrArg (Reading.mk · f) hstopped
    · -- There is, and it is no import.  Once it was looked at, the states are side by side.
      obtain ⟨hk, hwaits₃, hreading₃⟩ := State.waits_ofSource.skip.look hlook
      rw [State.reading_skip, State.reading_ofSource] at hk hreading₃
      obtain ⟨-, rfl⟩ | ⟨rfl, -⟩ := hmore
      -- An import was looked for and not found.
      · have hne : sourceLabels source ≠ [] := by
          intro hnil
          have hleft := State.reading_input_isEmpty (g := .ofSource source) (s := .ofSource source)
          rw [State.reading_ofSource, hnil] at hleft
          rw [State.isStopped, ← hleft] at hgoes
          cases hgoes
        have hbeside := h.beside_looked (hrested hne) hlook
        obtain ⟨u, hgoes, -, hu, -, hinput⟩ := Rule.items_beside hlimit hbeside (.inl rfl)
          (fun _ hne => absurd rfl hne) (fun hnone => by cases hnone) hitems hs₂
        have hempty : u.reading.input = [] := by rw [hu.input, hinput]; rfl
        refine ⟨u.skip e, hgoes _ (Rule.items_reaches_end ?_), hu.unhindered.skip, ?_⟩
        · rw [hu.unhindered.isStopped, hempty]
          rfl
        · have hframe := hu.frame
          rw [hreading] at hframe
          rw [State.reading_skip, ← hempty, ← hframe]
      · exact absurd hk.symm (kindAt_of_noImport hparse hsilent himports)

/-- At the start, a text is beside one that goes on with other tokens. -/
theorem State.beside_ofSource {whole : String} {more : List (Kind × String)}
    (hlabels : sourceLabels whole = sourceLabels source ++ more)
    (hclean : Token.Clean (Token.lex whole)) :
    (State.ofSource source).Beside ⟨more, [], (#[], none)⟩ (.ofSource whole) where
  waits := State.waits_ofSource
  unreported := rfl
  unhindered := ⟨State.waits_ofSource, hclean, rfl, rfl, rfl, rfl⟩
  input := by rw [State.reading_ofSource, State.reading_ofSource, hlabels]
  frame := by rw [State.reading_ofSource, State.reading_ofSource]; rfl
  depth := rfl
  delimiters := rfl
  patience := Nat.le_refl _

/-- A text that ends with a semicolon, a line break and a text without imports: if each of the two
    is parsed without a report, so is the whole, and its parts are those of the two. -/
theorem parse_append (source rest : String) (p q : Parsed)
    (hparse : parse .default source = .ok (.ok p)) (hsilent : p.diagnostics = [])
    (hlast : ∀ label ∈ (sourceLabels source).getLast?, label.1 = .semiColon)
    (hparse' : parse .default rest = .ok (.ok q)) (hsilent' : q.diagnostics = [])
    (himports : ∀ e ∈ q.tree.preorder 0, e.kind ≠ .importDecl) :
    ∃ r, parse .default (source ++ "\n" ++ rest) = .ok (.ok r) ∧ r.diagnostics = [] ∧
      r.tree.significant =
        .node .program (p.tree.significant.children ++ q.tree.significant.children) := by
  -- Behind a semicolon the two texts read as they do one by one.
  obtain ⟨hlabels, hwhole⟩ := sourceLabels_append (clean_of_silent hparse hsilent)
    (clean_of_silent hparse' hsilent') fun label hlabel => by
      rw [hlast label hlabel]
      decide
  -- A semicolon seals the first text: no rule looks beyond it.
  have hseals : Surplus.Seals ⟨sourceLabels rest, [], (#[], none)⟩ (.ofSource source) := by
    right
    rw [State.reading_ofSource]
    exact hlast
  -- First the one text, with the tokens of the other one ahead, and then the other one, with the
  -- trees of the first behind.
  obtain ⟨t₁, t₂, himported, hgoes, -, houtside, hrested⟩ :=
    parse_before (e := .ofSource (source ++ "\n" ++ rest)) hparse hsilent rfl
      (State.beside_ofSource hlabels hwhole) hseals (kindAt_of_noImport hparse' hsilent' himports)
      (kindAt_of_silent hparse' hsilent')
  obtain ⟨u, hitems, hu, hreading⟩ := houtside.parse_after
    (e := .ofSource (source ++ "\n" ++ rest)) hrested hparse' hsilent' himports rfl
  obtain ⟨r, hr, htree, hreports⟩ := parse_of_reaches himported (hgoes u hitems) hu hreading
  exact ⟨r, hr, hreports, htree⟩

theorem parse_nameStmt : parse .default "a;" = .ok (.ok ⟨.node .program [.node .exprStmt
    [.node .nameRef [.leaf .identifier "a"], .leaf .semiColon ";"]], []⟩) := by decide +kernel

theorem getLast?_nameStmt : ∀ label ∈ (sourceLabels "a;").getLast?, label.1 = .semiColon := by
  decide +kernel

/-- Two texts of one statement each, where the second one could go on from the first. -/
theorem parse_append_sign :
    ∃ p q, parse .default "a;" = .ok (.ok p) ∧ p.diagnostics = [] ∧
      (∀ label ∈ (sourceLabels "a;").getLast?, label.1 = .semiColon) ∧
      parse .default "-1" = .ok (.ok q) ∧ q.diagnostics = [] ∧
      (∀ e ∈ q.tree.preorder 0, e.kind ≠ .importDecl) ∧
      ∃ r, parse .default ("a;" ++ "\n" ++ "-1") = .ok (.ok r) ∧ r.diagnostics = [] ∧
        r.tree.significant =
          .node .program (p.tree.significant.children ++ q.tree.significant.children) := by
  have hparse' : parse .default "-1" = .ok (.ok ⟨.node .program [.node .exprStmt
    [.node .literal [.leaf .number "-1"]]], []⟩) := by decide +kernel
  have himports : ∀ e ∈ (Tree.node .program [.node .exprStmt
    [.node .literal [.leaf .number "-1"]]]).preorder 0, e.kind ≠ .importDecl := by decide
  exact ⟨_, _, parse_nameStmt, rfl, getLast?_nameStmt, hparse', rfl, himports,
    parse_append "a;" "-1" _ _ parse_nameStmt rfl getLast?_nameStmt hparse' rfl himports⟩

end

end ScriptTree
