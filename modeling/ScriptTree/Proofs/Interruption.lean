import ScriptTree.Proofs.Concatenation

/-!
# Words between two texts

Between two items, words that no item begins with are set aside up to the next semicolon, and
reported once.  The items before and after are those that are read without the words.

## Key results

- `State.Outside.discard`: words up to a stop are set aside one by one
- `State.Outside.turn`: one turn of the list of items sets them all aside
- `parse_interrupted`: the parse of two texts with words in between
-/

namespace ScriptTree

variable {e : Setting}

/-! ## Scripts -/

/-- What is discarded, step by step. -/
private theorem Rule.script_discard (stops : TokenSet) : (Rule.discard stops).script =
    .stopped fun b =>
      if b = true then .done true
      else .look 0 fun k =>
        if stops.contains k = true then .done true
        else .bump (.call (.discard stops) fun _ => .done true) := by
  simp only [Rule.script, Grammar.discard, Fragment.unit, Fragment.stopped, Fragment.isAtAny,
    Fragment.current, Fragment.ahead, Fragment.call, Fragment.bump, Fragment.bind_apply,
    Fragment.pure_apply, Fragment.ite_apply]

/-- What no item begins with is an item that is set aside. -/
private theorem Rule.script_item : ∃ next : Kind → Script, Rule.item.script = .look 0 next ∧
    ∀ k, TokenSet.itemSync.contains k = false → next k =
      .node .error (.complain ⟨.expectedStatement, none, some "a declaration or statement"⟩
        (.bump (.call (.discard .itemSync) fun _ => .done true))) (.done true) := by
  refine ⟨_, rfl, fun k hk => ?_⟩
  dsimp only
  split
  · exact absurd hk (by decide)
  · exact absurd hk (by decide)
  · exact absurd hk (by decide)
  · exact absurd hk (by decide)
  · have hstmt : TokenSet.stmtFirst.contains k = false := by
      rw [← Bool.not_eq_true] at hk ⊢
      exact fun hstmt => hk (TokenSet.contains_of_union_eq (by decide) hstmt)
    rw [hstmt]
    rfl

/-! ## Complaints -/

namespace State

variable {s s' t t' t₁ : State}

/-- The current token can be described as long as patience lasts. -/
private theorem describeFront_ok (hpatience : s.patience ≠ 0) :
    ∃ found p, s.describeFront e = .ok (found, { s.skip e with patience := p }) := by
  unfold describeFront
  dsimp only
  split
  · exact ⟨_, (s.skip e).patience, rfl⟩
  · next u us hrest =>
    obtain ⟨k, hlook⟩ : ∃ k, (s.skip e).look e 0 =
        .ok (k, { s.skip e with patience := s.patience - 1 }) :=
      ⟨_, look_eq_ok_iff.mpr ⟨by rwa [skip_patience], rfl, by rw [skip_skip, skip_patience]⟩⟩
    rw [hlook]
    exact ⟨_, _, rfl⟩

/-- Where the current token is depends on the tokens ahead only. -/
private theorem frontSpan_congr (hrest : s'.rest = s.rest) : s'.frontSpan e = s.frontSpan e := by
  rw [frontSpan, frontSpan, hrest]

/-- Outside of delimiters a complaint is about the current token alone. -/
private theorem complain_ok (hpatience : s.patience ≠ 0) (hdelimiters : s.delimiters = [])
    (c : Complaint) : ∃ p d, s.complain e c =
        .ok (({ s.skip e with patience := p } : State).reportAt e d.span.start d) ∧
      d.problem = c.problem ∧ d.span = (s.skip e).frontSpan e := by
  obtain ⟨found, p, hfound⟩ := describeFront_ok (e := e) hpatience
  refine ⟨p, ⟨c.problem, (s.skip e).frontSpan e, (s.skip e).frontSpan e,
    c.problem.message c.detail, c.expected, some found, []⟩, ?_, rfl, rfl⟩
  have hnone : ({ s.skip e with patience := p } : State).delimiters = [] :=
    skip_delimiters.trans hdelimiters
  have hregion : ({ s.skip e with patience := p } : State).region e =
      some ((s.skip e).frontSpan e) := by
    rw [region, hnone]
    rfl
  rw [complain, hfound]
  dsimp only [bind, Except.bind]
  rw [hregion]
  rfl

/-! ## Operations outside of items -/

namespace Outside

variable {log log' : Array Diagnostic × Option Nat} {x y : Reading}

/-- Skipping stays outside. -/
theorem skip (h : t.Outside log x) : (t.skip e).Outside log x where
  unhindered := h.unhindered.skip
  reading := reading_skip.trans h.reading
  depth := skip_depth.trans h.depth
  delimiters := skip_delimiters.trans h.delimiters

/-- Outside of everything a parse stops at the end of the input. -/
theorem isStopped (h : t.Outside log x) : (t.skip e).isStopped = x.input.isEmpty := by
  rw [h.unhindered.isStopped, h.reading]

/-- A lookahead tells the kind that is next. -/
theorem look (h : t.Outside log x) (hpatience : 0 < t.patience) :
    ∃ t', t.look e 0 = .ok (kindAt x.input 0, t') ∧ t'.Outside log x ∧
      t'.patience = t.patience - 1 ∧ t'.rest = (t.skip e).rest := by
  refine ⟨{ t.skip e with patience := t.patience - 1 }, look_eq_ok_iff.mpr
    ⟨by omega, by rw [← h.reading, kindAt_reading], rfl⟩, ?_, rfl, rfl⟩
  have hskip := h.skip (e := e)
  exact ⟨hskip.unhindered.same rfl, hskip.reading, hskip.depth, hskip.delimiters⟩

/-- The token that is next can be consumed. -/
theorem bump {k : Kind} {text : String} {input : List (Kind × String)} {f : List Tree}
    (h : t.Outside log ⟨(k, text) :: input, f⟩) :
    ∃ t', t.bump e = .ok t' ∧ t'.Outside log ⟨input, f ++ [Tree.leaf k text]⟩ ∧
      t'.patience = fullPatience := by
  cases hrest : (t.skip e).rest with
  | nil =>
    have hempty := reading_input_isEmpty (g := e) (s := t)
    rw [hrest, h.reading] at hempty
    cases hempty
  | cons u us =>
    obtain ⟨text', hinput, hframe⟩ := reading_consume h.unhindered.waits hrest
    rw [h.reading] at hinput hframe
    obtain ⟨hlabel, htail⟩ := List.cons.inj hinput
    obtain ⟨rfl, rfl⟩ := Prod.mk.inj hlabel
    refine ⟨_, bump_eq_ok_iff.mpr ⟨u, us, hrest, rfl⟩,
      ⟨h.unhindered.skip.consume hrest, ?_, ?_, ?_⟩, rfl⟩
    · rw [htail, ← hframe]
    · rw [consume_depth, skip_depth, h.depth]
    · rw [consume_delimiters, skip_delimiters, h.delimiters]

/-- The first complaint is reported. -/
theorem complain (h : t.Outside (#[], none) x) (hrecovery : e.recovery = true)
    (hpatience : 0 < t.patience) (c : Complaint) :
    ∃ t' d, t.complain e c = .ok t' ∧ t'.Outside (#[d], some d.span.start) x ∧
      d.problem = c.problem ∧ d.span = (t.skip e).frontSpan e := by
  obtain ⟨p, d, hcomplain, hproblem, hspan⟩ :=
    complain_ok (e := e) (Nat.pos_iff_ne_zero.mp hpatience) h.delimiters c
  refine ⟨_, d, hcomplain, ?_, hproblem, hspan⟩
  have hskip := h.skip (e := e)
  have hrunning := hskip.unhindered.running
  obtain ⟨hdiagnostics, -⟩ := Prod.mk.inj hskip.unhindered.log
  obtain ⟨-, hreported⟩ := Prod.mk.inj h.unhindered.log
  have hreport : ({ t.skip e with patience := p } : State).reportAt e d.span.start d =
      { t.skip e with patience := p, reported := some d.span.start, diagnostics := #[d] } := by
    rw [reportAt, if_neg (by simp [hrunning, hreported]), emit]
    simp [hrunning, hdiagnostics, hrecovery]
  rw [hreport]
  exact ⟨⟨hskip.unhindered.waits, hskip.unhindered.clean, hrunning, hskip.unhindered.supplied,
    hskip.unhindered.unlimited, rfl⟩, hskip.reading, hskip.depth, hskip.delimiters⟩

/-- A frame of its own. -/
theorem emptied (h : t.Outside log x) :
    ({ t.drain with frame := #[] } : State).Outside log ⟨x.input, []⟩ where
  unhindered := h.unhindered.drain.same rfl
  reading := by rw [reading_emptied, h.reading]
  depth := h.depth
  delimiters := h.delimiters

/-- A new node stands behind what was read before. -/
theorem pushNode (h : t.Outside log x) (h₁ : t₁.Outside log' y) (k : Kind) :
    ({ t₁ with frame := t.drain.frame.push (.node k t₁.frame.toList) } : State).Outside log'
      ⟨y.input, x.frame ++ [Tree.node k y.frame]⟩ where
  unhindered := h₁.unhindered.same rfl
  reading := by rw [reading_pushNode h.unhindered.waits, h.reading, h₁.reading]
  depth := h₁.depth
  delimiters := h₁.delimiters

/-- Words up to a stop are discarded, one by one. -/
theorem discard {stops : TokenSet} {words : List Token} {k : Kind} {text : String}
    {input : List (Kind × String)} {f : List Tree}
    (h : t.Outside log ⟨words.map Token.label ++ (k, text) :: input, f⟩)
    (hpatience : 1 < t.patience) (hwords : ∀ u ∈ words, stops.contains u.kind = false)
    (hk : stops.contains k = true) :
    ∃ t', (Rule.discard stops).Reaches e t t' ∧
      t'.Outside log ⟨(k, text) :: input, f ++ words.map Tree.ofToken⟩ ∧ 0 < t'.patience := by
  -- By induction on the words: each of them is consumed, and that fills patience up again.
  induction words generalizing t f with
  | nil =>
    obtain ⟨t', hlook, h', hpatience', -⟩ := (h.skip (e := e)).look (e := e)
      (by rw [skip_patience]; omega)
    rw [skip_patience] at hpatience'
    refine ⟨t', ⟨1, true, ?_⟩, by simpa using h', by omega⟩
    rw [Rule.run, Rule.script_discard, Script.run, h.isStopped, if_neg (by simp)]
    refine Script.run_look_eq_ok_iff.mpr ⟨k, t', hlook, ?_⟩
    rw [if_pos hk]
    rfl
  | cons u words ih =>
    obtain ⟨hu, hwords⟩ := List.forall_mem_cons.mp hwords
    obtain ⟨t₁, hlook, h₁, -, -⟩ := (h.skip (e := e)).look (e := e)
      (by rw [skip_patience]; omega)
    obtain ⟨t₂, hbump, h₂, hfull⟩ := Outside.bump (e := e) h₁
    obtain ⟨t', ⟨budget, a, hdiscard⟩, h', hpatience'⟩ := ih h₂ (by rw [hfull]; decide) hwords
    refine ⟨t', ⟨budget + 1, true, ?_⟩, ?_, hpatience'⟩
    -- The word is no stop, so it is consumed and the rule calls itself.
    · rw [Rule.run, Rule.script_discard, Script.run, h.isStopped, if_neg (by simp)]
      refine Script.run_look_eq_ok_iff.mpr ⟨u.kind, t₁, hlook, ?_⟩
      rw [if_neg (by simp [hu])]
      refine Script.run_bump_eq_ok_iff.mpr ⟨t₂, hbump, ?_⟩
      exact Script.run_call_eq_ok_iff.mpr ⟨a, t', hdiscard, rfl⟩
    · rwa [List.append_assoc] at h'

/-- An item that no item begins with is set aside, and reported. -/
theorem item {u : Token} {words : List Token} {k : Kind} {text : String}
    {input : List (Kind × String)} {f : List Tree}
    (h : t.Outside (#[], none) ⟨(u :: words).map Token.label ++ (k, text) :: input, f⟩)
    (hrecovery : e.recovery = true) (hpatience : 1 < t.patience)
    (hwords : ∀ v ∈ u :: words, TokenSet.itemSync.contains v.kind = false)
    (hk : TokenSet.itemSync.contains k = true) :
    ∃ t' d, Rule.item.Reaches e t t' ∧ t'.Outside (#[d], some d.span.start)
        ⟨(k, text) :: input, f ++ [Tree.node .error ((u :: words).map Tree.ofToken)]⟩ ∧
      0 < t'.patience ∧ d.problem = .expectedStatement ∧ d.span = (t.skip e).frontSpan e := by
  obtain ⟨hu, hwords⟩ := List.forall_mem_cons.mp hwords
  obtain ⟨next, hscript, hnext⟩ := Rule.script_item
  obtain ⟨t₁, hlook, h₁, hpatience₁, hrest⟩ := h.look (e := e) (by omega)
  -- The complaint is made inside of the error node, with nothing in its frame yet.
  have hemptied := h₁.emptied
  obtain ⟨t₂, d, hcomplain, h₂, hproblem, hspan⟩ := hemptied.complain hrecovery
    (show 0 < t₁.patience by omega) ⟨.expectedStatement, none, some "a declaration or statement"⟩
  obtain ⟨t₃, hbump, h₃, hfull⟩ := Outside.bump (e := e) h₂
  obtain ⟨t₄, ⟨budget, a, hdiscard⟩, h₄, hpatience₄⟩ :=
    h₃.discard (e := e) (by rw [hfull]; decide) hwords hk
  refine ⟨_, d, ⟨budget + 1, true, ?_⟩, h₁.pushNode h₄ .error, hpatience₄, hproblem, ?_⟩
  -- The steps of the rule, one after the other.
  · rw [Rule.run, hscript]
    refine Script.run_look_eq_ok_iff.mpr ⟨u.kind, t₁, hlook, ?_⟩
    rw [hnext _ hu]
    refine Script.run_node_eq_ok_iff.mpr ⟨true, t₄, ?_, rfl⟩
    refine Script.run_complain_eq_ok_iff.mpr ⟨t₂, hcomplain, ?_⟩
    refine Script.run_bump_eq_ok_iff.mpr ⟨t₃, hbump, ?_⟩
    exact Script.run_call_eq_ok_iff.mpr ⟨a, t₄, hdiscard, rfl⟩
  -- The report is at the token ahead, which skipping and looking do not change.
  · rw [hspan]
    apply frontSpan_congr
    rw [skip_rest]
    show t₁.rest.dropWhile (·.kind.isSkipped) = _
    rw [hrest, ← skip_rest (g := e), skip_skip]

/-- One turn of the list of items sets words aside that no item begins with, and takes the semicolon
    behind them. -/
theorem turn {words : List Token} {text : String} {input : List (Kind × String)} {f : List Tree}
    (h : t.Outside (#[], none) ⟨words.map Token.label ++ (.semiColon, text) :: input, f⟩)
    (hrecovery : e.recovery = true) (hpatience : 2 < t.patience) (hne : words ≠ [])
    (hwords : ∀ v ∈ words, TokenSet.itemSync.contains v.kind = false) :
    ∃ t' d, t.Turn e t' ∧ t'.Outside (#[d], some d.span.start)
        ⟨input, f ++ [Tree.node .error (words.map Tree.ofToken), Tree.leaf .semiColon text]⟩ ∧
      t'.patience = fullPatience ∧ d.problem = .expectedStatement ∧
        d.span = (t.skip e).frontSpan e := by
  obtain ⟨u, words, rfl⟩ := List.exists_cons_of_ne_nil hne
  -- A look at the first word, the item, a look at the semicolon, and its consumption.
  obtain ⟨t₁, hlook, h₁, hpatience₁, hrest⟩ := (h.skip (e := e)).look (e := e)
    (by rw [skip_patience]; omega)
  rw [skip_patience] at hpatience₁
  obtain ⟨t₂, d, hitem, h₂, hpatience₂, hproblem, hspan⟩ :=
    h₁.item hrecovery (by omega) hwords (by decide)
  obtain ⟨t₃, hafter, h₃, -, -⟩ := h₂.look (e := e) hpatience₂
  obtain ⟨t', hbump, h', hfull⟩ := Outside.bump (e := e) h₃
  rw [List.append_assoc] at h'
  have hu : u.kind ≠ .semiColon := by
    intro hu
    have hword := hwords u List.mem_cons_self
    rw [hu] at hword
    exact absurd hword (by decide)
  refine ⟨t', d, ⟨?_, u.kind, t₁, t₂, .semiColon, t₃, hlook, hu, hitem, hafter,
    .inl ⟨rfl, hbump⟩⟩, h', hfull, hproblem, ?_⟩
  · rw [h.isStopped]
    rfl
  · rw [hspan]
    apply frontSpan_congr
    rw [skip_rest, hrest, ← skip_rest (g := e), skip_skip, skip_skip]

end Outside

end State

/-! ## Words in between -/

/-- A significant token that is all there is in its text, and neither begins an item nor ends what
    is set aside. -/
def Token.IsWord (t : Token) : Prop :=
  Token.lex t.text = [t] ∧ t.kind.isSkipped = false ∧ TokenSet.itemSync.contains t.kind = false

/-- A word is no token at which items begin. -/
private theorem Token.IsWord.kind_ne {t : Token} (h : t.IsWord) {k : Kind}
    (hk : TokenSet.itemSync.contains k = true) : t.kind ≠ k := by
  intro heq
  have hword := h.2.2
  rw [heq, hk] at hword
  cases hword

/-- A token that is seen stands behind those that are seen before it. -/
private theorem Token.getElem?_significant {before after : List Token} {t : Token}
    (h : t.kind.isSkipped = false) :
    (significant (before ++ t :: after))[(significant before).length]? = some t := by
  simp [significant, h]

/-- A state that is at a token, as far as the significant tokens ahead tell. -/
private theorem State.exists_skip_rest {t : State} {before after : List Token} {u : Token}
    (hu : u.kind.isSkipped = false) (hsuffix : t.rest <:+ before ++ u :: after)
    (hsame : (Token.significant (before ++ u :: after)).map Token.label =
      (Token.significant before).map Token.label ++ t.reading.input) :
    ∃ us, (t.skip e).rest = u :: us := by
  have hahead : t.reading.input = u.label :: (Token.significant after).map Token.label := by
    refine List.append_cancel_left (hsame.symm.trans ?_)
    simp [Token.significant, hu]
  -- Something is left, since its label is still ahead.
  cases hrest : (t.skip e).rest with
  | nil =>
    have hempty := reading_input_isEmpty (g := e) (s := t)
    rw [hrest, hahead] at hempty
    cases hempty
  | cons v us =>
    obtain ⟨pre, hpre⟩ : v :: us <:+ before ++ u :: after := by
      refine List.IsSuffix.trans ?_ hsuffix
      rw [← hrest, skip_rest]
      exact List.dropWhile_suffix _
    have hv : v.kind.isSkipped = false := by
      rw [skip_rest] at hrest
      exact Token.isSkipped_of_dropWhile hrest
    -- As many significant tokens are behind the one as behind the other.
    have hlength : (Token.significant pre).length = (Token.significant before).length := by
      have hinput : t.reading.input = (Token.significant (v :: us)).map Token.label := by
        rw [← hrest, ← reading_skip (g := e)]
        rfl
      rw [← hpre, hinput, Token.significant, List.filter_append, List.map_append] at hsame
      have hcount := congrArg List.length (List.append_cancel_right hsame)
      simpa [Token.significant] using hcount
    -- So the token at the same position is the same one.
    have hget : (Token.significant (pre ++ v :: us))[(Token.significant pre).length]? = some v :=
      Token.getElem?_significant hv
    rw [hpre, hlength, Token.getElem?_significant hu] at hget
    exact ⟨us, by rw [Option.some.inj hget]⟩

section

variable {source rest : String} {words : List Token}

/-- The first word is where the line begins. -/
theorem lex_interrupted {u : Token} (h : Token.Clean (Token.lex source)) (hu : u.IsWord)
    (h' : Token.Clean (Token.lex
      (" ".intercalate ((u :: words).map (·.text)) ++ " ;" ++ "\n" ++ rest))) :
    ∃ before v after, Token.lex (source ++ "\n" ++
        (" ".intercalate ((u :: words).map (·.text)) ++ " ;" ++ "\n" ++ rest)) =
          before ++ v :: after ∧
      (Token.significant before).map Token.label = sourceLabels source ∧ v.kind = u.kind ∧
        v.start = Text.byteLength (source ++ "\n").toList := by
  obtain ⟨qs, hscan⟩ : ∃ qs, Piece.scan
      (" ".intercalate ((u :: words).map (·.text)) ++ " ;" ++ "\n" ++ rest).toList =
        ⟨u.kind, u.text.toList⟩ :: qs := by
    rw [toList_append_break, toList_words (by simp), List.flatMap_cons, List.append_assoc,
      List.append_assoc, List.append_assoc]
    exact ⟨_, Piece.scan_word hu.1 hu.2.1 _⟩
  exact lex_append h h' hscan hu.2.1 (hu.kind_ne (by decide))

/-- A text, words with a semicolon, and another text, on lines of their own. -/
private theorem sourceLabels_interrupted (h : Token.Clean (Token.lex source))
    (h' : Token.Clean (Token.lex rest))
    (hlast : ∀ label ∈ (sourceLabels source).getLast?, label.1 = .semiColon) (hne : words ≠ [])
    (hwords : ∀ t ∈ words, t.IsWord) :
    sourceLabels (source ++ "\n" ++
        (" ".intercalate (words.map (·.text)) ++ " ;" ++ "\n" ++ rest)) =
      sourceLabels source ++ (words.map Token.label ++ (.semiColon, ";") :: sourceLabels rest) ∧
      Token.Clean (Token.lex
        (" ".intercalate (words.map (·.text)) ++ " ;" ++ "\n" ++ rest)) ∧
      Token.Clean (Token.lex (source ++ "\n" ++
        (" ".intercalate (words.map (·.text)) ++ " ;" ++ "\n" ++ rest))) := by
  -- The words between two breaks are read as by themselves, and so is what stands around them.
  obtain ⟨hmiddle, hclean⟩ :=
    sourceLabels_words hne (fun t ht => ⟨(hwords t ht).1, (hwords t ht).2.1⟩)
      fun t ht => (hwords t ht).kind_ne (by decide)
  have hsemicolon {k : Kind} (hk : k = .semiColon) : TokenSet.operandEnd.contains k = false := by
    rw [hk]
    decide
  obtain ⟨hafter, hclean'⟩ := sourceLabels_append hclean h' fun label hlabel => by
    rw [hmiddle, List.getLast?_concat] at hlabel
    exact hsemicolon (congrArg Prod.fst (Option.some.inj hlabel)).symm
  obtain ⟨hall, hcleanAll⟩ :=
    sourceLabels_append h hclean' fun label hlabel => hsemicolon (hlast label hlabel)
  refine ⟨?_, hclean', hcleanAll⟩
  rw [hall, hafter, hmiddle, List.append_assoc]
  rfl

/-- Words with which no item begins, between a text that ends with a semicolon and one without
    imports: they are reported once, at the first of them, and the items before and after are those
    of the two texts. -/
theorem parse_interrupted (source rest : String) (words : List Token) (p q : Parsed)
    (hparse : parse .default source = .ok (.ok p)) (hsilent : p.diagnostics = [])
    (hlast : ∀ label ∈ (sourceLabels source).getLast?, label.1 = .semiColon) (hne : words ≠ [])
    (hwords : ∀ t ∈ words, t.IsWord)
    (hparse' : parse .default rest = .ok (.ok q)) (hsilent' : q.diagnostics = [])
    (himports : ∀ e ∈ q.tree.preorder 0, e.kind ≠ .importDecl) :
    ∃ r d, parse .default (source ++ "\n" ++ " ".intercalate (words.map (·.text)) ++ " ;" ++ "\n"
        ++ rest) = .ok (.ok r) ∧
      r.diagnostics = [d] ∧ d.problem = .expectedStatement ∧
      d.span.start = Text.byteLength (source ++ "\n").toList ∧
      d.span.stop = Text.byteLength (source ++ "\n" ++ (words.head hne).text).toList ∧
      r.tree.significant = .node .program (p.tree.significant.children ++
        [.node .error (words.map Tree.ofToken), .leaf .semiColon ";"] ++
          q.tree.significant.children) := by
  have hclean := clean_of_silent hparse hsilent
  obtain ⟨hlabels, hafter, hwhole⟩ :=
    sourceLabels_interrupted hclean (clean_of_silent hparse' hsilent') hlast hne hwords
  obtain ⟨u, words, rfl⟩ := List.exists_cons_of_ne_nil hne
  have hu := hwords u List.mem_cons_self
  -- Where the first word stands in the whole text.
  obtain ⟨before, v, after, hlex, hbefore, hkind, hstart⟩ := lex_interrupted hclean hu hafter
  have hassoc : source ++ "\n" ++ " ".intercalate ((u :: words).map (·.text)) ++ " ;" ++ "\n" ++
      rest = source ++ "\n" ++
        (" ".intercalate ((u :: words).map (·.text)) ++ " ;" ++ "\n" ++ rest) := by
    simp only [String.append_assoc]
  rw [hassoc]
  generalize source ++ "\n" ++ (" ".intercalate ((u :: words).map (·.text)) ++ " ;" ++ "\n" ++
    rest) = whole at *
  have hseals : Surplus.Seals ⟨(u :: words).map Token.label ++ (.semiColon, ";") ::
      sourceLabels rest, [], (#[], none)⟩ (.ofSource source) := by
    right
    rw [State.reading_ofSource]
    exact hlast
  -- The first text is read as by itself, since no word is an import or a semicolon.
  obtain ⟨t₁, t₂, himported, hgoes, hlater, houtside, hrested⟩ :=
    parse_before (e := .ofSource whole) hparse hsilent rfl (State.beside_ofSource hlabels hwhole)
      hseals (hu.kind_ne (by decide)) (hu.kind_ne (by decide))
  -- One turn of the list of items takes the words, and leaves patience for the second text.
  have hfull : 256 ≤ t₂.patience + 1 := hrested (by simp)
  obtain ⟨t₃, d, hturn, houtside₃, hfull₃, hproblem, hspan⟩ :=
    houtside.turn (e := .ofSource whole) rfl (by omega) hne fun w hw => (hwords w hw).2.2
  -- The second text is read as by itself, behind the trees of the first and the error.
  obtain ⟨s, hitems, hs, hreading⟩ := houtside₃.parse_after (e := .ofSource whole)
    (fun _ => by omega) hparse' hsilent' himports rfl
  obtain ⟨r, hr, htree, hreports⟩ :=
    parse_of_reaches himported (hgoes s (hturn.items hitems)) hs hreading
  -- The report is about the token that the words begin with.
  have hsuffix : t₂.rest <:+ before ++ v :: after := hlex ▸ hlater.rest
  have hv : v.kind.isSkipped = false := by rw [hkind, hu.2.1]
  obtain ⟨us, hrest⟩ := State.exists_skip_rest (e := .ofSource whole) hv hsuffix (by
    rw [← hlex, hbefore, houtside.reading]
    exact hlabels)
  have htext : v.text = u.text := by
    have hinput := State.reading_input_of_rest hrest
    rw [houtside.reading] at hinput
    exact (congrArg Prod.snd (List.cons.inj hinput).1).symm
  have hsame : d.span = v.span := by
    rw [hspan, State.frontSpan, hrest]
  -- Start and stop of the report are those of the word.
  refine ⟨r, d, hr, hreports, hproblem, ?_, ?_, htree⟩
  · rw [hsame]
    exact hstart
  · rw [hsame, String.toList_append, Text.byteLength_append, ← hstart, List.head_cons, ← htext]
    rfl

/-- Closing brackets between two statements. -/
theorem parse_interrupted_closers :
    ∃ p q, parse .default "a;" = .ok (.ok p) ∧ p.diagnostics = [] ∧
      (∀ label ∈ (sourceLabels "a;").getLast?, label.1 = .semiColon) ∧
      ([⟨.rParen, ")", 0, .origin⟩, ⟨.rCurly, "\x7d", 0, .origin⟩] : List Token) ≠ [] ∧
      (∀ t ∈ ([⟨.rParen, ")", 0, .origin⟩, ⟨.rCurly, "\x7d", 0, .origin⟩] : List Token),
        t.IsWord) ∧
      parse .default "b" = .ok (.ok q) ∧ q.diagnostics = [] ∧
      (∀ e ∈ q.tree.preorder 0, e.kind ≠ .importDecl) ∧
      ∃ r d, parse .default ("a;" ++ "\n" ++ " ".intercalate [")", "\x7d"] ++ " ;" ++ "\n" ++ "b") =
          .ok (.ok r) ∧
        r.diagnostics = [d] ∧ d.problem = .expectedStatement ∧ d.span.start = 3 ∧
        d.span.stop = 4 ∧
        r.tree.significant = .node .program (p.tree.significant.children ++
          [.node .error [.leaf .rParen ")", .leaf .rCurly "\x7d"], .leaf .semiColon ";"] ++
            q.tree.significant.children) := by
  have hparse' : parse .default "b" = .ok (.ok ⟨.node .program [.node .exprStmt
    [.node .nameRef [.leaf .identifier "b"]]], []⟩) := by decide +kernel
  have hwords : ∀ t ∈ ([⟨.rParen, ")", 0, .origin⟩, ⟨.rCurly, "\x7d", 0, .origin⟩] : List Token),
      t.IsWord := by
    unfold Token.IsWord
    decide +kernel
  have himports : ∀ e ∈ (Tree.node .program [.node .exprStmt
    [.node .nameRef [.leaf .identifier "b"]]]).preorder 0, e.kind ≠ .importDecl := by decide
  obtain ⟨r, d, hr, hreports, hproblem, hstart, hstop, htree⟩ := parse_interrupted "a;" "b"
    [⟨.rParen, ")", 0, .origin⟩, ⟨.rCurly, "\x7d", 0, .origin⟩] _ _ parse_nameStmt rfl
    getLast?_nameStmt (by simp) hwords hparse' rfl himports
  exact ⟨_, _, parse_nameStmt, rfl, getLast?_nameStmt, by simp, hwords, hparse', rfl, himports, r,
    d, hr, hreports, hproblem, hstart.trans (by decide +kernel),
    hstop.trans (by decide +kernel), htree⟩

end

end ScriptTree
