import ScriptTree.Proofs.Depth

/-!
# Towers of functions

Functions that are declared in functions are reported, and read all the same, and no level is
entered on the way.  So a tower of functions has a tree as deep as it is high, whatever the limit on
the nesting of rules.

`Script.Goes` runs a script forwards: it says what is ahead and how deep the trees of the frame are
at the end, if both are known at the start (`Scene`).

## Key results

- `parse_tower`: a tower of any height is read without entering a level
- `not_depth_le`: a limit on the nesting of rules does not bound the depth of trees
-/

namespace ScriptTree

/-! ## The tokens of a tower -/

/-- Functions in each other, without names and parameters. -/
def tower : (height : Nat) → List Char
  | 0 => []
  | height + 1 => 'f' :: 'u' :: 'n' :: 'c' :: 't' :: 'i' :: 'o' :: 'n' :: '{' ::
      (tower height ++ ['}'])

/-- The kinds of the tokens of a tower. -/
def towerKinds : (height : Nat) → List Kind
  | 0 => []
  | height + 1 => .kwFunction :: .lCurly :: (towerKinds height ++ [.rCurly])

/-- Each function of a tower has three tokens. -/
private theorem length_towerKinds (height : Nat) : (towerKinds height).length = 3 * height := by
  induction height with
  | zero => rfl
  | succ height ih => simp [towerKinds, ih]; omega

/-- A tower is made of keywords and braces only. -/
private theorem solid_towerKinds {height : Nat} {k : Kind} (h : k ∈ towerKinds height) :
    k = .kwFunction ∨ k = .lCurly ∨ k = .rCurly := by
  induction height with
  | zero => cases h
  | succ height ih => simp [towerKinds] at h; grind

namespace Piece

/-- A tower is scanned into its tokens, whatever follows. -/
private theorem kinds_scan_tower (height : Nat) (cs : List Char) :
    (scan (tower height ++ cs)).map (·.kind) =
      towerKinds height ++ (scan cs).map (·.kind) := by
  induction height generalizing cs with
  | zero => rfl
  | succ height ih =>
    -- Without the brace after it, the keyword might be the start of an identifier.
    have hfunction (cs : List Char) : Pattern.munch Lexicon.entries
        ('f' :: 'u' :: 'n' :: 'c' :: 't' :: 'i' :: 'o' :: 'n' :: '{' :: cs) =
        some (.kwFunction, 8) := by cbv
    have hcurly (cs : List Char) : Pattern.munch Lexicon.entries ('{' :: cs) =
        some (.lCurly, 1) := by cases cs <;> cbv
    have hclose (cs : List Char) : Pattern.munch Lexicon.entries ('}' :: cs) =
        some (.rCurly, 1) := by cases cs <;> cbv
    simp only [tower, List.cons_append, List.append_assoc, List.nil_append]
    rw [scan_of_munch (hfunction _)]
    simp only [List.drop_succ_cons, List.drop_zero, List.map_cons]
    rw [scan_of_munch (hcurly _)]
    simp only [List.drop_zero, List.map_cons]
    rw [ih, scan_of_munch (hclose _)]
    simp [towerKinds]

end Piece

/-- The tokens of a tower have the kinds of one. -/
private theorem kinds_lex_tower (height : Nat) :
    (Token.lex (String.ofList (tower height))).map (·.kind) = towerKinds height := by
  have hkinds : (Piece.scan (tower height)).map (·.kind) = towerKinds height := by
    simpa [Piece.scan] using Piece.kinds_scan_tower height []
  have hsolid : ∀ p ∈ Piece.scan (tower height), p.kind = .kwFunction ∨ p.kind = .lCurly ∨
      p.kind = .rCurly :=
    fun p hp => solid_towerKinds (hkinds ▸ List.mem_map_of_mem hp)
  rw [Token.lex, Piece.kinds_place, Piece.ofText, String.toList_ofList, Piece.gather_eq_self,
    Piece.splitSigns_eq_self, hkinds]
  · intro p hp
    obtain h | h | h := hsolid p hp <;> rw [h] <;> decide
  · intro p hp
    obtain h | h | h := hsolid p hp <;> rw [h] <;> decide

/-! ## Scenes -/

/-- What is known of a state on the way through a tower: the kinds of the tokens ahead, the open
    delimiters, a depth that the trees of the frame reach, and patience that is left. -/
structure Scene where
  ahead : List Kind
  opened : List Delimiter
  depth : Nat
  patience : Nat

namespace State

variable {g : Setting} {s s' : State} {v : Scene}

/-- The state fits the scene, nothing ran out, and spans are in order. -/
structure Fits (g : Setting) (v : Scene) (s : State) : Prop where
  ahead : s.rest.map (·.kind) = v.ahead
  solid : ∀ t ∈ s.rest, t.kind.isSkipped = false
  bounded : ∀ t ∈ s.rest, t.start ≤ g.sourceEnd
  opened : s.delimiters.map (·.1) = v.opened
  within : ∀ x ∈ s.delimiters, x.2.start ≤ g.sourceEnd
  depth : v.depth ≤ Tree.heaviestOf (fun _ => 1) s.frame.toList
  patience : v.patience ≤ s.patience
  running : s.halted = false
  supplied : s.exhausted = none
  unlimited : s.steps = none

/-- There is nothing to skip in a tower. -/
theorem Fits.skip (h : s.Fits g v) : s.skip g = s := by
  unfold State.skip
  cases hrest : s.rest with
  | nil => rw [passAll, ← hrest]
  | cons t ts =>
    have ht : t.kind.isSkipped = false := h.solid t (by rw [hrest]; exact List.mem_cons_self)
    rw [passAll, ht, ← hrest]
    rfl

/-- All tokens of a tower are significant. -/
theorem Fits.significant (h : s.Fits g v) : Token.significant s.rest = s.rest :=
  List.filter_eq_self.mpr fun t ht => by rw [h.solid t ht]; rfl

/-- It does no harm to have less patience in the scene than in the state. -/
theorem Fits.withPatience (h : s.Fits g v) {p q : Nat} (hq : q ≤ p) :
    ({ s with patience := p } : State).Fits g { v with patience := q } :=
  { h with patience := hq }

/-- A lookahead answers what the scene has ahead. -/
theorem Fits.look (h : s.Fits g v) (n : Nat) (hpatience : v.patience ≠ 0) :
    ∃ s', s.look g n = .ok (v.ahead[n]?.getD .error, s') ∧
      s'.Fits g { v with patience := v.patience - 1 } := by
  have hle := h.patience
  refine ⟨_, look_eq_ok_iff.mpr ⟨by omega, ?_, rfl⟩, ?_⟩
  · rw [h.significant, ← h.ahead, List.getElem?_map]
  · rw [h.skip]
    exact h.withPatience (by omega)

/-- Consuming a token takes it from the scene, and restores the patience. -/
theorem Fits.consume (h : s.Fits g v) {t : Token} {ts : List Token} (hrest : s.rest = t :: ts) :
    (s.consume t ts).Fits g { v with ahead := v.ahead.tail, patience := fullPatience } := by
  have hspend : s.spend = s := by simp [spend, h.unlimited]
  have hsub : ∀ u ∈ ts, u ∈ s.rest := fun u hu => by rw [hrest]; exact List.mem_cons_of_mem t hu
  -- The parts that consuming does not touch are those of the state before.
  refine ⟨?_, fun u hu => h.solid u (hsub u hu), fun u hu => h.bounded u (hsub u hu), ?_, ?_, ?_,
    Nat.le_refl _, ?_, ?_, ?_⟩
  · show ts.map _ = v.ahead.tail
    rw [← h.ahead, hrest]
    rfl
  · rw [consume_delimiters]
    exact h.opened
  · rw [consume_delimiters]
    exact h.within
  -- The frame only grows, and its deepest tree with it.
  · refine Nat.le_trans h.depth (Tree.heaviestOf_le_iff.mpr fun u hu => ?_)
    refine Tree.heaviest_le_heaviestOf ?_
    rw [consume_frame]
    simp [hu]
  · rw [consume_halted]
    exact h.running
  · rw [State.consume, hspend]
    exact h.supplied
  · rw [State.consume, hspend]
    exact h.unlimited

/-- A token that the scene has ahead can be consumed. -/
theorem Fits.bump (h : s.Fits g v) {k : Kind} {ks : List Kind} (hahead : v.ahead = k :: ks) :
    ∃ s', s.bump g = .ok s' ∧ s'.Fits g { v with ahead := ks, patience := fullPatience } := by
  cases hrest : s.rest with
  | nil =>
    have hnil := h.ahead
    rw [hrest, hahead] at hnil
    cases hnil
  | cons t ts =>
    have hskip := h.skip
    refine ⟨_, bump_eq_ok_iff.mpr ⟨t, ts, by rw [hskip, hrest], rfl⟩, ?_⟩
    have hconsumed := h.consume hrest
    rw [hahead] at hconsumed
    rw [hskip]
    exact hconsumed

/-- A report changes nothing of the scene. -/
theorem Fits.reportAt (hrecovery : g.recovery = true) (h : s.Fits g v) (o : Nat) (d : Diagnostic) :
    (s.reportAt g o d).Fits g v where
  ahead := by rw [reportAt_rest]; exact h.ahead
  solid := by rw [reportAt_rest]; exact h.solid
  bounded := by rw [reportAt_rest]; exact h.bounded
  opened := by rw [reportAt_delimiters]; exact h.opened
  within := by rw [reportAt_delimiters]; exact h.within
  depth := by rw [reportAt_frame]; exact h.depth
  patience := by rw [reportAt_patience]; exact h.patience
  running := by unfold State.reportAt; split <;> simp [emit, hrecovery, h.running]
  supplied := by rw [reportAt_exhausted]; exact h.supplied
  unlimited := by rw [reportAt_steps]; exact h.unlimited

/-- The current token starts in the source, or at its end. -/
theorem Fits.frontSpan_start_le (h : s.Fits g v) : (s.frontSpan g).start ≤ g.sourceEnd := by
  unfold State.frontSpan
  split
  · exact Nat.le_refl _
  · next t ts hrest => exact h.bounded t (by rw [hrest]; exact List.mem_cons_self)

/-- Complaints are possible everywhere. -/
theorem Fits.complain (hrecovery : g.recovery = true) (h : s.Fits g v) (x : Complaint)
    (hpatience : v.patience ≠ 0) :
    ∃ s', s.complain g x = .ok s' ∧ s'.Fits g { v with patience := v.patience - 1 } := by
  -- The message names the token in front, and to look at that one takes patience.
  have hdescribe : ∃ found s₁, s.describeFront g = .ok (found, s₁) ∧
      s₁.Fits g { v with patience := v.patience - 1 } := by
    unfold describeFront
    rw [h.skip]
    dsimp only
    -- At the end of the source the front has a name of its own and takes no patience.
    split
    · exact ⟨_, s, rfl, { h with patience := Nat.le_trans (Nat.sub_le _ _) h.patience }⟩
    · obtain ⟨s₁, hlook, hs₁⟩ := h.look (g := g) 0 hpatience
      exact ⟨_, s₁, bind_eq_ok_iff.mpr ⟨_, hlook, rfl⟩, hs₁⟩
  obtain ⟨found, s₁, hdescribe, hs₁⟩ := hdescribe
  -- Open delimiters start before the end of the source, so the region is a span.
  have hregion : ∃ region, s₁.region g = some region := by
    unfold region
    split
    · exact ⟨_, rfl⟩
    · next opener outer hopened =>
      have hle := hs₁.within _ (by rw [hopened]; exact List.mem_cons_self)
      exact ⟨⟨opener.start, g.sourceEnd, hle⟩, Span.make?_eq_some_iff.mpr ⟨rfl, rfl⟩⟩
  obtain ⟨region, hregion⟩ := hregion
  have hcomplain : s.complain g x = .ok (s₁.reportAt g (s₁.frontSpan g).start
      ⟨x.problem, s₁.frontSpan g, region, x.problem.message x.detail, x.expected, some found,
        []⟩) := by
    refine bind_eq_ok_iff.mpr ⟨_, hdescribe, ?_⟩
    simp only [hregion]
    rfl
  exact ⟨_, hcomplain, hs₁.reportAt hrecovery _ _⟩

/-- A delimiter can be opened where the scene has a token ahead. -/
theorem Fits.openDelimiter (h : s.Fits g v) (d : Delimiter) {k : Kind} {ks : List Kind}
    (hahead : v.ahead = k :: ks) : ∃ s', s.openDelimiter g d = .ok s' ∧
      s'.Fits g { v with ahead := ks, opened := d :: v.opened, patience := fullPatience } := by
  have hpushed : ({ s with delimiters := (d, s.frontSpan g) :: s.delimiters } : State).Fits g
      { v with opened := d :: v.opened } := by
    refine { h with opened := ?_, within := fun x hx => ?_ }
    · rw [List.map_cons, h.opened]
    · obtain rfl | hx := List.mem_cons.mp hx
      · exact h.frontSpan_start_le
      · exact h.within x hx
  unfold State.openDelimiter
  rw [h.skip]
  exact hpushed.bump hahead

/-- A delimiter can be closed where the scene has its closer ahead. -/
theorem Fits.closeDelimiter (h : s.Fits g v) {d : Delimiter} {ds : List Delimiter}
    {ks : List Kind} (hopened : v.opened = d :: ds) (hahead : v.ahead = d.closer :: ks)
    (hpatience : v.patience ≠ 0) (construct : String) :
    ∃ s', s.closeDelimiter g d construct = .ok s' ∧
      s'.Fits g { v with ahead := ks, opened := ds, patience := fullPatience } := by
  -- There is an open delimiter, since the tower has one.
  cases hdelimiters : s.delimiters with
  | nil =>
    have hnil := h.opened
    rw [hdelimiters, hopened] at hnil
    cases hnil
  | cons x outer =>
    have hsame : x.1 :: outer.map (·.1) = d :: ds := by
      rw [← hopened, ← h.opened, hdelimiters, List.map_cons]
    -- The innermost delimiter is the one to close, so the check that they pair up passes.
    obtain ⟨rfl, rfl⟩ := List.cons.inj hsame
    have htail : ({ s with delimiters := s.delimiters.tail } : State).Fits g
        { v with opened := outer.map (·.1) } := by
      refine { h with opened := by rw [hdelimiters]; rfl, within := fun y hy => h.within y ?_ }
      exact List.mem_of_mem_tail hy
    -- The closer is looked for and consumed.
    obtain ⟨s₁, hlook, hs₁⟩ := htail.look (g := g) 0 hpatience
    rw [hahead] at hlook
    obtain ⟨s₂, hbump, hs₂⟩ := hs₁.bump (g := g) hahead
    refine ⟨s₂, ?_, hs₂⟩
    have heat : ({ s with delimiters := s.delimiters.tail } : State).eat g x.1.closer =
        .ok (true, s₂) := eat_eq_ok_iff.mpr ⟨_, s₁, hlook, .inl ⟨rfl, rfl, hbump⟩⟩
    have hpaired : s.delimiters.head?.any (·.1 ≠ x.1) = false := by simp [hdelimiters]
    exact closeDelimiter_eq_ok_iff.mpr ⟨hpaired, true, s₂, heat, .inl ⟨rfl, rfl⟩⟩

end State

/-! ## Scripts -/

/-- From any state that fits the one scene, the script leads to a state that fits the other. -/
def Script.Goes (g : Setting) (rules : Rule → State → Reply) (script : Script) (v w : Scene) :
    Prop := ∀ s : State, s.Fits g v → ∃ a s', script.run g rules s = .ok (a, s') ∧ s'.Fits g w

/-- The same for a rule. -/
def Rule.Goes (g : Setting) (rules : Rule → State → Reply) (rule : Rule) (v w : Scene) : Prop :=
  ∀ s : State, s.Fits g v → ∃ a s', rules rule s = .ok (a, s') ∧ s'.Fits g w

namespace Fragment

/-- The same for a fragment, which passes the value `a` on. -/
def Goes {α : Type} (g : Setting) (rules : Rule → State → Reply) (m : Fragment α) (v : Scene)
    (a : α) (w : Scene) : Prop :=
  ∀ next u, (next a).Goes g rules w u → (m next).Goes g rules v u

variable {α β : Type} {g : Setting} {rules : Rule → State → Reply} {m : Fragment α}
  {u v w : Scene} {a : α} {b : β} {ks ks' : List Kind} {ds : List Delimiter} {d d' p p' : Nat}
  {j k : Kind}

/-- A fragment that does nothing stays where it is. -/
private theorem goes_pure (a : α) : (pure a : Fragment α).Goes g rules v a v :=
  fun _ _ hnext => hnext

/-- A fragment goes on where the one before it went. -/
theorem Goes.bind {f : α → Fragment β} (h : m.Goes g rules v a w)
    (hf : (f a).Goes g rules w b u) : (m >>= f).Goes g rules v b u :=
  fun next _ hnext => h _ _ (hf next _ hnext)

/-- A script goes on where the fragment before it went. -/
private theorem Goes.bind_script {f : α → Fragment Bool} (h : m.Goes g rules v a w)
    (hf : (f a).script.Goes g rules w u) : (m >>= f).script.Goes g rules v u := h _ _ hf

/-- A fragment goes where the script goes that it makes. -/
theorem Goes.unit {m : Fragment Unit} (h : m.Goes g rules v () w) : m.unit.Goes g rules v w :=
  h _ _ fun s hs => ⟨true, s, rfl, hs⟩

/-- A lookahead takes one from the patience. -/
private theorem goes_ahead (n : Nat) :
    (ahead n).Goes g rules ⟨ks, ds, d, p + 1⟩ (ks[n]?.getD .error) ⟨ks, ds, d, p⟩ := by
  intro next u hnext s hs
  obtain ⟨s₁, hlook, hs₁⟩ := hs.look (g := g) n (Nat.succ_ne_zero p)
  obtain ⟨a, s', hrun, hs'⟩ := hnext s₁ hs₁
  exact ⟨a, s', Script.run_look_eq_ok_iff.mpr ⟨_, s₁, hlook, hrun⟩, hs'⟩

/-- A test takes one from the patience. -/
private theorem goes_isAt (k : Kind) : (isAt k).Goes g rules ⟨ks, ds, d, p + 1⟩
    (ks[0]?.getD .error == k) ⟨ks, ds, d, p⟩ := (goes_ahead 0).bind (goes_pure _)

/-- A parse that has not been cut short stops at the end of the tokens. -/
private theorem goes_stopped : stopped.Goes g rules ⟨ks, ds, d, p⟩ ks.isEmpty ⟨ks, ds, d, p⟩ := by
  intro next u hnext s hs
  have hstopped : (s.skip g).isStopped = ks.isEmpty := by
    rw [hs.skip, State.isStopped, hs.supplied, hs.running]
    have hahead : s.rest.map (·.kind) = ks := hs.ahead
    simp [← hahead]
  obtain ⟨a, s', hrun, hs'⟩ := hnext s hs
  refine ⟨a, s', ?_, hs'⟩
  show (next (s.skip g).isStopped).run g rules (s.skip g) = _
  rw [hstopped, hs.skip]
  exact hrun

/-- A token is consumed, and the patience restored. -/
private theorem goes_bump : bump.Goes g rules ⟨k :: ks, ds, d, p⟩ () ⟨ks, ds, d, fullPatience⟩ := by
  intro next u hnext s hs
  obtain ⟨s₁, hbump, hs₁⟩ := hs.bump (g := g) rfl
  obtain ⟨a, s', hrun, hs'⟩ := hnext s₁ hs₁
  exact ⟨a, s', Script.run_bump_eq_ok_iff.mpr ⟨s₁, hbump, hrun⟩, hs'⟩

/-- Flushing changes nothing of the scene. -/
private theorem goes_flush : flush.Goes g rules v () v := by
  intro next u hnext s hs
  have hdrained : s.drain.Fits g v := by
    refine { hs with depth := Nat.le_trans hs.depth (Tree.heaviestOf_le_iff.mpr fun t ht => ?_) }
    refine Tree.heaviest_le_heaviestOf ?_
    simp only [State.drain, Array.toList_append, List.mem_append]
    exact .inl ht
  obtain ⟨a, s', hrun, hs'⟩ := hnext _ hdrained
  refine ⟨a, s', ?_, hs'⟩
  show (next ()).run g rules (s.skip g).drain = _
  rw [hs.skip]
  exact hrun

/-- A rule is entered at its first token. -/
private theorem goes_entered :
    (entered k).Goes g rules ⟨k :: ks, ds, d, p + 1⟩ () ⟨k :: ks, ds, d, p⟩ := by
  intro next u hnext s hs
  obtain ⟨s₁, hlook, hs₁⟩ := hs.look (g := g) 0 (Nat.succ_ne_zero p)
  obtain ⟨a, s', hrun, hs'⟩ := hnext s₁ hs₁
  refine ⟨a, s', Script.run_look_eq_ok_iff.mpr ⟨k, s₁, hlook, ?_⟩, hs'⟩
  rw [if_pos rfl]
  exact hrun

/-- A complaint takes one lookahead, and the parse goes on. -/
private theorem goes_complain (hrecovery : g.recovery = true) {problem : Problem}
    {detail expected : Option String} :
    (complain problem detail expected).Goes g rules ⟨ks, ds, d, p + 1⟩ () ⟨ks, ds, d, p⟩ := by
  intro next u hnext s hs
  obtain ⟨s₁, hcomplain, hs₁⟩ := hs.complain hrecovery ⟨problem, detail, expected⟩
    (Nat.succ_ne_zero p)
  obtain ⟨a, s', hrun, hs'⟩ := hnext s₁ hs₁
  exact ⟨a, s', Script.run_complain_eq_ok_iff.mpr ⟨s₁, hcomplain, hrun⟩, hs'⟩

/-- A token that is not there. -/
private theorem goes_eat (hk : ks[0]?.getD .error ≠ k) :
    (eat k).Goes g rules ⟨ks, ds, d, p + 1⟩ false ⟨ks, ds, d, p⟩ := by
  refine (goes_isAt k).bind ?_
  rw [beq_false_of_ne hk]
  exact goes_pure false

/-- A token that is missing is complained about, and the parse goes on. -/
private theorem goes_require (hrecovery : g.recovery = true) {what : String}
    (hk : ks[0]?.getD .error ≠ k) :
    (require k what).Goes g rules ⟨ks, ds, d, p + 2⟩ () ⟨ks, ds, d, p⟩ :=
  ((goes_eat hk).bind ((goes_complain hrecovery).bind (goes_pure false))).bind (goes_pure ())

/-- A name that is missing is complained about, and the parse goes on. -/
private theorem goes_identifier (hrecovery : g.recovery = true) {what : String}
    (hk : ks[0]?.getD .error ≠ Kind.identifier) :
    (identifier what).Goes g rules ⟨ks, ds, d, p + 2⟩ () ⟨ks, ds, d, p⟩ :=
  (goes_eat hk).bind (goes_complain hrecovery)

/-- A node is deeper than what it is made of. -/
private theorem goes_node {m : Fragment Unit}
    (h : m.unit.Goes g rules ⟨ks, ds, 0, p⟩ ⟨ks', ds, d', p'⟩) :
    (node k m).Goes g rules ⟨ks, ds, d, p⟩ () ⟨ks', ds, d' + 1, p'⟩ := by
  intro next u hnext s hs
  obtain ⟨a₁, s₁, hbody, hs₁⟩ := h { s.drain with frame := #[] }
    { hs with depth := Nat.zero_le _ }
  have hpushed : State.Fits g ⟨ks', ds, d' + 1, p'⟩
      { s₁ with frame := s.drain.frame.push (.node k s₁.frame.toList) } := by
    refine { hs₁ with depth := ?_ }
    have hnode : Tree.node k s₁.frame.toList ∈
        (s.drain.frame.push (.node k s₁.frame.toList)).toList := by simp
    refine Nat.le_trans ?_ (Tree.heaviest_le_heaviestOf hnode)
    have hdepth : d' ≤ Tree.heaviestOf (fun _ => 1) s₁.frame.toList := hs₁.depth
    rw [Tree.heaviest, Nat.add_comm 1]
    exact Nat.add_le_add_right hdepth 1
  obtain ⟨a, s', hrun, hs'⟩ := hnext _ hpushed
  exact ⟨a, s', Script.run_node_eq_ok_iff.mpr ⟨a₁, s₁, hbody, hrun⟩, hs'⟩

/-- The delimiter is open inside and closed behind, with its closer ahead. -/
private theorem goes_enclosed {delimiter : Delimiter} {construct : String} {m : Fragment Unit}
    (h : m.unit.Goes g rules ⟨ks, delimiter :: ds, d, fullPatience⟩
      ⟨delimiter.closer :: ks', delimiter :: ds, d', p' + 1⟩) :
    (enclosed delimiter construct m).Goes g rules ⟨k :: ks, ds, d, p⟩ ()
      ⟨ks', ds, d', fullPatience⟩ := by
  intro next u hnext s hs
  obtain ⟨s₁, hopen, hs₁⟩ := hs.openDelimiter (g := g) delimiter rfl
  obtain ⟨a₂, s₂, hbody, hs₂⟩ := h s₁ hs₁
  obtain ⟨s₃, hclose, hs₃⟩ := hs₂.closeDelimiter (g := g) rfl rfl (Nat.succ_ne_zero p') construct
  obtain ⟨a, s', hrun, hs'⟩ := hnext s₃ hs₃
  exact ⟨a, s', Script.run_enclosed_eq_ok_iff.mpr ⟨s₁, a₂, s₂, s₃, s₃, hopen, hbody, hclose, rfl,
    hrun⟩, hs'⟩

/-- A rule goes where it is known to go. -/
private theorem goes_call {rule : Rule} (h : rule.Goes g rules v w) :
    (call rule).Goes g rules v () w := by
  intro next u hnext s hs
  obtain ⟨a₁, s₁, hcall, hs₁⟩ := h s hs
  obtain ⟨a, s', hrun, hs'⟩ := hnext s₁ hs₁
  exact ⟨a, s', Script.run_call_eq_ok_iff.mpr ⟨a₁, s₁, hcall, hrun⟩, hs'⟩

/-- A rule goes where it is known to go. -/
private theorem goes_ask {rule : Rule} (h : rule.Goes g rules v w) :
    (ask rule).script.Goes g rules v w := by
  intro s hs
  obtain ⟨a₁, s₁, hcall, hs₁⟩ := h s hs
  exact ⟨a₁, s₁, Script.run_call_eq_ok_iff.mpr ⟨a₁, s₁, hcall, rfl⟩, hs₁⟩

end Fragment

/-! ## Rules -/

section

open Fragment Grammar

variable {g : Setting} {ks : List Kind} {ds : List Delimiter} {d p q budget : Nat}

/-- The statements of a block end at its brace. -/
private theorem Rule.goes_statements_end (seen : Bool) :
    (Rule.statements seen).Goes g (Rule.run g (budget + 1)) ⟨.rCurly :: ks, ds, d, p + 1⟩
      ⟨.rCurly :: ks, ds, d, p⟩ := by
  have hgoes : (Grammar.statements seen).script.Goes g (Rule.run g budget)
      ⟨.rCurly :: ks, ds, d, p + 1⟩ ⟨.rCurly :: ks, ds, d, p⟩ :=
    goes_stopped.bind_script ((goes_ahead 0).bind_script fun s hs => ⟨seen, s, rfl, hs⟩)
  exact hgoes

/-- A function in a block is reported, and then read. -/
private theorem Rule.goes_statements_fnDecl (hrecovery : g.recovery = true) {d' : Nat}
    {ks' : List Kind}
    (h : Rule.fnDecl.Goes g (Rule.run g (budget + 1)) ⟨.kwFunction :: ks, ds, d, q⟩
      ⟨.rCurly :: ks', ds, d', p + 1⟩) (seen : Bool) :
    (Rule.statements seen).Goes g (Rule.run g (budget + 2)) ⟨.kwFunction :: ks, ds, d, q + 2⟩
      ⟨.rCurly :: ks', ds, d', p⟩ := by
  have hgoes : (Grammar.statements seen).script.Goes g (Rule.run g (budget + 1))
      ⟨.kwFunction :: ks, ds, d, q + 2⟩ ⟨.rCurly :: ks', ds, d', p⟩ :=
    goes_stopped.bind_script ((goes_ahead 0).bind_script ((goes_complain hrecovery).bind_script
      ((goes_call h).bind_script (goes_ask (Rule.goes_statements_end true)))))
  exact hgoes

/-- A function without a name and parameters is as deep as its body, and two nodes more. -/
private theorem Rule.goes_fnDecl (hrecovery : g.recovery = true) {d' : Nat} {ks' : List Kind}
    (h : (Rule.statements false).Goes g (Rule.run g (budget + 1))
      ⟨ks, .curly :: ds, 0, fullPatience⟩ ⟨.rCurly :: ks', .curly :: ds, d', p + 1⟩) :
    Rule.fnDecl.Goes g (Rule.run g (budget + 4)) ⟨.kwFunction :: .lCurly :: ks, ds, d, q + 1⟩
      ⟨ks', ds, d' + 2, fullPatience⟩ := by
  -- Patience is full after the keyword, and dwindles as the missing parts are complained about.
  have hbody : Rule.body.Goes g (Rule.run g (budget + 2)) ⟨.lCurly :: ks, ds, 0, 250⟩
      ⟨ks', ds, d' + 1, fullPatience⟩ := by
    have hgoes : Grammar.body.unit.Goes g (Rule.run g (budget + 1)) ⟨.lCurly :: ks, ds, 0, 250⟩
        ⟨ks', ds, d' + 1, fullPatience⟩ :=
      (goes_node ((goes_isAt .lCurly).bind (goes_enclosed (goes_call h).unit)).unit).unit
    exact hgoes
  -- The tail goes on with its body when the parameters are missing.
  have htail : Rule.fnTail.Goes g (Rule.run g (budget + 3)) ⟨.lCurly :: ks, ds, 0, 254⟩
      ⟨ks', ds, d' + 1, fullPatience⟩ := by
    have hgoes : Grammar.fnTail.unit.Goes g (Rule.run g (budget + 2)) ⟨.lCurly :: ks, ds, 0, 254⟩
        ⟨ks', ds, d' + 1, fullPatience⟩ :=
      ((goes_isAt .lParen).bind ((goes_require hrecovery (by simp)).bind
        ((goes_eat (by simp)).bind (goes_call hbody)))).unit
    exact hgoes
  have hgoes : Grammar.fnDecl.unit.Goes g (Rule.run g (budget + 3))
      ⟨.kwFunction :: .lCurly :: ks, ds, d, q + 1⟩ ⟨ks', ds, d' + 2, fullPatience⟩ :=
    (goes_entered.bind (goes_node (goes_bump.bind ((goes_identifier hrecovery (by simp)).bind
      (goes_call htail))).unit)).unit
  exact hgoes

/-- A tower of functions is read. -/
private theorem Rule.goes_tower (hrecovery : g.recovery = true) (height : Nat)
    (hbudget : 4 * height + 5 ≤ budget) :
    Rule.fnDecl.Goes g (Rule.run g budget) ⟨towerKinds (height + 1) ++ ks, ds, d, q + 1⟩
      ⟨ks, ds, 2 * (height + 1), fullPatience⟩ := by
  obtain ⟨b, rfl⟩ := Nat.exists_eq_add_of_le' (Nat.le_of_add_left_le hbudget)
  -- The inner tower is a function in the body of the outermost one.
  induction height generalizing b ks ds d q with
  | zero => exact Rule.goes_fnDecl hrecovery (Rule.goes_statements_end false)
  | succ height ih =>
    obtain ⟨c, rfl⟩ := Nat.exists_eq_add_of_le' (show 4 ≤ b by omega)
    have hinner : Rule.fnDecl.Goes g (Rule.run g (c + 5))
        ⟨towerKinds (height + 1) ++ (.rCurly :: ks), .curly :: ds, 0, 253 + 1⟩
        ⟨.rCurly :: ks, .curly :: ds, 2 * (height + 1), fullPatience⟩ := ih c (by omega)
    have hkinds : towerKinds (height + 1 + 1) ++ ks =
        .kwFunction :: .lCurly :: (towerKinds (height + 1) ++ (.rCurly :: ks)) := by
      simp [towerKinds]
    rw [hkinds]
    exact Rule.goes_fnDecl hrecovery (Rule.goes_statements_fnDecl hrecovery hinner false)

/-- So is a source that is a tower. -/
private theorem Rule.goes_program (hrecovery : g.recovery = true) (height : Nat)
    (hbudget : 4 * height + 8 ≤ budget) :
    Rule.program.Goes g (Rule.run g budget) ⟨towerKinds (height + 1), [], 0, fullPatience⟩
      ⟨[], [], 2 * (height + 1), 255⟩ := by
  obtain ⟨b, rfl⟩ := Nat.exists_eq_add_of_le' (show 4 ≤ budget by omega)
  -- No token of a tower is an import, so the imports end where they begin.
  have himports : Rule.imports.Goes g (Rule.run g (b + 3))
      ⟨towerKinds (height + 1), [], 0, fullPatience⟩
      ⟨towerKinds (height + 1), [], 0, 255⟩ := by
    have hgoes : Grammar.imports.unit.Goes g (Rule.run g (b + 2))
        ⟨towerKinds (height + 1), [], 0, fullPatience⟩
        ⟨towerKinds (height + 1), [], 0, 255⟩ :=
      (goes_stopped.bind ((goes_isAt .kwImport).bind (goes_pure ()))).unit
    exact hgoes
  -- The first token is a function, which takes the tower.
  have hitem : Rule.item.Goes g (Rule.run g (b + 2)) ⟨towerKinds (height + 1), [], 0, 254⟩
      ⟨[], [], 2 * (height + 1), fullPatience⟩ := by
    have htower : Rule.fnDecl.Goes g (Rule.run g (b + 1))
        ⟨towerKinds (height + 1) ++ [], [], 0, 252 + 1⟩
        ⟨[], [], 2 * (height + 1), fullPatience⟩ := Rule.goes_tower hrecovery height (by omega)
    rw [List.append_nil] at htower
    have hgoes : Grammar.item.unit.Goes g (Rule.run g (b + 1))
        ⟨towerKinds (height + 1), [], 0, 254⟩ ⟨[], [], 2 * (height + 1), fullPatience⟩ :=
      ((goes_ahead 0).bind (goes_call htower)).unit
    exact hgoes
  -- After the tower the source is at its end, where the items stop too.
  have hend : Rule.items.Goes g (Rule.run g (b + 2)) ⟨[], [], 2 * (height + 1), 255⟩
      ⟨[], [], 2 * (height + 1), 255⟩ := by
    have hgoes : Grammar.items.unit.Goes g (Rule.run g (b + 1)) ⟨[], [], 2 * (height + 1), 255⟩
        ⟨[], [], 2 * (height + 1), 255⟩ := (goes_stopped.bind (goes_pure ())).unit
    exact hgoes
  -- The items are the tower, no semicolon behind it, and the end.
  have hitems : Rule.items.Goes g (Rule.run g (b + 3)) ⟨towerKinds (height + 1), [], 0, 255⟩
      ⟨[], [], 2 * (height + 1), 255⟩ := by
    have hsemicolon : (optionally .semiColon).Goes g (Rule.run g (b + 2))
        ⟨[], [], 2 * (height + 1), 255 + 1⟩ () ⟨[], [], 2 * (height + 1), 255⟩ :=
      (goes_eat (by simp)).bind (goes_pure ())
    have hgoes : Grammar.items.unit.Goes g (Rule.run g (b + 2))
        ⟨towerKinds (height + 1), [], 0, 255⟩ ⟨[], [], 2 * (height + 1), 255⟩ :=
      (goes_stopped.bind ((goes_isAt .semiColon).bind ((goes_call hitem).bind
        (hsemicolon.bind (goes_call hend))))).unit
    exact hgoes
  have hgoes : Grammar.program.unit.Goes g (Rule.run g (b + 3))
      ⟨towerKinds (height + 1), [], 0, fullPatience⟩ ⟨[], [], 2 * (height + 1), 255⟩ :=
    ((goes_call himports).bind ((goes_call hitems).bind goes_flush)).unit
  exact hgoes

end

/-- Tokens of the kinds of a tower are read to the end, without entering a level. -/
theorem parseLexed_tower {source : String} {tokens : List Token} {height : Nat}
    (depthLimit : Option Nat) (hkinds : tokens.map (·.kind) = towerKinds (height + 1))
    (hspelling : Token.spelling tokens = source)
    (hbounded : ∀ t ∈ tokens, t.start < Text.byteLength source.toList) :
    ∃ p, parseLexed ⟨true, none, depthLimit⟩ source tokens = .ok (.ok p) ∧
      height < p.tree.depth := by
  have hsolid : ∀ t ∈ tokens, t.kind.isSkipped = false := by
    intro t ht
    obtain h | h | h := solid_towerKinds (hkinds ▸ List.mem_map_of_mem ht) <;> rw [h] <;> rfl
  have hall : Token.significant tokens = tokens :=
    List.filter_eq_self.mpr fun t ht => by rw [hsolid t ht]; rfl
  -- Four calls for each function, where the budget allows for more with each token.
  have hbudget : 4 * height + 8 ≤ callBudget tokens := by
    have hlength := congrArg List.length hkinds
    rw [List.length_map, length_towerKinds] at hlength
    rw [callBudget, hall, hlength]
    omega
  have hinitial : (State.initial tokens none).Fits
      ⟨Text.byteLength source.toList, true, depthLimit⟩
      ⟨towerKinds (height + 1), [], 0, fullPatience⟩ :=
    ⟨hkinds, hsolid, fun t ht => Nat.le_of_lt (hbounded t ht), rfl, by simp [State.initial],
      Nat.zero_le _, Nat.le_refl _, rfl, rfl, rfl⟩
  obtain ⟨a, s, hrun, hs⟩ := Rule.goes_program rfl height hbudget _ hinitial
  -- The tree spells out the source, so the check at the end passes.
  have htext : (Tree.node .program s.frame.toList).text = source := by
    rw [Rule.run_program_text hrun hs.supplied hs.running, hspelling]
  have hfinish : s.finish source =
      .ok (.ok ⟨.node .program s.frame.toList, s.diagnostics.toList⟩) := by
    simp [State.finish, hs.supplied, hs.running, htext]
  refine ⟨_, parseLexed_eq_ok_iff.mpr ⟨a, s, hrun, hfinish⟩, ?_⟩
  -- Each function puts two levels on top of the next one.
  have hdepth : 2 * (height + 1) ≤ Tree.heaviestOf (fun _ => 1) s.frame.toList := hs.depth
  rw [Tree.depth, Tree.heaviest]
  omega

/-- A tower of functions has a tree as deep as it is high, even if no level may be entered. -/
theorem parse_tower (height : Nat) (depthLimit : Option Nat) :
    ∃ p, parse ⟨true, none, depthLimit⟩ (String.ofList (tower (height + 1))) = .ok (.ok p) ∧
      height < p.tree.depth :=
  parseLexed_tower depthLimit (kinds_lex_tower (height + 1)) (Token.spelling_lex _)
    (Token.lex_sorted _).2

/-- So no limit on the nesting of rules bounds the depth of a tree by itself. -/
theorem not_depth_le : ¬ ∃ c, ∀ source n p, parse ⟨true, none, some n⟩ source = .ok (.ok p) →
    p.tree.depth ≤ c * (n + 1) := by
  rintro ⟨c, h⟩
  obtain ⟨p, hparse, hdepth⟩ := parse_tower c (some 0)
  have hle := h _ 0 p hparse
  omega

end ScriptTree
