import Mathlib
import ScriptTree.Proofs.Restoration
import ScriptTree.Proofs.Yield

/-!
# The tree spells out the source

Rules keep the yield (`Rule.run_yield`), and a parse ends with all of it placed: the list of items
ends only where the input ends, and the tokens that are pending then are placed at once.  So the
leaves of the tree are the tokens of the source, from left to right.

## Key results

- `Rule.run_items_isStopped`: a list of items ends at the end of the input, or of the parse
- `parseLexed_leaves`: the leaves of a tree are the tokens it was made of
-/

namespace ScriptTree

variable {g : Setting}

/-- The list of items, step by step. -/
theorem Rule.script_items : Rule.items.script =
    .stopped fun b =>
      if b = true then .done true
      else .look 0 fun k =>
        if (k == .semiColon) = true then
          .remark .redundantSemicolon (.bump (.call .items fun _ => .done true))
        else .call .item fun _ => .look 0 fun k =>
          if (k == .semiColon) = true then .bump (.call .items fun _ => .done true)
          else .call .items fun _ => .done true := by
  simp only [Rule.script, Grammar.items, Fragment.unit, Fragment.stopped, Fragment.isAt,
    Fragment.current, Fragment.ahead, Fragment.remark, Fragment.bump, Fragment.call,
    Fragment.optionally, Fragment.eat, Fragment.bind_apply, Fragment.pure_apply,
    Fragment.ite_apply]

/-- A list of items ends where there is nothing more to read, or where the parse came to an end
    otherwise. -/
theorem Rule.run_items_isStopped {budget : Nat} {s s' : State} {a : Bool}
    (h : Rule.items.run g budget s = .ok (a, s')) : s'.isStopped = true := by
  induction budget generalizing s a with
  | zero => cases h
  | succ budget ih =>
    -- Every turn of the loop ends with a call of the same rule.
    have hitems : ∀ s, (Script.call .items fun _ => .done true).run g (Rule.run g budget) s =
        .ok (a, s') → s'.isStopped = true := by
      intro s h
      obtain ⟨b, s₁, hitems, h⟩ := Script.run_call_eq_ok_iff.mp h
      cases h
      exact ih hitems
    -- The items end where the parse is stopped, and go on otherwise.
    rw [Rule.run, Rule.script_items, Script.run] at h
    split at h
    case isTrue hstopped =>
      cases h
      exact hstopped
    case isFalse =>
      obtain ⟨k, s₁, -, h⟩ := Script.run_look_eq_ok_iff.mp h
      split at h
      -- A semicolon, and the next turn.
      · rw [Script.run] at h
        obtain ⟨s₂, -, h⟩ := Script.run_bump_eq_ok_iff.mp h
        exact hitems s₂ h
      -- An item, a look, and a semicolon or none.
      · obtain ⟨b, s₂, -, h⟩ := Script.run_call_eq_ok_iff.mp h
        obtain ⟨k, s₃, -, h⟩ := Script.run_look_eq_ok_iff.mp h
        split at h
        · obtain ⟨s₄, -, h⟩ := Script.run_bump_eq_ok_iff.mp h
          exact hitems s₄ h
        · exact hitems s₃ h

/-- The program, step by step. -/
theorem Rule.script_program : Rule.program.script =
    .call .imports fun _ => .call .items fun _ => .flush (.done true) := by
  simp only [Rule.script, Grammar.program, Fragment.unit, Fragment.call, Fragment.flush,
    Fragment.bind_apply]

/-- A parse that neither ran out of a resource nor was halted has read everything. -/
theorem Rule.run_program_rest {budget : Nat} {s s' : State} {a : Bool}
    (h : Rule.program.run g budget s = .ok (a, s')) (hexhausted : s'.exhausted = none)
    (hhalted : s'.halted = false) : s'.rest = [] ∧ s'.pending = [] := by
  cases budget with
  | zero => cases h
  | succ budget =>
    rw [Rule.run, Rule.script_program] at h
    obtain ⟨b, s₁, -, h⟩ := Script.run_call_eq_ok_iff.mp h
    obtain ⟨c, s₂, hitems, h⟩ := Script.run_call_eq_ok_iff.mp h
    have hstopped := Rule.run_items_isStopped hitems
    cases h
    have hhalted₂ : s₂.halted = false := by
      rw [State.drain, State.skip_eq] at hhalted
      exact (Bool.or_eq_false_iff.mp hhalted).1
    have hexhausted₂ : s₂.exhausted = none := by
      rw [← hexhausted]
      exact State.skip_exhausted.symm
    have hrest : s₂.rest = [] := by simpa [State.isStopped, hexhausted₂, hhalted₂] using hstopped
    simp [State.drain, State.skip_rest, hrest]

/-- A parse that neither ran out of a resource nor was halted has placed everything. -/
theorem Rule.run_program_leaves {budget : Nat} {s s' : State} {a : Bool}
    (h : Rule.program.run g budget s = .ok (a, s')) (hexhausted : s'.exhausted = none)
    (hhalted : s'.halted = false) : Tree.leavesOf s'.frame.toList = s.yield := by
  have hyield : s'.yield = s.yield := Rule.run_yield h
  obtain ⟨hrest, hpending⟩ := Rule.run_program_rest h hexhausted hhalted
  rw [← hyield]
  simp [State.yield, hrest, hpending]

/-- The leaves of a tree are the tokens that it was made of, in order. -/
theorem parseLexed_leaves {o : Options} {source : String} {tokens : List Token} {p : Parsed}
    (h : parseLexed o source tokens = .ok (.ok p)) :
    (∃ children, p.tree = .node .program children) ∧ p.tree.leaves = tokens.map Token.label := by
  rw [parseLexed] at h
  obtain ⟨⟨a, s⟩, hrun, h⟩ := bind_eq_ok_iff.mp h
  dsimp only at h
  -- A parse with a tree was neither exhausted nor halted.
  unfold State.finish at h
  split at h
  · cases h
  · next hexhausted =>
    split at h
    · cases h
    · next hhalted =>
      dsimp only at h
      split at h
      · cases h
        refine ⟨⟨_, rfl⟩, ?_⟩
        rw [Tree.leaves_node, Rule.run_program_leaves hrun hexhausted (by simpa using hhalted)]
        simp [State.yield, State.initial]
      · cases h

/-- A tree whose leaves are the tokens of a text spells out the text. -/
theorem Tree.text_eq_spelling {t : Tree} {tokens : List Token}
    (h : t.leaves = tokens.map Token.label) : t.text = Token.spelling tokens := by
  rw [Tree.text, h, Token.spelling, List.map_map]
  rfl

/-- So a parse that comes to its end has spelled out the text of its tokens. -/
theorem Rule.run_program_text {budget : Nat} {tokens : List Token} {steps : Option Nat} {s : State}
    {a : Bool} (h : Rule.program.run g budget (.initial tokens steps) = .ok (a, s))
    (hexhausted : s.exhausted = none) (hhalted : s.halted = false) :
    (Tree.node .program s.frame.toList).text = Token.spelling tokens := by
  refine Tree.text_eq_spelling ?_
  rw [Tree.leaves_node, Rule.run_program_leaves h hexhausted hhalted]
  simp [State.yield, State.initial]

/-- The tree of a source spells it out token by token, whatever the options and whether the parse
    starts from the source or from tokens that were read before. -/
theorem parse_leaves (o : Options) (source : String) (marks : List Mark)
    (hfit : Mark.Fit source.toList marks) :
    (∀ p, parse o source = .ok (.ok p) →
      (∃ children, p.tree = .node .program children) ∧
        p.tree.leaves = (Token.lex source).map Token.label ∧ p.tree.text = source) ∧
    ∃ tokens, Token.restore source marks = .ok tokens ∧
      Token.spelling tokens = source ∧ marks.Sublist (tokens.map Token.mark) ∧
      ∀ p, parseTokens o source marks = .ok (.ok p) →
        (∃ children, p.tree = .node .program children) ∧
          p.tree.leaves = tokens.map Token.label ∧ p.tree.text = source := by
  constructor
  -- Tokens that were read from the source.
  · intro p h
    obtain ⟨hroot, hleaves⟩ := parseLexed_leaves h
    exact ⟨hroot, hleaves, by rw [Tree.text_eq_spelling hleaves, Token.spelling_lex]⟩
  -- Marks that fit cut the source into pieces, and those are what is restored.
  · have hall : Mark.Fit ([] ++ source.toList) marks := hfit
    obtain ⟨last, given, hsource, rfl⟩ := Mark.exists_marks hall (by simp)
    have hrestore := Token.restore_marks hsource
    have hspelling : Token.spelling (Piece.place 0 .origin (Piece.weave last given)) = source := by
      rw [Piece.spelling_place, ← hsource, String.ofList_toList]
    refine ⟨_, hrestore, hspelling, Piece.marks_sublist_place last given 0 .origin, ?_⟩
    intro p h
    have hparse : parseTokens o source (Piece.marks 0 given) =
        parseLexed o source (Piece.place 0 .origin (Piece.weave last given)) := by
      rw [parseTokens, hrestore]
      rfl
    rw [Text.byteLength_nil, hparse] at h
    obtain ⟨hroot, hleaves⟩ := parseLexed_leaves h
    exact ⟨hroot, hleaves, by rw [Tree.text_eq_spelling hleaves, hspelling]⟩

/-- A parse from tokens, one of them of two bytes and one of a kind that the grammar skips. -/
theorem parse_leaves_marked :
    Mark.Fit "é ;".toList
      [⟨.identifier, ⟨0, 2, by decide⟩⟩, ⟨.whitespace, ⟨2, 3, by decide⟩⟩,
        ⟨.semiColon, ⟨3, 4, by decide⟩⟩] ∧
    ∃ p, parseTokens .default "é ;"
        [⟨.identifier, ⟨0, 2, by decide⟩⟩, ⟨.whitespace, ⟨2, 3, by decide⟩⟩,
          ⟨.semiColon, ⟨3, 4, by decide⟩⟩] = .ok (.ok p) ∧
      p.tree.leaves = [(.identifier, "é"), (.whitespace, " "), (.semiColon, ";")] ∧
      p.tree.text = "é ;" := by
  have hfit : Mark.Fit "é ;".toList
      [⟨.identifier, ⟨0, 2, by decide⟩⟩, ⟨.whitespace, ⟨2, 3, by decide⟩⟩,
        ⟨.semiColon, ⟨3, 4, by decide⟩⟩] := by decide
  have hparse : parseTokens .default "é ;"
      [⟨.identifier, ⟨0, 2, by decide⟩⟩, ⟨.whitespace, ⟨2, 3, by decide⟩⟩,
        ⟨.semiColon, ⟨3, 4, by decide⟩⟩] =
      .ok (.ok ⟨.node .program [.node .exprStmt [.node .nameRef [.leaf .identifier "é"],
        .leaf .whitespace " ", .leaf .semiColon ";"]], []⟩) := by decide +kernel
  obtain ⟨tokens, hrestore, -, -, h⟩ := (parse_leaves .default "é ;" _ hfit).2
  have htokens : Token.restore "é ;"
      [⟨.identifier, ⟨0, 2, by decide⟩⟩, ⟨.whitespace, ⟨2, 3, by decide⟩⟩,
        ⟨.semiColon, ⟨3, 4, by decide⟩⟩] =
      .ok [⟨.identifier, "é", 0, ⟨1, 1⟩⟩, ⟨.whitespace, " ", 2, ⟨1, 2⟩⟩,
        ⟨.semiColon, ";", 3, ⟨1, 3⟩⟩] := by decide +kernel
  -- The theorem speaks of whatever tokens are restored, so these are they.
  rw [htokens] at hrestore
  cases hrestore
  exact ⟨hfit, _, hparse, (h _ hparse).2⟩

end ScriptTree
