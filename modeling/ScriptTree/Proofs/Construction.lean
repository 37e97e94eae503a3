import ScriptTree.Proofs.Balance
import ScriptTree.Proofs.Safety

/-!
# Parses on a builder

`parse` collects the children of each node apart and cannot leave a node open; `parseBuilding` opens
and finishes nodes, levels and delimiters step by step.  Both come to the same end, so nothing that
the steps could get wrong is ever wrong: no node is finished that is not open, no mark is used that
is no longer good, no delimiter is closed by another one's closer, and in the end there is a single
node and none that is open.

## Key results

- `Routine.run_root`: the routine of the whole source builds the node of the program
- `parseBuilding_eq`: a parse on a builder has the outcome of `parse`
- `parseBuilding_ok_or_stalled`: it keeps all promises but one
-/

namespace ScriptTree

/-- Behind no trees a state is as it is. -/
private theorem State.behind_empty (s : State) : s.behind #[] = s := by simp [behind]

/-- What a program leaves in the frame becomes the only node. -/
def Build.ofProgram (s : State) : Build :=
  { s with frame := #[.node .program s.frame.toList], opened := [] }

/-- On an empty builder, the routine of the whole source does what the rule of a program does, puts
    a node around it and leaves no node open. -/
theorem Routine.run_root (g : Setting) (budget : Nat) (tokens : List Token) (steps : Option Nat) :
    Routine.root.run budget g (.initial tokens steps) =
      (fun r => ((), .ofProgram r.2)) <$> Rule.program.run g budget (.initial tokens steps) := by
  cases budget with
  | zero => rfl
  | succ budget =>
    have hwithin : OpenNode.Within (#[] : Array Tree).size [] := by simp [OpenNode.Within]
    -- The builder starts with no node open, and everything it makes is in the root.
    have hbuild := Script.build_behind (g := g) (fun rule s before opened hopened =>
      Rule.build_behind budget rule s before hopened) root.fragment.unit (.initial tokens steps) #[]
      hwithin
    have hrun : root.fragment.unit.run g (Rule.run g budget) (.initial tokens steps) =
        (fun r => (true, { r.2 with frame := #[.node .program r.2.frame.toList] })) <$>
          Rule.program.run g (budget + 1) (.initial tokens steps) := rfl
    have hinside : Reply.inside #[] [] = fun r => (r.1, ⟨r.2, []⟩) := by
      funext r
      rw [Reply.inside, State.behind_empty]
    rw [hrun, hinside, State.behind_empty, Array.size_empty, ← root.run_eq budget 0,
      Action.bind_apply] at hbuild
    -- Both runs fail alike or succeed alike.
    change root.run (budget + 1) g ⟨.initial tokens steps, []⟩ = _
    cases hroot : root.run (budget + 1) g ⟨.initial tokens steps, []⟩ with
    | error fault =>
      cases hprogram : Rule.program.run g (budget + 1) (.initial tokens steps) <;>
        rw [hroot, hprogram] at hbuild <;> cases hbuild
      rfl
    | ok r =>
      obtain ⟨u, b⟩ := r
      cases hprogram : Rule.program.run g (budget + 1) (.initial tokens steps) <;>
        rw [hroot, hprogram] at hbuild <;> cases hbuild
      rfl

/-- The tree of a program is the one that its state amounts to. -/
private theorem Build.outcome_ofProgram (source : String) (s : State) :
    (Build.ofProgram s).outcome source = s.finish source := by
  rw [outcome, State.finish]
  rfl

/-- What a state amounts to is found without looking at a token. -/
private theorem State.finish_ne_stalled (source : String) (s : State) (index : Nat) :
    s.finish source ≠ .error (.stalled index) := by
  unfold finish
  split
  · nofun
  split
  · nofun
  dsimp only
  split <;> nofun

/-- A parse on a builder has the same outcome, whatever the tokens are. -/
theorem parseLexedBuilding_eq (o : Options) (source : String) (tokens : List Token) :
    parseLexedBuilding o source tokens = parseLexed o source tokens := by
  simp only [parseLexedBuilding, parseLexed, Routine.run_root, bind_map_left,
    Build.outcome_ofProgram]

/-- A parse on a builder has the outcome of the parse. -/
theorem parseBuilding_eq (o : Options) (source : String) :
    parseBuilding o source = parse o source := parseLexedBuilding_eq o source _

/-- Whatever the text and the options are, a parse on a builder keeps all of its promises but one:
    patience may run out.  No token is consumed past the end, no rule is entered on a token that
    does not start it, no closer meets an opener that is not its partner, no mark is used that is no
    longer good, no node is finished that is not open, no span runs backwards, and the tree spells
    out the text.  Unless patience runs out, all nodes, levels and delimiters are closed in the end,
    also where a limit was met or an error halted the parse. -/
theorem parseBuilding_ok_or_stalled (o : Options) (source : String) :
    let tokens := Token.lex source
    let g : Setting := ⟨Text.byteLength source.toList, o.recovery, o.depthLimit⟩
    let run := Routine.root.run (callBudget tokens) g (.initial tokens o.stepLimit)
    (∃ b outcome, run = .ok ((), b) ∧ b.opened = [] ∧ b.delimiters = [] ∧ b.depth = 0 ∧
        (∃ children, b.frame = #[.node .program children]) ∧ b.outcome source = .ok outcome ∧
        parseBuilding o source = .ok outcome ∧ parse o source = .ok outcome) ∨
      ∃ index, run = .error (.stalled index) ∧ parseBuilding o source = .error (.stalled index) ∧
        parse o source = .error (.stalled index) := by
  intro tokens g run
  have hparse : parseBuilding o source = run >>= fun r => r.2.outcome source := rfl
  rw [← parseBuilding_eq o source]
  have hended := parse_ok_or_stalled o source
  rw [← parseBuilding_eq o source, hparse] at hended
  -- The run on the builder faults, or it ends.
  cases hrun : run with
  | error fault =>
    rw [hrun] at hparse hended
    obtain ⟨outcome, hok⟩ | ⟨index, hstalled⟩ := hended
    · cases hok
    · cases hstalled
      exact .inr ⟨index, rfl, hparse, hparse⟩
  | ok r =>
    obtain ⟨⟨⟩, b⟩ := r
    rw [hrun] at hparse hended
    -- What was opened is closed again, so the root is all that is left.
    have hbalanced := Routine.root.balanced _ _ _ _ hrun
    have hroot := hrun.symm.trans (Routine.run_root g _ tokens o.stepLimit)
    cases hprogram : Rule.program.run g (callBudget tokens) (.initial tokens o.stepLimit) with
    | error fault =>
      rw [hprogram] at hroot
      cases hroot
    | ok q =>
      rw [hprogram] at hroot
      cases hroot
      obtain ⟨outcome, hok⟩ | ⟨index, hstalled⟩ := hended
      · exact .inl ⟨_, outcome, rfl, rfl, hbalanced.delimiters, hbalanced.depth, ⟨_, rfl⟩, hok,
          hparse.trans hok, hparse.trans hok⟩
      -- A finished tree is not a stalled one.
      · have hfinish : (Build.ofProgram q.2).outcome source = .error (.stalled index) := hstalled
        rw [Build.outcome_ofProgram] at hfinish
        exact absurd hfinish (State.finish_ne_stalled source q.2 index)

end ScriptTree
