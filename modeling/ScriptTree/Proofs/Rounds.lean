import ScriptTree.Proofs.Descent
import ScriptTree.Proofs.Restoration

/-!
# Loops come to an end

A loop of the grammar is a rule that goes on by calling itself (`Rule.Repeats`).  A round that goes
on has consumed a token, or it has found out that the parse is over, and then the next round is the
last one.  So a loop takes no more rounds than there are tokens ahead, and one.

None of this needs tokens that are in order, or kinds that the tokenizer could have found.

## Key results

- `Rule.Repeats.advances`: what a round that goes on has done
- `Rule.Rounds.le`: a bound on the rounds of a loop
- `parseLexed_ok_or_stalled`: whatever tokens spell out the source, a parse ends
- `loops_and_parses_end`: all of this together
-/

namespace ScriptTree

variable {g : Setting}

/-! ## Rounds -/

/-- The rule ends where it starts: it passes over skipped tokens, and calls no other rule. -/
def Rule.EndsAt (g : Setting) (rule : Rule) (s : State) : Prop :=
  ∀ budget, (∃ a, rule.run g (budget + 1) s = .ok (a, s.skip g)) ∧
    rule.calls g (budget + 1) s = []

/-- Between two states a token was consumed, or else the parse is over and the rule that comes next
    ends where it starts. -/
def State.Advances (g : Setting) (s : State) (next : Rule) (s' : State) : Prop :=
  s'.distance < s.distance ∨
    (s'.exhausted ≠ none ∨ s'.halted = true) ∧ next.EndsAt g s'

namespace Rule

variable {rule round next : Rule} {s s' : State} {budget n : Nat}

/-- The loops of the grammar, and the rules that they go on with. -/
inductive Repeats : Rule → Rule → Prop
  | imports : Repeats .imports .imports
  | items : Repeats .items .items
  | members : Repeats .members .members
  | statements (seen seen' : Bool) : Repeats (.statements seen) (.statements seen')
  | elements (form : ListForm) : Repeats (.elements form) (.elements form)
  | accessors (wrapped : Bool) : Repeats (.accessors wrapped) (.accessors true)
  | unionTail : Repeats .unionTail .unionTail
  | typeArgTail : Repeats .typeArgTail .typeArgTail
  | chain : Repeats .chain .chain
  | prefixes (count : Nat) : Repeats (.prefixes count) (.prefixes (count + 1))
  | discard (stops : TokenSet) : Repeats (.discard stops) (.discard stops)
  | skipTo (stops : TokenSet) : Repeats (.skipTo stops) (.skipTo stops)

/-- A round has the rank of the one before. -/
private theorem Repeats.rank_eq (h : round.Repeats next) : next.rank = round.rank := by
  cases h <;> rfl

/-- A loop may be entered anywhere. -/
theorem Repeats.ready (h : round.Repeats next) (tokens : List Token) :
    round.Ready (.onto tokens) := by
  cases h <;> exact ⟨Nat.le_of_ble_eq_true rfl, fun hdemands => by cases hdemands⟩

/-- Rules that end at once when the parse is over ask for that first. -/
private theorem script_of_yields (h : rule.yields = true) :
    ∃ next a, rule.script = .stopped next ∧ next true = .done a := by
  cases rule with
  | items | imports | members | statements seen | elements form => exact ⟨_, _, rfl, rfl⟩
  | _ => cases h

/-- A rule that yields ends where the parse is over. -/
private theorem endsAt_of_yields (h : rule.yields = true)
    (hover : s.exhausted ≠ none ∨ s.halted = true) : rule.EndsAt g s := by
  obtain ⟨next, a, hscript, hnext⟩ := script_of_yields h
  have hstopped : (s.skip g).isStopped = true := by
    obtain hexhausted | hhalted := hover
    · simp [State.isStopped, State.skip_exhausted, Option.isSome_iff_ne_none, hexhausted]
    · simp [State.isStopped, ((State.later_skip g s).silent hhalted).1]
  refine fun budget => ⟨⟨a, ?_⟩, ?_⟩
  · rw [run, hscript, Script.run, hstopped, hnext, Script.run]
  · rw [calls, hscript, Script.calls, hstopped, hnext, Script.calls]

/-- A round that goes on has consumed a token, or the next round ends at once. -/
theorem Repeats.advances (h : round.Repeats next) (hcall : (next, s') ∈ round.calls g budget s) :
    s.Advances g next s' := by
  obtain hlt | ⟨-, hrank | ⟨hyields, hover⟩⟩ := calls_descend (h.ready s.rest) hcall
  · exact .inl hlt
  · -- A loop stays at its rank.
    exact absurd h.rank_eq (Nat.ne_of_lt hrank)
  · exact .inr ⟨hover, endsAt_of_yields hyields hover⟩

/-- A loop goes on for so many rounds. -/
inductive Rounds (g : Setting) : (budget : Nat) → Rule → State → (n : Nat) → Prop
  | none (budget : Nat) (round : Rule) (s : State) : Rounds g budget round s 0
  | more {budget : Nat} {round next : Rule} {s s' : State} {n : Nat} :
    round.Repeats next → (next, s') ∈ round.calls g (budget + 1) s →
      Rounds g budget next s' n → Rounds g (budget + 1) round s (n + 1)

/-- There are no rounds after the end. -/
private theorem Rounds.eq_zero (h : Rounds g budget round s n) (hend : round.EndsAt g s) :
    n = 0 := by
  cases h with
  | none => rfl
  | more _ hcall _ =>
    rw [(hend _).2] at hcall
    cases hcall

/-- A loop goes on for each token ahead, and once more at most. -/
theorem Rounds.le (h : Rounds g budget round s n) : n ≤ s.distance + 1 := by
  induction h with
  | none => exact Nat.zero_le _
  | more hrepeats hcall hrest ih =>
    obtain hlt | ⟨-, hend⟩ := hrepeats.advances hcall
    · omega
    · have hlast := hrest.eq_zero hend
      omega

end Rule

/-! ## Parses -/

/-- Pieces of a source are in order, even those that are empty. -/
private theorem Piece.orders_place (o : Options) {source : String} {pieces : List Piece}
    (h : spell pieces = source.toList) :
    Mode.any.Orders ⟨Text.byteLength source.toList, o.recovery, o.depthLimit⟩
      (place 0 .origin pieces) := by
  obtain ⟨hapart, hinside⟩ := place_apart pieces 0 .origin
  rw [h, Nat.zero_add] at hinside
  refine ⟨hapart.imp fun hle => Nat.le_trans (Nat.le_add_right _ _) hle, fun t ht => ?_,
    fun hmode => (by cases hmode), fun hmode => (by cases hmode)⟩
  exact Nat.le_trans (Nat.le_add_right _ _) (hinside t ht).2

/-- A parse of pieces that spell out the source does not go wrong, whatever their kinds are. -/
theorem parseLexed_ok_or_stalled (o : Options) {source : String} {pieces : List Piece}
    (h : Piece.spell pieces = source.toList) :
    (∃ outcome, parseLexed o source (Piece.place 0 .origin pieces) = .ok outcome) ∨
      ∃ index, parseLexed o source (Piece.place 0 .origin pieces) = .error (.stalled index) := by
  have hspelling : Token.spelling (Piece.place 0 .origin pieces) = source := by
    rw [Piece.spelling_place, h, String.ofList_toList]
  exact (parseLexed_ensures .any (by simp) (by simp [Mode.Shows]) (Piece.orders_place o h)
    hspelling).ok_or_stalled.imp_right (·.2)

/-- The budget of a parse is no bound on what it does: more of it makes no difference. -/
theorem Rule.run_program_of_le (tokens : List Token) (steps : Option Nat) {budget : Nat}
    (h : callBudget tokens ≤ budget) :
    Rule.program.run g budget (.initial tokens steps) =
      Rule.program.run g (callBudget tokens) (.initial tokens steps) :=
  Rule.run_eq_of_weight_lt (State.initial tokens steps).sees_onto (Rule.ready_program tokens)
    (Nat.lt_of_lt_of_le (Rule.weight_program_lt tokens) h)
    (Rule.weight_program_lt tokens)

/-- Loops and parses come to an end.  From any state, a round of a loop that goes on consumes a
    token, or the parse is over and the next round ends at once; so the rounds are bounded by the
    tokens ahead.  A parse of pieces of any kinds that spell out the source has a result or runs out
    of patience, and so has a parse of marks whose tokens can be restored.  The bound on the nesting
    of calls has no part in it. -/
theorem loops_and_parses_end :
    (∀ (g : Setting) (budget : Nat) (round next : Rule) (s s' : State), round.Repeats next →
      (next, s') ∈ round.calls g budget s → s.Advances g next s') ∧
    (∀ (g : Setting) (budget : Nat) (round : Rule) (s : State) (n : Nat),
      Rule.Rounds g budget round s n → n ≤ s.distance + 1) ∧
    (∀ (o : Options) (source : String) (pieces : List Piece),
      Piece.spell pieces = source.toList →
        (∃ outcome, parseLexed o source (Piece.place 0 .origin pieces) = .ok outcome) ∨
          ∃ index, parseLexed o source (Piece.place 0 .origin pieces) =
            .error (.stalled index)) ∧
    (∀ (o : Options) (source : String) (marks : List Mark) (tokens : List Token),
      Token.restore source marks = .ok tokens →
        (∃ outcome, parseTokens o source marks = .ok outcome) ∨
          ∃ index, parseTokens o source marks = .error (.stalled index)) ∧
    ∀ (g : Setting) (tokens : List Token) (steps : Option Nat) (budget : Nat),
      callBudget tokens ≤ budget →
        Rule.program.run g budget (.initial tokens steps) =
          Rule.program.run g (callBudget tokens) (.initial tokens steps) := by
  refine ⟨fun _ _ _ _ _ _ hrepeats => hrepeats.advances, fun _ _ _ _ _ => Rule.Rounds.le,
    fun o _ _ => parseLexed_ok_or_stalled o, fun o source marks tokens hrestore => ?_,
    fun _ tokens steps _ => Rule.run_program_of_le tokens steps⟩
  have hparse : parseTokens o source marks = parseLexed o source tokens := by
    rw [parseTokens, hrestore]
    rfl
  -- Restored tokens are pieces that spell the source, for which a parse ends.
  obtain ⟨pieces, rfl, hspell⟩ := Token.restore_eq_ok hrestore
  rw [hparse]
  exact parseLexed_ok_or_stalled o hspell

/-- A list of arguments where no nesting is allowed: the first round refuses the argument and
    consumes nothing, and the second one ends at once.  A keyword and a node that are given in place
    of a name do no harm. -/
theorem loops_and_parses_end_refused :
    (∃ s', Rule.Repeats (.elements .callArgs) (.elements .callArgs) ∧
      (.elements .callArgs, s') ∈ Rule.calls ⟨3, true, some 0⟩ 8 (.elements .callArgs)
        (.initial (Token.lex "a b") none) ∧
      s'.distance = (State.initial (Token.lex "a b") none).distance ∧
      (State.initial (Token.lex "a b") none).Advances ⟨3, true, some 0⟩ (.elements .callArgs) s' ∧
      Rule.Rounds ⟨3, true, some 0⟩ 8 (.elements .callArgs)
        (.initial (Token.lex "a b") none) 1 ∧
      1 ≤ (State.initial (Token.lex "a b") none).distance + 1) ∧
    Piece.spell [⟨.program, []⟩, ⟨.kwType, ['a']⟩] = "a".toList ∧
    ((∃ outcome, parseLexed .strict "a"
        (Piece.place 0 .origin [⟨.program, []⟩, ⟨.kwType, ['a']⟩]) = .ok outcome) ∨
      ∃ index, parseLexed .strict "a"
        (Piece.place 0 .origin [⟨.program, []⟩, ⟨.kwType, ['a']⟩]) = .error (.stalled index)) ∧
    (∃ tokens, Token.restore "a" [⟨.program, .point 0⟩, ⟨.kwType, ⟨0, 1, by decide⟩⟩] =
        .ok tokens ∧
      ((∃ outcome, parseTokens .strict "a" [⟨.program, .point 0⟩, ⟨.kwType, ⟨0, 1, by decide⟩⟩] =
          .ok outcome) ∨
        ∃ index, parseTokens .strict "a" [⟨.program, .point 0⟩, ⟨.kwType, ⟨0, 1, by decide⟩⟩] =
          .error (.stalled index))) ∧
    callBudget (Token.lex "a b") ≤ 1000 ∧
    Rule.program.run ⟨3, true, some 0⟩ 1000 (.initial (Token.lex "a b") none) =
      Rule.program.run ⟨3, true, some 0⟩ (callBudget (Token.lex "a b"))
        (.initial (Token.lex "a b") none) := by
  obtain ⟨hadvance, hrounds, hpieces, hmarks, hbudget⟩ := loops_and_parses_end
  -- The elements call themselves once more, without having read a token.
  have hcalls : (Rule.calls ⟨3, true, some 0⟩ 8 (.elements .callArgs)
      (.initial (Token.lex "a b") none)).map (fun c => (c.1, c.2.distance)) =
        [(.expr, 2), (.elements .callArgs, 2)] := by decide +kernel
  have hmem : (Rule.elements .callArgs, 2) ∈ (Rule.calls ⟨3, true, some 0⟩ 8 (.elements .callArgs)
      (.initial (Token.lex "a b") none)).map (fun c => (c.1, c.2.distance)) := by simp [hcalls]
  obtain ⟨⟨next, s'⟩, hcall, hnext⟩ := List.mem_map.mp hmem
  obtain ⟨rfl, hdistance⟩ := Prod.mk.inj hnext
  have hstill : (State.initial (Token.lex "a b") none).distance = 2 := by decide +kernel
  have hround : Rule.Rounds ⟨3, true, some 0⟩ 8 (.elements .callArgs)
      (.initial (Token.lex "a b") none) 1 := .more (.elements _) hcall (.none _ _ _)
  have hrestore : ∃ tokens, Token.restore "a"
      [⟨.program, .point 0⟩, ⟨.kwType, ⟨0, 1, by decide⟩⟩] = .ok tokens := ⟨_, by cbv⟩
  obtain ⟨tokens, hrestore⟩ := hrestore
  have hle : callBudget (Token.lex "a b") ≤ 1000 := by decide +kernel
  exact ⟨⟨s', .elements _, hcall, hdistance.trans hstill.symm,
      hadvance _ _ _ _ _ _ (.elements _) hcall, hround, hrounds _ _ _ _ _ hround⟩,
    rfl, hpieces _ _ _ rfl, ⟨tokens, hrestore, hmarks _ _ _ _ hrestore⟩, hle,
    hbudget _ _ _ _ hle⟩

end ScriptTree
