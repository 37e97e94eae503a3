import ScriptTree.Proofs.Discipline

/-!
# Outlooks

`Script.Steady` follows the paths of a script on which nothing goes wrong.  Here all paths count:
complaints, tokens that are set aside, and the way out of the rules once a parse has come to its
end.  `Script.Safe` asks of each path

* that tokens are consumed only where there are some;
* that a rule is called only where it may begin;
* that a call comes closer to the end of the input or has a lower `Rule.height`;
* that there is patience left for each lookahead.

It keeps track of an `Outlook`: the tokens ahead, whether the parse is known to be over, and the
lookaheads since patience was restored.  What a rule does to the outlook is its `Effect`.  Three
kinds of parses are told apart (`Mode`), since a function inside a function inside a function costs
patience without end, unless errors end the parse.

`Fragment.Does` is the same for fragments, with bounds instead of outlooks, so that the bounds of a
sequence can be computed from those of its parts.

## Key results

- `Outlook.Shifts.trans`: effects compose
- `Fragment.Does.bind`, `Fragment.Does.bind_sure`, `Fragment.Does.bind_unlessOver`: sequences
- `Fragment.does_call`, `Fragment.does_enclosed`, `Fragment.does_deeper`: the steps that matter
-/

namespace ScriptTree

/-- What is known of a parse as a whole. -/
inductive Mode where
  /-- Nothing.  Lookaheads are not counted. -/
  | any
  /-- Errors end it. -/
  | strict
  /-- The tokens declare neither functions nor types. -/
  | plain
  deriving DecidableEq, Repr

/-- Keywords that start the declaration of a function or a type. -/
def TokenSet.declarators : TokenSet := ofList [.kwFunction, .kwType, .kwOpen]

/-- The kinds of tokens that may turn up. -/
def Mode.Shows (mode : Mode) (k : Kind) : Prop :=
  mode = .plain → TokenSet.declarators.contains k = false

/-! ## Outlooks -/

/-- What is known of a state. -/
structure Outlook where
  /-- Kinds of the significant tokens ahead. -/
  ahead : List Kind
  /-- Is it known that the parse has come to its end? -/
  ended : Bool
  /-- Lookaheads since patience was restored, at most. -/
  spent : Nat

namespace Outlook

/-- The kind of the `n`-th token ahead. -/
def kind (v : Outlook) (n : Nat) : Kind := v.ahead[n]?.getD .error

/-- After a lookahead. -/
def glance (v : Outlook) : Outlook := { v with spent := v.spent + 1 }

/-- After a token was consumed. -/
def eat (v : Outlook) (rest : List Kind) : Outlook := { v with ahead := rest, spent := 0 }

/-- After patience was restored. -/
def refill (v : Outlook) : Outlook := { v with spent := 0 }

/-- After something that ends the parse if `b`. -/
def stop (v : Outlook) (b : Bool) : Outlook := { v with ended := v.ended || b }

end Outlook

/-- How sure it is that a token is consumed. -/
inductive Progress where
  /-- Perhaps none is. -/
  | none
  /-- One is, unless the parse is over. -/
  | unlessOver
  /-- One is. -/
  | sure
  deriving DecidableEq, Repr

namespace Progress

/-- Progress as a number. -/
def level : Progress → Nat
  | none => 0
  | unlessOver => 1
  | sure => 2

/-- Progress that is made unless the parse is over, if at all. -/
def ofBool (b : Bool) : Progress := if b then unlessOver else none

/-- Progress made by either of two. -/
def most (p q : Progress) : Progress := if p.level ≤ q.level then q else p

/-- Progress made by each of two. -/
def least (p q : Progress) : Progress := if p.level ≤ q.level then p else q

end Progress

/-- What becomes of an outlook. -/
structure Effect where
  progress : Progress
  /-- Lookaheads if no token is consumed. -/
  idle : Nat
  /-- Lookaheads after the last consumed token. -/
  busy : Nat
  deriving DecidableEq, Repr

namespace Effect

/-- One effect after another. -/
def seq (e f : Effect) : Effect :=
  ⟨e.progress.most f.progress, e.idle + f.idle, max (e.busy + f.idle) f.busy⟩

/-- One effect or another. -/
def join (e f : Effect) : Effect :=
  ⟨e.progress.least f.progress, max e.idle f.idle, max e.busy f.busy⟩

/-- The effect promises at least as much. -/
structure Le (e f : Effect) : Prop where
  progress : f.progress.level ≤ e.progress.level
  idle : e.idle ≤ f.idle
  busy : e.busy ≤ f.busy

/-- `Le` as a test. -/
def le (e f : Effect) : Bool :=
  f.progress.level.ble e.progress.level && e.idle.ble f.idle && e.busy.ble f.busy

/-- The test whether an effect is no greater is right. -/
private theorem le_iff {e f : Effect} : e.le f = true ↔ e.Le f := by
  simp only [le, Bool.and_eq_true, Nat.ble_eq]
  constructor
  · rintro ⟨⟨h₁, h₂⟩, h₃⟩
    exact ⟨h₁, h₂, h₃⟩
  · rintro ⟨h₁, h₂, h₃⟩
    exact ⟨⟨h₁, h₂⟩, h₃⟩

theorem Le.refl (e : Effect) : e.Le e := ⟨Nat.le_refl _, Nat.le_refl _, Nat.le_refl _⟩

/-- An effect is no greater than what it is joined to. -/
private theorem le_join_left (e f : Effect) : e.Le (e.join f) := by
  refine ⟨?_, Nat.le_max_left _ _, Nat.le_max_left _ _⟩
  simp only [join, Progress.least]
  split <;> omega

/-- An effect is no greater than what is joined to it. -/
private theorem le_join_right (e f : Effect) : f.Le (e.join f) := by
  refine ⟨?_, Nat.le_max_right _ _, Nat.le_max_right _ _⟩
  simp only [join, Progress.least]
  split <;> omega

end Effect

namespace Outlook

variable {e f : Effect} {v v' v'' : Outlook} {rest : List Kind} {k : Kind}

/-- The outlook has changed as the effect says. -/
structure Shifts (v : Outlook) (e : Effect) (v' : Outlook) : Prop where
  suffix : v'.ahead <:+ v.ahead
  ended : v.ended = true → v'.ended = true
  sure : 2 ≤ e.progress.level → v'.ahead.length < v.ahead.length
  moves : 1 ≤ e.progress.level → v'.ahead.length < v.ahead.length ∨ v'.ended = true
  idle : v'.ahead.length = v.ahead.length → v'.spent ≤ v.spent + e.idle
  busy : v'.ahead.length < v.ahead.length → v'.spent ≤ e.busy

/-- Tokens are consumed and none are added. -/
theorem Shifts.length_le (h : v.Shifts e v') : v'.ahead.length ≤ v.ahead.length :=
  h.suffix.length_le

/-- An effect bounds what is spent. -/
private theorem Shifts.spent_le (h : v.Shifts e v') : v'.spent ≤ max (v.spent + e.idle) e.busy := by
  obtain hlt | heq := Nat.lt_or_eq_of_le h.length_le
  · exact Nat.le_trans (h.busy hlt) (Nat.le_max_right _ _)
  · exact Nat.le_trans (h.idle heq) (Nat.le_max_left _ _)

/-- What shifts an outlook by an effect shifts it by any greater one. -/
theorem Shifts.mono (h : v.Shifts e v') (he : e.Le f) : v.Shifts f v' where
  suffix := h.suffix
  ended := h.ended
  sure hf := h.sure (Nat.le_trans hf he.progress)
  moves hf := h.moves (Nat.le_trans hf he.progress)
  idle heq := Nat.le_trans (h.idle heq) (Nat.add_le_add_left he.idle _)
  busy hlt := Nat.le_trans (h.busy hlt) he.busy

/-- Two shifts in sequence are one by both effects in sequence. -/
theorem Shifts.trans (h : v.Shifts e v') (h' : v'.Shifts f v'') : v.Shifts (e.seq f) v'' := by
  have hle := h.length_le
  have hle' := h'.length_le
  -- The levels of progress are in order, so the two make as much progress as the better of them.
  have hmost : (e.seq f).progress.level = max e.progress.level f.progress.level := by
    simp only [Effect.seq, Progress.most]
    split <;> omega
  refine ⟨h'.suffix.trans h.suffix, fun ho => h'.ended (h.ended ho), fun hf => ?_, fun hf => ?_,
    fun heq => ?_, fun hlt => ?_⟩
  · rw [hmost] at hf
    obtain hf | hf : 2 ≤ e.progress.level ∨ 2 ≤ f.progress.level := by omega
    · have := h.sure hf
      omega
    · have := h'.sure hf
      omega
  · rw [hmost] at hf
    obtain hf | hf : 1 ≤ e.progress.level ∨ 1 ≤ f.progress.level := by omega
    · exact (h.moves hf).imp (fun hlt => by omega) h'.ended
    · exact (h'.moves hf).imp_left fun hlt => by omega
  -- Nothing was consumed, so what both spent adds up.
  · have hidle := h.idle (by omega)
    have hidle' := h'.idle (by omega)
    simp only [Effect.seq]
    omega
  · simp only [Effect.seq]
    -- Consumption refills the patience, so what was spent before the last token no longer counts.
    by_cases hlt' : v''.ahead.length < v'.ahead.length
    · have := h'.busy hlt'
      omega
    · have hidle' := h'.idle (by omega)
      have := h.busy (by omega)
      omega

/-- To do nothing is a shift by no effect. -/
theorem Shifts.refl (v : Outlook) : v.Shifts ⟨.none, 0, 0⟩ v :=
  ⟨List.suffix_rfl, id, fun h => absurd h (by decide), fun h => absurd h (by decide), by simp,
    by simp⟩

/-- To come to the end is a shift by no effect. -/
private theorem shifts_stop (v : Outlook) : v.Shifts ⟨.unlessOver, 0, 0⟩ (v.stop true) :=
  ⟨List.suffix_rfl, fun _ => by simp [stop], fun h => absurd h (by decide),
    fun _ => .inr (by simp [stop]), by simp [stop], by simp [stop]⟩

/-- Lookaheads that come before anything is consumed. -/
theorem Shifts.of_still {i : Nat} (h : v'.Shifts e v'') (hahead : v'.ahead = v.ahead)
    (hover : v.ended = true → v'.ended = true) (hspent : v'.spent ≤ v.spent + i) :
    v.Shifts ⟨e.progress, i + e.idle, e.busy⟩ v'' := by
  obtain ⟨hsuffix, hover', hsure, hmoves, hidle, hbusy⟩ := h
  rw [hahead] at hsuffix hsure hmoves hidle hbusy
  exact ⟨hsuffix, fun ho => hover' (hover ho), hsure, hmoves,
    fun heq => by have := hidle heq; dsimp only; omega, hbusy⟩

/-- After a token was consumed, only what is spent since then counts. -/
theorem Shifts.of_eat (hahead : v.ahead = k :: rest) (h : (v.eat rest).Shifts e v') :
    v.Shifts ⟨.sure, 0, max e.idle e.busy⟩ v' := by
  have hle : v'.ahead.length ≤ rest.length := h.length_le
  have hlt : v'.ahead.length < v.ahead.length := by
    rw [hahead, List.length_cons]
    omega
  refine ⟨?_, h.ended, fun _ => hlt, fun _ => .inl hlt, fun heq => by omega, fun _ => ?_⟩
  · rw [hahead]
    exact h.suffix.trans (List.suffix_cons k rest)
  · simpa [eat] using h.spent_le

end Outlook

/-! ## What rules ask for and what they do -/

namespace Rule

/-- Tokens on which the rule consumes something, or finds the parse over. -/
def first : Rule → Kind → Bool
  | item, _ | statement, _ => true
  | importDecl, k => k == .kwImport
  | fnDecl, k => k == .kwFunction
  | fnTail, k => k == .lParen
  | block, k => k == .lCurly
  | typeDecl, k => k == .kwOpen || k == .kwType
  | member, k => TokenSet.typeMemberFirst.contains k
  | ifStmt _, k => k == .kwIf
  | initializer, k => k == .eq
  | param, k => k == .identifier
  | recordProp, k => TokenSet.identifierNames.contains k
  | expr, k | chain, k | prefixes _, k => TokenSet.exprFirst.contains k
  | operand, k => TokenSet.primaryFirst.contains k
  | primary, k => TokenSet.primaryFirst.contains k && k != .kwNew
  | _, _ => false

/-- Does one of these tokens come next? -/
def begins (rule : Rule) : List Kind → Bool
  | [] => false
  | k :: _ => rule.first k

/-- Must one of these tokens come next? -/
def demands : Rule → Bool
  | item | statement | importDecl | fnDecl | ifStmt _ | initializer | param | recordProp => true
  | _ => false

/-- Does the rule end at once when the parse is over? -/
def yields : Rule → Bool
  | items | imports | members | statements _ | elements _ => true
  | _ => false

/-- The height of a rule above the tokens, as `rank`, but for rules that end at once. -/
def height (rule : Rule) (ended : Bool) : Nat := if rule.yields && ended then 0 else rule.rank

/-- Patience that is enough for the rule up to where it is restored. -/
def need (rule : Rule) (ended : Bool) : Nat := 8 * (rule.height ended + 1)

/-- Lookaheads of the rule if it consumes nothing. -/
def idle : Rule → Nat
  | importDecl | fnDecl | param | recordProp | initializer | ifStmt _ | statement => 0
  | unionTail | typeArgTail | discard _ | skipTo _ | imports => 1
  | typeName | accessors _ | expr => 2
  | typeList | body => 3
  | block | member => 4
  | members => 6
  | typeDecl | elements _ => 8
  | fnTail | item | statements _ => 10
  | items => 12
  | program | primary => 14
  | operand => 20
  | prefixes _ => 24
  | chain => 28

/-- Lookaheads of the rule after the last token it consumes. -/
def busy : Rule → (ended : Bool) → Nat
  | statement, _ | expr, _ => 0
  | typeName, _ | discard _, _ | skipTo _, _ => 2
  | unionTail, _ | importDecl, _ | initializer, _ | recordProp, _ => 4
  | typeList, _ | imports, _ | param, _ => 6
  | typeArgTail, _ => 8
  | statements _, _ => 16
  | body, ended => if ended then 4 else 20
  | block, _ => 20
  | elements _, _ | ifStmt _, _ => 24
  | accessors _, _ => 30
  | fnTail, ended | fnDecl, ended => if ended then 14 else 32
  | primary, _ => 32
  | member, _ => 34
  | operand, _ | prefixes _, _ => 36
  | chain, _ => 38
  | members, _ => 40
  | typeDecl, ended => if ended then 14 else 44
  | item, _ => 44
  | items, _ | program, _ => 60

/-- What the rule does; `begun` if one of its first tokens comes next. -/
def effect (rule : Rule) (ended begun : Bool) : Effect :=
  if rule.yields && ended then ⟨.ofBool begun, 0, 0⟩
  else ⟨.ofBool begun, rule.idle, rule.busy ended⟩

/-- A rule makes progress if it is called where it begins. -/
private theorem effect_progress (rule : Rule) (ended begun : Bool) :
    (rule.effect ended begun).progress = .ofBool begun := by
  unfold effect
  split <;> rfl

/-- Where the parse is over, a rule takes no more lookaheads than elsewhere. -/
private theorem busy_true_le (rule : Rule) : rule.busy true ≤ rule.busy false := by
  cases rule <;> exact Nat.le_of_ble_eq_true rfl

/-- A parse that is over takes no more than one that is not. -/
private theorem effect_le (rule : Rule) {o o' b b' : Bool} (ho : o' = true → o = true)
    (hb : b' = true → b = true) : (rule.effect o b).Le (rule.effect o' b') := by
  have hprogress : (Progress.ofBool b').level ≤ (Progress.ofBool b).level := by
    cases b' with
    | false => exact Nat.zero_le _
    | true => exact Nat.le_of_eq (by rw [hb rfl])
  refine ⟨by rwa [effect_progress, effect_progress], ?_, ?_⟩
  all_goals
    -- Only the case in which the parse is over on the left alone compares two different costs.
    cases o' with
    | true =>
      obtain rfl := ho rfl
      unfold effect
      split <;> exact Nat.le_refl _
    | false =>
      unfold effect
      simp only [Bool.and_false, Bool.false_eq_true, ↓reduceIte]
      split
      · exact Nat.zero_le _
      · cases o with
        | false => exact Nat.le_refl _
        | true => first | exact Nat.le_refl _ | exact rule.busy_true_le

/-- Where the parse is over, a rule stands no higher than elsewhere. -/
private theorem height_le (rule : Rule) {o o' : Bool} (ho : o' = true → o = true) :
    rule.height o ≤ rule.height o' := by
  cases o' with
  | true => exact Nat.le_of_eq (by rw [ho rfl])
  | false =>
    unfold height
    simp only [Bool.and_false, Bool.false_eq_true, ↓reduceIte]
    split
    · exact Nat.zero_le _
    · exact Nat.le_refl _

/-- No rule stands higher than its rank. -/
theorem height_le_rank (rule : Rule) (ended : Bool) : rule.height ended ≤ rule.rank := by
  unfold height
  split
  · exact Nat.zero_le _
  · exact Nat.le_refl _

/-- A bound on the depth of calls that the rule leads to. -/
def weight (rule : Rule) (v : Outlook) : Nat := 64 * v.ahead.length + rule.height v.ended

/-- The rule may be called. -/
structure Ready (rule : Rule) (v : Outlook) : Prop where
  patient : v.spent + rule.need v.ended ≤ fullPatience
  begins : rule.demands = true → rule.begins v.ahead = true

/-- What callers may count on after the rule. -/
def Gives (rule : Rule) (mode : Mode) (v v' : Outlook) : Prop :=
  v.Shifts (rule.effect v.ended (rule.begins v.ahead)) v' ∧ (mode = .any → v'.spent = 0)

end Rule

/-- What a script is part of: a parse of some mode, and a rule of some weight. -/
structure Scope where
  mode : Mode
  limit : Nat

/-- No path through the script goes wrong, and each ends as `post` demands. -/
def Script.Safe (c : Scope) : Script → Outlook → (post : Outlook → Prop) → Prop
  | .done _, v, post => post v
  | .fail _, _, _ => False
  | .look n next, v, post =>
    v.spent < fullPatience ∧ (c.mode.Shows (v.kind n) → (next (v.kind n)).Safe c v.glance post)
  | .text next, v, post => ∀ t, (next t).Safe c v post
  | .stopped next, v, post =>
    (next true).Safe c (v.stop !v.ahead.isEmpty) post ∧
      (v.ahead ≠ [] → v.ended = false → (next false).Safe c v post)
  | .exhausted next, v, post => ∀ b, (next b).Safe c v post
  | .bump next, v, post => ∃ k rest, v.ahead = k :: rest ∧ next.Safe c (v.eat rest) post
  | .flush next, v, post => next.Safe c v post
  | .complain x next, v, post =>
    x.problem.severity = .error ∧ v.spent < fullPatience ∧
      next.Safe c (v.glance.stop (c.mode = .strict)) post
  -- A remark is made only just before the token it is about is consumed.
  | .remark _ next, v, post => next.isBump = true ∧ next.Safe c v post
  | .node _ body next, v, post => body.Safe c v fun v' => next.Safe c v' post
  | .group body next, v, post => body.Safe c v fun v' => next.Safe c v' post
  | .wrap _ body next, v, post => body.Safe c v fun v' => next.Safe c v' post
  | .deeper body next, v, post =>
    (body.Safe c v.refill fun v' => (next true).Safe c v'.refill post) ∧
      (next false).Safe c (v.stop true) post
  -- The closer takes a lookahead, and two more if it is missing and has to be reported.
  | .enclosed _ _ _ body next, v, post =>
    ∃ k rest, v.ahead = k :: rest ∧ body.Safe c (v.eat rest) fun v' =>
      v'.spent + 3 ≤ fullPatience ∧ ∀ v'', v'.Shifts ⟨.none, 3, 0⟩ v'' → next.Safe c v'' post
  | .call rule next, v, post =>
    rule.Ready v ∧ rule.weight v < c.limit ∧
      ∀ a v', rule.Gives c.mode v v' → (next a).Safe c v' post

/-! ## Fragments -/

/-- What a fragment asks for. -/
structure Demand where
  /-- The parse is over. -/
  ended : Bool
  /-- The tokens ahead are such. -/
  front : List Kind → Prop
  /-- Rules below this rank may be called. -/
  level : Nat
  /-- Lookaheads that are left. -/
  need : Nat

/-- No matter which tokens are ahead. -/
def anywhere (_ : List Kind) : Prop := True

/-- The level at which every rule may be called: a token was consumed. -/
def topLevel : Nat := 12

/-- The outlook is as demanded. -/
structure Demand.Holds (d : Demand) (c : Scope) (v : Outlook) : Prop where
  ended : d.ended = true → v.ended = true
  front : d.front v.ahead
  level : 64 * v.ahead.length + d.level ≤ c.limit
  need : v.spent + d.need ≤ fullPatience

/-- The demand asks for no more than the other one. -/
structure Demand.Le (d d' : Demand) : Prop where
  ended : d.ended = true → d'.ended = true
  front : ∀ ks, d'.front ks → d.front ks
  level : d.level ≤ d'.level
  need : d.need ≤ d'.need

/-- Where more is given than asked for, what is asked for is given. -/
private theorem Demand.Le.holds {d d' : Demand} {c : Scope} {v : Outlook} (h : d.Le d')
    (hv : d'.Holds c v) : d.Holds c v where
  ended ho := hv.ended (h.ended ho)
  front := h.front _ hv.front
  level := by have := h.level; have := hv.level; omega
  need := by have := h.need; have := hv.need; omega

/-- All rules may be called at the top level. -/
theorem Rule.rank_lt_topLevel (rule : Rule) : rule.rank < topLevel := by
  cases rule <;> simp [topLevel]

namespace Fragment

variable {α β : Type} {c : Scope} {d d' : Demand} {e e' e₁ e₂ : Effect} {m : Fragment α}
  {f : α → Fragment β} {ended : Bool} {front : List Kind → Prop} {level n n' n₁ n₂ : Nat}

/-- Wherever the demand holds, the fragment is safe and has the effect, whatever comes next. -/
def Does (c : Scope) (d : Demand) (e : Effect) (m : Fragment α) : Prop :=
  ∀ ⦃v : Outlook⦄ ⦃next : α → Script⦄ ⦃post : Outlook → Prop⦄, d.Holds c v →
    (∀ a v', v.Shifts e v' → (next a).Safe c v' post) → (m next).Safe c v post

/-- A fragment may be said to ask for more and to do more. -/
theorem Does.mono (h : m.Does c d e) (hd : d.Le d') (he : e.Le e') : m.Does c d' e' :=
  fun _ _ _ hv hnext => h (hd.holds hv) fun a v' hshifts => hnext a v' (hshifts.mono he)

/-! ### Steps -/

/-- A fragment that does nothing asks for nothing. -/
theorem does_pure (a : α) : (pure a : Fragment α).Does c ⟨ended, front, level, 0⟩ ⟨.none, 0, 0⟩ :=
  fun v _ _ _ hnext => hnext a v (.refl v)

/-- What surely consumes a token is never idle. -/
theorem Does.sure (h : m.Does c d e) (hsure : e.progress = .sure) :
    m.Does c d ⟨.sure, 0, e.busy⟩ := by
  refine fun v next post hv hnext => h hv fun a v' hshifts => hnext a v' ?_
  have hlt := hshifts.sure (by rw [hsure]; decide)
  exact ⟨hshifts.suffix, hshifts.ended, fun _ => hlt, fun _ => .inl hlt, fun heq => by omega,
    hshifts.busy⟩

/-- In a sequence, the second part starts where the first one ends. -/
theorem Does.bind (h : m.Does c ⟨ended, front, level, n⟩ e)
    (h' : ∀ a, (f a).Does c ⟨ended, anywhere, level, n'⟩ e')
    (hn : (e.busy + n').ble fullPatience = true) :
    (m >>= f).Does c ⟨ended, front, level, max n (e.idle + n')⟩ (e.seq e') := by
  intro v next post hv hnext
  have hn := Nat.le_of_ble_eq_true hn
  have hneed := hv.need
  -- What the first part has spent is no longer there for the second.
  have hlevel := hv.level
  dsimp only at hneed hlevel
  refine h ⟨hv.ended, hv.front, hlevel, by dsimp only; omega⟩ fun a v' hshifts => ?_
  have hspent := hshifts.spent_le
  have hlength := hshifts.length_le
  refine h' a ⟨fun ho => hshifts.ended (hv.ended ho), trivial, ?_, ?_⟩ fun b v'' hshifts' =>
    hnext b v'' (hshifts.trans hshifts')
  · dsimp only
    omega
  · dsimp only
    omega

/-- After a part that surely consumes a token, every rule may be called. -/
theorem Does.bind_sure (h : m.Does c ⟨ended, front, level, n⟩ e)
    (h' : ∀ a, (f a).Does c ⟨ended, anywhere, topLevel, n'⟩ e')
    (hsure : e.progress = .sure)
    (hn : (e.busy + n').ble fullPatience = true) :
    (m >>= f).Does c ⟨ended, front, level, n⟩
      ⟨.sure, 0, max (e.busy + e'.idle) e'.busy⟩ := by
  intro v next post hv hnext
  have hn := Nat.le_of_ble_eq_true hn
  have hlevel := hv.level
  dsimp only at hlevel
  refine h hv fun a v' hshifts => ?_
  -- The first part consumed a token, so the second one starts with full patience.
  have hlt := hshifts.sure (by rw [hsure]; decide)
  have hspent := hshifts.busy hlt
  refine h' a ⟨fun ho => hshifts.ended (hv.ended ho), trivial, ?_, ?_⟩ fun b v'' hshifts' =>
    hnext b v'' ?_
  · dsimp only [topLevel]
    omega
  · dsimp only
    omega
  · have hlt' := hshifts'.length_le
    have hspent' := hshifts'.spent_le
    exact ⟨hshifts'.suffix.trans hshifts.suffix, fun ho => hshifts'.ended (hshifts.ended ho),
      fun _ => by omega, fun _ => .inl (by omega), fun heq => by omega,
      fun _ => by dsimp only; omega⟩

/-- After a part that consumes a token unless the parse is over, there are the two cases. -/
theorem Does.bind_unlessOver (h : m.Does c ⟨ended, front, level, n⟩ e)
    (hmore : ∀ a, (f a).Does c ⟨false, anywhere, topLevel, n₁⟩ e₁)
    (hover : ∀ a, (f a).Does c ⟨true, anywhere, level, n₂⟩ e₂)
    (hprogress : Nat.ble 1 e.progress.level = true)
    (hn : (e.busy + n₁).ble fullPatience = true) :
    (m >>= f).Does c ⟨ended, front, level, max n (e.idle + n₂)⟩
      ⟨.unlessOver, e.idle + e₂.idle, max (max (e.busy + e₁.idle) e₁.busy) e₂.busy⟩ := by
  intro v next post hv hnext
  have hn := Nat.le_of_ble_eq_true hn
  have hneed := hv.need
  have hlevel := hv.level
  dsimp only at hneed hlevel
  refine h ⟨hv.ended, hv.front, hlevel, by dsimp only; omega⟩ fun a v' hshifts => ?_
  have hlength := hshifts.length_le
  -- Either a token was consumed, so patience is full again, or the parse is over.
  by_cases hlt : v'.ahead.length < v.ahead.length
  · have hspent := hshifts.busy hlt
    refine hmore a ⟨by simp, trivial, ?_, ?_⟩ fun b v'' hshifts' => hnext b v'' ?_
    · dsimp only [topLevel]
      omega
    · dsimp only
      omega
    · have hlt' := hshifts'.length_le
      have hspent' := hshifts'.spent_le
      exact ⟨hshifts'.suffix.trans hshifts.suffix, fun ho => hshifts'.ended (hshifts.ended ho),
        fun _ => by omega, fun _ => .inl (by omega), fun heq => by omega,
        fun _ => by dsimp only; omega⟩
  -- Nothing was consumed, so the first part has seen the end.
  · have hover' : v'.ended = true :=
      (hshifts.moves (Nat.le_of_ble_eq_true hprogress)).resolve_left hlt
    have hspent := hshifts.idle (by omega)
    refine hover a ⟨fun _ => hover', trivial, ?_, ?_⟩ fun b v'' hshifts' => hnext b v'' ?_
    · dsimp only
      omega
    · dsimp only
      omega
    · have hlt' := hshifts'.length_le
      refine ⟨hshifts'.suffix.trans hshifts.suffix, fun ho => hshifts'.ended (hshifts.ended ho),
        fun h => absurd h (by simp [Progress.level]), fun _ => .inr (hshifts'.ended hover'),
        fun heq => ?_,
        fun hlt'' => ?_⟩
      · have := hshifts'.idle (by omega)
        dsimp only
        omega
      · have := hshifts'.busy (by omega)
        dsimp only
        omega

/-- A lookahead tells what is there. -/
theorem does_ahead_bind (i : Nat) {f : Kind → Fragment β}
    (h : ∀ k, c.mode.Shows k →
      (f k).Does c ⟨ended, fun ks => front ks ∧ ks[i]?.getD .error = k, level, n⟩ e) :
    (ahead i >>= f).Does c ⟨ended, front, level, 1 + n⟩ ⟨e.progress, 1 + e.idle, e.busy⟩ := by
  intro v next post hv hnext
  have hneed := hv.need
  dsimp only at hneed
  refine ⟨by omega, fun hshows => h _ hshows ⟨hv.ended, ⟨hv.front, rfl⟩, hv.level, ?_⟩
    fun a v' hshifts => hnext a v' (hshifts.of_still (v := v) rfl id (Nat.le_refl _))⟩
  simp only [Outlook.glance]
  omega

/-- The text of the current token is there without a lookahead. -/
theorem does_currentText_bind {f : String → Fragment β} (h : ∀ t, (f t).Does c d e) :
    (currentText >>= f).Does c d e :=
  fun _ _ _ hv hnext t => h t hv hnext

/-- Where the parse is known to be over, it is seen to be. -/
theorem does_stopped_bind {f : Bool → Fragment β}
    (htrue : (f true).Does c ⟨ended, front, level, n⟩ e)
    (hfalse : ended = false →
      (f false).Does c ⟨false, fun ks => front ks ∧ ks ≠ [], level, n⟩ e) :
    (stopped >>= f).Does c ⟨ended, front, level, n⟩ e := by
  intro v next post hv hnext
  constructor
  -- To have looked at the end is to have ended.
  · have hstop : v.ended = true → (v.stop !v.ahead.isEmpty).ended = true := by
      intro ho
      simp [Outlook.stop, ho]
    refine htrue ⟨fun ho => hstop (hv.ended ho), hv.front, hv.level, hv.need⟩ fun a v' hshifts =>
      hnext a v' ?_
    simpa using hshifts.of_still (v := v) (i := 0) rfl hstop (Nat.le_refl _)
  · intro hahead hover
    -- Over the end there is nothing left to refute the stop.
    have ho : ended = false := by
      cases ho : ended with
      | false => rfl
      | true => rw [hv.ended ho] at hover; cases hover
    exact hfalse ho ⟨by simp, ⟨hv.front, hahead⟩, hv.level, hv.need⟩ hnext

/-- To ask whether steps are left takes no lookahead. -/
theorem does_exhausted_bind {f : Bool → Fragment β} (h : ∀ b, (f b).Does c d e) :
    (exhausted >>= f).Does c d e :=
  fun _ _ _ hv hnext b => h b hv hnext

/-- A token may be consumed where there is one. -/
theorem does_bump (hfront : ∀ ks, front ks → ks ≠ []) :
    bump.Does c ⟨ended, front, level, 0⟩ ⟨.sure, 0, 0⟩ := by
  intro v next post hv hnext
  obtain ⟨k, rest, hahead⟩ := List.exists_cons_of_ne_nil (hfront _ hv.front)
  exact ⟨k, rest, hahead, hnext () _ ((Outlook.Shifts.refl _).of_eat hahead)⟩

/-- After a token was consumed, the next one is there. -/
theorem does_bump_bind {f : Unit → Fragment β} {front' : List Kind → Prop}
    (h : (f ()).Does c ⟨ended, front', topLevel, n⟩ e)
    (hfront : ∀ ks, front ks → ks ≠ [] ∧ front' ks.tail)
    (hn : n.ble fullPatience = true) :
    (bump >>= f).Does c ⟨ended, front, level, 0⟩ ⟨.sure, 0, max e.idle e.busy⟩ := by
  intro v next post hv hnext
  -- The token at the front is known, so something is eaten.
  have hlevel := hv.level
  obtain ⟨hne, hfront⟩ := hfront _ hv.front
  obtain ⟨k, rest, hahead⟩ := List.exists_cons_of_ne_nil hne
  refine ⟨k, rest, hahead, h ⟨hv.ended, ?_, ?_, ?_⟩ fun a v' hshifts =>
    hnext a v' (hshifts.of_eat hahead)⟩
  · simpa [hahead, Outlook.eat] using hfront
  · simp only [hahead, List.length_cons] at hlevel
    simp only [Outlook.eat, topLevel]
    omega
  · simpa [Outlook.eat] using Nat.le_of_ble_eq_true hn

/-- Flushing takes no lookahead. -/
theorem does_flush : flush.Does c ⟨ended, front, level, 0⟩ ⟨.none, 0, 0⟩ :=
  fun v _ _ _ hnext => hnext () v (.refl v)

/-- A complaint leaves the tokens where they are. -/
theorem does_complain_bind {problem : Problem} {detail expected : Option String}
    {f : Unit → Fragment β}
    (h : (f ()).Does c ⟨ended || decide (c.mode = .strict), front, level, n⟩ e)
    (hseverity : problem.severity = .error) :
    (complain problem detail expected >>= f).Does c ⟨ended, front, level, 1 + n⟩
      ⟨e.progress, 1 + e.idle, e.busy⟩ := by
  intro v next post hv hnext
  have hneed := hv.need
  dsimp only at hneed
  -- A complaint at the end ends the run, and elsewhere costs one glance.
  refine ⟨hseverity, by omega, h ⟨fun ho => ?_, hv.front, hv.level, ?_⟩ fun a v' hshifts =>
    hnext a v' (hshifts.of_still (v := v) rfl (fun ho => ?_) (Nat.le_refl _))⟩
  · simp only [Outlook.stop, Outlook.glance]
    rw [Bool.or_eq_true] at ho ⊢
    exact ho.imp_left hv.ended
  · simp only [Outlook.stop, Outlook.glance]
    omega
  · simp [Outlook.stop, Outlook.glance, ho]

/-- A complaint takes one lookahead, to find out what it is about. -/
theorem does_complain {problem : Problem} {detail expected : Option String}
    (hseverity : problem.severity = .error) :
    (complain problem detail expected).Does c ⟨ended, front, level, 1⟩ ⟨.none, 1, 0⟩ :=
  does_complain_bind (does_pure ()) hseverity

/-- A remark stands before the token that it is about. -/
theorem does_remark_bind {problem : Problem} {f : Unit → Fragment β} (h : (f ()).Does c d e)
    (hbump : ∀ next, (f () next).isBump = true) :
    (remark problem >>= f).Does c d e :=
  fun _ _ _ hv hnext => ⟨hbump _, h hv hnext⟩

/-- A node does what its body does. -/
theorem does_node {k : Kind} {m : Fragment Unit} (h : m.Does c d e) : (node k m).Does c d e :=
  fun _ _ _ hv hnext => h hv fun a v' hshifts => hnext a v' hshifts

/-- A group does what its body does. -/
theorem does_group {m : Fragment Unit} (h : m.Does c d e) : (group m).Does c d e :=
  fun _ _ _ hv hnext => h hv fun a v' hshifts => hnext a v' hshifts

/-- What wraps does what its body does. -/
theorem does_wrap {k : Kind} {m : Fragment Unit} (h : m.Does c d e) : (wrap k m).Does c d e :=
  fun _ _ _ hv hnext => h hv fun a v' hshifts => hnext a v' hshifts

/-- One level deeper there is full patience, and again when coming back. -/
theorem does_deeper (begun : Bool) {m : Fragment Unit} (h : m.Does c ⟨ended, front, level, n⟩ e)
    (hprogress : begun = true → 1 ≤ e.progress.level)
    (hn : n.ble fullPatience = true) :
    (deeper m).Does c ⟨ended, front, level, 0⟩ ⟨.ofBool begun, 0, 0⟩ := by
  intro v next post hv hnext
  constructor
  -- With the level entered, patience is refilled for the part inside.
  · refine h ⟨hv.ended, hv.front, hv.level, ?_⟩ fun a v' hshifts => hnext true _ ?_
    · simpa [Outlook.refill] using Nat.le_of_ble_eq_true hn
    · refine ⟨hshifts.suffix, hshifts.ended, fun hf => ?_, fun hf => ?_, fun _ => Nat.zero_le _,
        fun _ => Nat.zero_le _⟩
      · cases begun <;> exact absurd hf (by decide)
      · cases begun with
        | false => exact absurd hf (by decide)
        | true => exact hshifts.moves (hprogress rfl)
  · refine hnext false _ (v.shifts_stop.mono ⟨?_, Nat.le_refl _, Nat.le_refl _⟩)
    cases begun <;> decide

/-- A closer takes three lookaheads at most. -/
private theorem safe_enclosed {delimiter : Delimiter} {construct : String}
    {ifEmpty : Option Problem}
    (answer : α → Bool) {next : Script} {v : Outlook} {post : Outlook → Prop}
    (h : m.Does c ⟨ended, anywhere, topLevel, n⟩ e) (hn : n.ble fullPatience = true)
    (hclose : (max e.idle e.busy + 3).ble fullPatience = true)
    (hv : Demand.Holds ⟨ended, front, level, 0⟩ c v) (hfront : ∀ ks, front ks → ks ≠ [])
    (hnext : ∀ v', v.Shifts ⟨.sure, 0, max e.idle e.busy + 3⟩ v' → next.Safe c v' post) :
    (Script.enclosed delimiter construct ifEmpty (m fun a => .done (answer a)) next).Safe c v
      post := by
  have hlevel := hv.level
  -- The opener is there.
  obtain ⟨k, rest, hahead⟩ := List.exists_cons_of_ne_nil (hfront _ hv.front)
  simp only [hahead, List.length_cons] at hlevel
  refine ⟨k, rest, hahead, h ⟨hv.ended, trivial, ?_, ?_⟩ fun a v' hshifts => ⟨?_, fun v'' hclosed =>
    hnext v'' ?_⟩⟩
  · simp only [Outlook.eat, topLevel]
    omega
  · simpa [Outlook.eat] using Nat.le_of_ble_eq_true hn
  · have hclose := Nat.le_of_ble_eq_true hclose
    -- The opener has been consumed, so the patience of the body counts from there.
    have hspent := (hshifts.of_eat hahead).busy
      (Nat.lt_of_le_of_lt hshifts.length_le (by simp [Outlook.eat, hahead]))
    dsimp only at hspent
    omega
  -- Opener, body and closer together.
  · refine ((hshifts.trans hclosed).of_eat hahead).mono ⟨Nat.le_refl _, Nat.le_refl _, ?_⟩
    simp only [Effect.seq]
    omega

/-- The body starts with full patience, and leaves enough for the closer. -/
theorem does_enclosed {delimiter : Delimiter} {construct : String} {m : Fragment Unit}
    (h : m.Does c ⟨ended, anywhere, topLevel, n⟩ e) (hfront : ∀ ks, front ks → ks ≠ [])
    (hn : n.ble fullPatience = true)
    (hclose : (max e.idle e.busy + 3).ble fullPatience = true) :
    (enclosed delimiter construct m).Does c ⟨ended, front, level, 0⟩
      ⟨.sure, 0, max e.idle e.busy + 3⟩ :=
  fun _ _ _ hv hnext => safe_enclosed (fun _ => true) h hn hclose hv hfront (hnext ())

/-- As `does_enclosed`. -/
theorem does_enclosedNonempty {delimiter : Delimiter} {construct : String} {ifEmpty : Problem}
    {m : Fragment Bool} (h : m.Does c ⟨ended, anywhere, topLevel, n⟩ e)
    (hfront : ∀ ks, front ks → ks ≠ [])
    (hn : n.ble fullPatience = true)
    (hclose : (max e.idle e.busy + 3).ble fullPatience = true) :
    (enclosedNonempty delimiter construct ifEmpty m).Does c ⟨ended, front, level, 0⟩
      ⟨.sure, 0, max e.idle e.busy + 3⟩ :=
  fun _ _ _ hv hnext => safe_enclosed id h hn hclose hv hfront (hnext ())

/-! ### Calls -/

variable {rule : Rule}

/-- A rule that is called where it may be has its effect. -/
private theorem safe_call (begun : Bool) {next : Bool → Script} {v : Outlook}
    {post : Outlook → Prop} (hlevel : (rule.height ended + 1).ble level = true)
    (hfront : ∀ ks, front ks → begun = true ∨ rule.demands = true → rule.begins ks = true)
    (hv : Demand.Holds ⟨ended, front, level, rule.need ended⟩ c v)
    (hnext : ∀ a v', v.Shifts (rule.effect ended begun) v' → (c.mode = .any → v'.spent = 0) →
      (next a).Safe c v' post) :
    (Script.call rule next).Safe c v post := by
  -- The rule must fit under the level and within the patience that is left.
  have hlevel := Nat.le_of_ble_eq_true hlevel
  have hheight : rule.height v.ended ≤ rule.height ended := rule.height_le hv.ended
  have hneed := hv.need
  have hlevel' := hv.level
  dsimp only [Rule.need] at hneed hlevel'
  refine ⟨⟨?_, fun hd => hfront _ hv.front (.inr hd)⟩, ?_, fun a v' hgives =>
    hnext a v' (hgives.1.mono ?_) hgives.2⟩
  · simp only [Rule.need]
    omega
  · rw [Rule.weight]
    omega
  · exact rule.effect_le hv.ended fun hb => hfront _ hv.front (.inl hb)

/-- A rule has the effect of its line in the tables. -/
theorem does_ask (rule : Rule) (begun : Bool)
    (hfront : ∀ ks, front ks → begun = true ∨ rule.demands = true → rule.begins ks = true)
    (hlevel : (rule.height ended + 1).ble level = true) :
    (ask rule).Does c ⟨ended, front, level, rule.need ended⟩ (rule.effect ended begun) :=
  fun _ _ _ hv hnext => safe_call begun hlevel hfront hv fun a v' h _ => hnext a v' h

/-- A rule has the effect of its line in the tables. -/
theorem does_call (rule : Rule) (begun : Bool)
    (hfront : ∀ ks, front ks → begun = true ∨ rule.demands = true → rule.begins ks = true)
    (hlevel : (rule.height ended + 1).ble level = true) :
    (call rule).Does c ⟨ended, front, level, rule.need ended⟩ (rule.effect ended begun) :=
  fun _ _ _ hv hnext => safe_call begun hlevel hfront hv fun _ v' h _ => hnext () v' h

/-- A rule that may be called anywhere. -/
theorem does_call_free (rule : Rule)
    (hlevel : (rule.height ended + 1).ble level = true)
    (hfree : rule.demands = false) :
    (call rule).Does c ⟨ended, front, level, rule.need ended⟩ (rule.effect ended false) :=
  does_call rule false (fun _ _ h => by simp [hfree] at h) hlevel

/-- After a token was consumed, the ranks of rules do not matter. -/
theorem does_call_top (rule : Rule) (hfree : rule.demands = false) :
    (call rule).Does c ⟨ended, front, topLevel, rule.need ended⟩ (rule.effect ended false) :=
  does_call_free rule (Nat.ble_eq_true_of_le
    (Nat.lt_of_le_of_lt (rule.height_le_rank ended) rule.rank_lt_topLevel)) hfree

/-- Where lookaheads are not counted, a call spends none. -/
theorem does_ask_any (rule : Rule) (begun : Bool) (hmode : c.mode = .any)
    (hfront : ∀ ks, front ks → begun = true ∨ rule.demands = true → rule.begins ks = true)
    (hlevel : (rule.height ended + 1).ble level = true) :
    (ask rule).Does c ⟨ended, front, level, rule.need ended⟩ ⟨.ofBool begun, 0, 0⟩ := by
  intro v next post hv hnext
  refine safe_call begun hlevel hfront hv fun a v' h hspent => hnext a v' ?_
  have hspent := hspent hmode
  have hprogress := rule.effect_progress ended begun
  exact ⟨h.suffix, h.ended, fun hf => h.sure (by rwa [hprogress]),
    fun hf => h.moves (by rwa [hprogress]), fun _ => by omega, fun _ => by omega⟩

/-- As `does_call`, in a parse of any mode. -/
theorem does_call_any (rule : Rule) (begun : Bool) (hmode : c.mode = .any)
    (hfront : ∀ ks, front ks → begun = true ∨ rule.demands = true → rule.begins ks = true)
    (hlevel : (rule.height ended + 1).ble level = true) :
    (call rule).Does c ⟨ended, front, level, rule.need ended⟩ ⟨.ofBool begun, 0, 0⟩ :=
  fun _ _ _ hv hnext => does_ask_any rule begun hmode hfront hlevel hv fun _ v' h => hnext () v' h

/-! ### Choices -/

/-- A fragment may be said to ask for more of what is ahead. -/
theorem Does.weaken {front' : List Kind → Prop} (h : m.Does c ⟨ended, front, level, n⟩ e)
    (hfront : ∀ ks, front' ks → front ks) : m.Does c ⟨ended, front', level, n⟩ e :=
  h.mono ⟨id, hfront, Nat.le_refl _, Nat.le_refl _⟩ (.refl e)

/-- What holds of any parse holds of one that is over. -/
theorem Does.live (h : m.Does c ⟨false, front, level, n⟩ e) : m.Does c ⟨ended, front, level, n⟩ e :=
  h.mono ⟨by simp, fun _ => id, Nat.le_refl _, Nat.le_refl _⟩ (.refl e)

/-- Bounds that are large enough. -/
theorem Does.fits (h : m.Does c ⟨ended, front, level, n⟩ e)
    (hfits : (n.ble n' && e.le e') = true) : m.Does c ⟨ended, front, level, n'⟩ e' := by
  obtain ⟨hn, he⟩ := Bool.and_eq_true_iff.mp hfits
  exact h.mono ⟨id, fun _ => id, Nat.le_refl _, Nat.le_of_ble_eq_true hn⟩ (Effect.le_iff.mp he)

variable {m₁ m₂ : Fragment α}

/-- A choice asks for the most that its branches ask for. -/
theorem does_ite {p : Prop} [Decidable p] (h₁ : p → m₁.Does c ⟨ended, front, level, n₁⟩ e₁)
    (h₂ : ¬ p → m₂.Does c ⟨ended, front, level, n₂⟩ e₂) :
    (if p then m₁ else m₂).Does c ⟨ended, front, level, max n₁ n₂⟩ (e₁.join e₂) := by
  split
  case isTrue hp =>
    exact (h₁ hp).mono ⟨id, fun _ => id, Nat.le_refl _, Nat.le_max_left _ _⟩ (e₁.le_join_left e₂)
  case isFalse hp =>
    exact (h₂ hp).mono ⟨id, fun _ => id, Nat.le_refl _, Nat.le_max_right _ _⟩ (e₁.le_join_right e₂)

/-- A test of the current token. -/
theorem does_isAtAny {set : TokenSet}
    (h₁ : m₁.Does c
      ⟨ended, fun ks => front ks ∧ set.contains (ks[0]?.getD .error) = true, level, n₁⟩ e₁)
    (h₂ : m₂.Does c
      ⟨ended, fun ks => front ks ∧ set.contains (ks[0]?.getD .error) = false, level, n₂⟩ e₂) :
    (isAtAny set >>= fun b => if b = true then m₁ else m₂).Does c
      ⟨ended, front, level, 1 + max n₁ n₂⟩
      ⟨(e₁.join e₂).progress, 1 + (e₁.join e₂).idle, (e₁.join e₂).busy⟩ := by
  show (ahead 0 >>= fun k => if set.contains k = true then m₁ else m₂).Does _ _ _
  refine does_ahead_bind 0 fun k _ => does_ite (fun hk => ?_) fun hk => ?_
  · exact h₁.weaken fun ks hks => ⟨hks.1, by rw [hks.2]; exact hk⟩
  · exact h₂.weaken fun ks hks => ⟨hks.1, by rw [hks.2]; simpa using hk⟩

/-- A test takes one lookahead, and tells the branches what is there. -/
theorem does_isAt {k : Kind}
    (h₁ : m₁.Does c ⟨ended, fun ks => front ks ∧ ks[0]?.getD .error = k, level, n₁⟩ e₁)
    (h₂ : m₂.Does c ⟨ended, fun ks => front ks ∧ ks[0]?.getD .error ≠ k, level, n₂⟩ e₂) :
    (isAt k >>= fun b => if b = true then m₁ else m₂).Does c
      ⟨ended, front, level, 1 + max n₁ n₂⟩
      ⟨(e₁.join e₂).progress, 1 + (e₁.join e₂).idle, (e₁.join e₂).busy⟩ := by
  show (ahead 0 >>= fun k' => if (k' == k) = true then m₁ else m₂).Does _ _ _
  refine does_ahead_bind 0 fun k' _ => does_ite (fun hk => ?_) fun hk => ?_
  · exact h₁.weaken fun ks hks => ⟨hks.1, by rw [hks.2]; simpa using hk⟩
  · exact h₂.weaken fun ks hks => ⟨hks.1, by rw [hks.2]; simpa using hk⟩

/-- A branch that is never taken. -/
theorem does_absurd (hfront : ∀ ks, ¬ front ks) : m.Does c ⟨ended, front, level, n⟩ e :=
  fun _ _ _ hv _ => absurd hv.front (hfront _)

/-- A token of a set without the end is there. -/
theorem ne_nil_of_contains {ks : List Kind} {set : TokenSet}
    (h : set.contains (ks[0]?.getD .error) = true)
    (hset : set.contains .error = false) : ks ≠ [] := by
  rintro rfl
  exact absurd h (by simpa using hset)

/-- A token of a kind is there, unless that stands for the end. -/
theorem ne_nil_of_kind {ks : List Kind} {k : Kind} (hk : k ≠ .error) (h : ks[0]?.getD .error = k) :
    ks ≠ [] := by
  rintro rfl
  exact hk h.symm

/-- A token that is eaten, or else stays. -/
theorem does_eat {k : Kind} (h₁ : m₁.Does c ⟨ended, anywhere, topLevel, n₁⟩ e₁)
    (h₂ : m₂.Does c ⟨ended, fun ks => front ks ∧ ks[0]?.getD .error ≠ k, level, n₂⟩ e₂)
    (hk : k ≠ .error)
    (hn : n₁.ble fullPatience = true) :
    (eat k >>= fun b => if b = true then m₁ else m₂).Does c ⟨ended, front, level, 1 + n₂⟩
      ⟨e₂.progress, 1 + e₂.idle, max (max e₁.idle e₁.busy) e₂.busy⟩ := by
  -- To eat is to look and then to bump.
  have heq : (eat k >>= fun b => if b = true then m₁ else m₂) =
      isAt k >>= fun b => if b = true then bump >>= fun _ => m₁ else m₂ := by
    funext next
    simp [eat, bind_apply, pure_apply, ite_apply]
  have hbump : (bump >>= fun _ => m₁).Does c
      ⟨ended, fun ks => front ks ∧ ks[0]?.getD .error = k, level, 0⟩
      ⟨.sure, 0, max e₁.idle e₁.busy⟩ :=
    does_bump_bind h₁ (fun ks hks => ⟨ne_nil_of_kind hk hks.2, trivial⟩) hn
  rw [heq]
  refine (does_isAt hbump h₂).mono ⟨id, fun _ => id, Nat.le_refl _, by simp⟩ ⟨?_, ?_, ?_⟩
  · cases h : e₂.progress <;> simp [Effect.join, Progress.least, Progress.level, h]
  · simp [Effect.join]
  · simp [Effect.join]

/-- A token that may be missing takes one lookahead. -/
theorem does_optionally {k : Kind} (hk : k ≠ .error) :
    (optionally k).Does c ⟨ended, front, level, 1⟩ ⟨.none, 1, 0⟩ := by
  have heq : optionally k = eat k >>= fun b => if b = true then pure () else pure () := by
    simp [optionally]
  rw [heq]
  exact does_eat (does_pure ()) (does_pure ()) hk rfl

/-- A kind that is expected takes one lookahead, and a complaint another. -/
theorem does_expect {k : Kind} {what : String} (hk : k ≠ .error) :
    (expect k what).Does c ⟨ended, front, level, 2⟩ ⟨.none, 2, 0⟩ :=
  (does_eat (does_pure true) (does_complain_bind (does_pure false) rfl) hk rfl).fits rfl

/-- A kind that is required takes one lookahead, and a complaint another. -/
theorem does_require {k : Kind} {what : String} (hk : k ≠ .error) :
    (require k what).Does c ⟨ended, front, level, 2⟩ ⟨.none, 2, 0⟩ :=
  ((does_expect hk).bind (fun _ => does_pure ()) rfl).fits rfl

/-- A name takes one lookahead, and a complaint another. -/
theorem does_identifier {what : String} :
    (identifier what).Does c ⟨ended, front, level, 2⟩ ⟨.none, 2, 0⟩ :=
  (does_eat (does_pure ()) (does_complain rfl) (by decide) rfl).fits rfl

/-- What follows a token that may be missing is the same in either case. -/
theorem optionally_bind (k : Kind) (f : Unit → Fragment β) : (optionally k >>= f) =
    eat k >>= fun b => if b = true then f () else f () := by
  funext next
  simp [optionally, bind_apply, pure_apply]

/-- What follows a token that is required comes behind it or behind a complaint. -/
theorem require_bind (k : Kind) (what : String) (f : Unit → Fragment β) :
    (require k what >>= f) = eat k >>= fun b => if b = true then f () else
      complain .expectedToken (some what) (some k.describe) >>= fun _ => f () := by
  funext next
  simp [require, expect, bind_apply, pure_apply, ite_apply]

/-- What the caller has seen is still there. -/
theorem does_entered_bind {k : Kind} {f : Unit → Fragment β}
    (h : (f ()).Does c ⟨ended, front, level, n⟩ e)
    (hfront : ∀ ks, front ks → ks[0]?.getD .error = k) :
    (entered k >>= f).Does c ⟨ended, front, level, 1 + n⟩ ⟨e.progress, 1 + e.idle, e.busy⟩ := by
  intro v next post hv hnext
  -- The rule was entered at the kind in front, so the assertion holds.
  have hfound : v.kind 0 = k := hfront _ hv.front
  have hneed := hv.need
  dsimp only at hneed
  refine ⟨by omega, fun _ => ?_⟩
  show Script.Safe c (if v.kind 0 = k then f () next else .fail _) _ _
  rw [if_pos hfound]
  refine h ⟨hv.ended, hv.front, hv.level, ?_⟩ fun a v' hshifts =>
    hnext a v' (hshifts.of_still (v := v) rfl id (Nat.le_refl _))
  simp only [Outlook.glance]
  omega

/-- What is set aside is consumed. -/
theorem does_setAside {problem : Problem} {what : String} {stops : TokenSet} {rest : Fragment Unit}
    (h : rest.Does c ⟨ended || decide (c.mode = .strict), anywhere, topLevel, 1⟩ ⟨.none, 1, 0⟩)
    (hfront : ∀ ks, front ks → ks ≠ []) (hseverity : problem.severity = .error) :
    (setAside problem what stops rest).Does c ⟨ended, front, level, 1⟩ ⟨.sure, 1, 4⟩ := by
  have hdiscard : (call (.discard stops)).Does c
      ⟨ended || decide (c.mode = .strict), anywhere, topLevel, 8⟩ ⟨.none, 1, 2⟩ :=
    does_call_top (.discard stops) rfl
  have hrest : (call (.discard stops) >>= fun _ => rest).Does c
      ⟨ended || decide (c.mode = .strict), anywhere, topLevel, 8⟩ ⟨.none, 2, 3⟩ :=
    (hdiscard.bind (fun _ => h) rfl).fits rfl
  exact (does_node (does_complain_bind
    ((does_bump hfront).bind_sure (fun _ => hrest) rfl rfl) hseverity)).fits rfl

end Fragment

end ScriptTree
