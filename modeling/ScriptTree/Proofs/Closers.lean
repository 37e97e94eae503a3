import ScriptTree.Grammar.Declaration
import ScriptTree.Proofs.Running

/-!
# Closers are left alone

A rule that reads something between delimiters takes off the innermost one and consumes its closer.
No other rule consumes a closer of the innermost delimiter, not even where it sets tokens aside:
`Script.Heeds` walks through a script and checks that every token that is consumed was looked at
before, and is no such closer.

It keeps track of the next two tokens as far as they are known (`Glimpse`).

## Key results

- `Rule.heeds`: all rules keep to this
-/

namespace ScriptTree

namespace Kind

/-- The delimiter that the token opens. -/
def opens : Kind → Option Delimiter
  | lCurly => some .curly
  | lParen => some .paren
  | lBracket => some .bracket
  | _ => none

/-- The delimiter that the token closes. -/
def closes : Kind → Option Delimiter
  | rCurly => some .curly
  | rParen => some .paren
  | rBracket => some .bracket
  | _ => none

end Kind

/-- The token does not close the innermost delimiter, if there is one. -/
def Spares (top : Option Delimiter) (k : Kind) : Prop := ∀ d, top = some d → k.closes ≠ some d

/-- Of all delimiters only braces may be innermost. -/
def Shallow (top : Option Delimiter) : Prop := ∀ d, top = some d → d = .curly

/-- What closes a delimiter is its closer. -/
private theorem closes_eq_some_iff {k : Kind} {d : Delimiter} :
    k.closes = some d ↔ k = d.closer := by
  constructor
  · intro h
    unfold Kind.closes at h
    split at h <;> cases h <;> rfl
  · rintro rfl
    cases d <;> rfl

/-- Most tokens close nothing. -/
@[simp] theorem spares_of_closes {top : Option Delimiter} {k : Kind} (h : k.closes = none) :
    Spares top k := by
  rintro d -
  simp [h]

/-- The set has no closers. -/
def TokenSet.closesNothing (set : TokenSet) : Bool :=
  !set.contains .rCurly && !set.contains .rParen && !set.contains .rBracket

/-- A token of a set without closers closes nothing. -/
private theorem spares_of_contains {top : Option Delimiter} {set : TokenSet} {k : Kind}
    (h : set.contains k = true) (hset : set.closesNothing = true) : Spares top k := by
  rintro d - hd
  rw [closes_eq_some_iff.mp hd] at h
  simp only [TokenSet.closesNothing, Bool.and_eq_true, Bool.not_eq_true'] at hset
  cases d <;> simp_all [Delimiter.closer]

/-- A set with the closer that matters. -/
private theorem spares_of_not_contains {top : Option Delimiter} {set : TokenSet} {k : Kind}
    (h : set.contains k = false) (hset : ∀ d, top = some d → set.contains d.closer = true) :
    Spares top k := by
  intro d htop hd
  rw [closes_eq_some_iff.mp hd, hset d htop] at h
  cases h

/-- Where at most braces are open, all but a brace closes nothing. -/
private theorem Shallow.spares {top : Option Delimiter} {k : Kind} (h : Shallow top)
    (hk : k ≠ .rCurly) : Spares top k := by
  intro d htop hd
  rw [h d htop] at hd
  exact hk (closes_eq_some_iff.mp hd)

/-- Where at most braces are open, a set with the brace has the closer that matters. -/
theorem Shallow.contains {top : Option Delimiter} {set : TokenSet} (h : Shallow top)
    (hset : set.contains .rCurly = true) (d : Delimiter) (htop : top = some d) :
    set.contains d.closer = true := by
  rw [h d htop]
  exact hset

@[simp] theorem shallow_curly : Shallow (some .curly) := by
  rintro d hd
  cases hd
  rfl

@[simp] theorem shallow_none : Shallow none := by
  rintro d hd
  cases hd

/-- The kinds of the next two tokens, as far as they are known. -/
structure Glimpse where
  first : Option Kind
  second : Option Kind

namespace Glimpse

/-- Nothing is known. -/
def blind : Glimpse := ⟨none, none⟩

/-- After a lookahead. -/
def see (v : Glimpse) : Nat → Kind → Glimpse
  | 0, k => ⟨some k, v.second⟩
  | 1, k => ⟨v.first, some k⟩
  | _, _ => v

/-- After a token was consumed. -/
def eat (v : Glimpse) : Glimpse := ⟨v.second, none⟩

/-- A lookahead may have this answer. -/
def Allows (v : Glimpse) (n : Nat) (k : Kind) : Prop := n = 0 → ∀ j, v.first = some j → k = j

/-- The next token is known, and does not close the innermost delimiter. -/
def Spares (v : Glimpse) (top : Option Delimiter) : Prop :=
  ∃ k, v.first = some k ∧ ScriptTree.Spares top k

end Glimpse

/-- Where the rule may be called: what the innermost delimiter is, and what comes next. -/
def Rule.Fits : Rule → Option Delimiter → Glimpse → Prop
  | program, top, _ | items, top, _ | item, top, _ => top = none
  | statements _, top, _ | ifStmt _, top, _ | members, top, _ => Shallow top
  | statement, top, v => Shallow top ∧ v.Spares top
  | param, top, v | recordProp, top, v => v.Spares top
  | discard stops, top, _ | skipTo stops, top, _ =>
    ∀ d, top = some d → stops.contains d.closer = true
  | _, _, _ => True

/-- No token is consumed that closes the innermost delimiter `top`, and no complaint is that a
    closer is missing. -/
def Script.Heeds (top : Option Delimiter) : Script → Glimpse → Prop
  | .done _, _ => True
  | .fail _, _ => True
  | .look n next, v => ∀ k, v.Allows n k → (next k).Heeds top (v.see n k)
  | .text next, v => ∀ t, (next t).Heeds top v
  | .stopped next, v => ∀ b, (next b).Heeds top v
  | .exhausted next, v => ∀ b, (next b).Heeds top v
  | .bump next, v => v.Spares top ∧ next.Heeds top v.eat
  | .flush next, v => next.Heeds top v
  | .complain x next, v => x.problem.isStructural = false ∧ next.Heeds top v
  | .remark problem next, v => problem.isStructural = false ∧ next.Heeds top v
  | .node _ body next, v => body.Heeds top v ∧ next.Heeds top .blind
  | .group body next, v => body.Heeds top v ∧ next.Heeds top .blind
  | .wrap _ body next, v => body.Heeds top v ∧ next.Heeds top .blind
  | .deeper body next, v => body.Heeds top v ∧ ∀ b, (next b).Heeds top .blind
  | .enclosed d _ ifEmpty body next, v =>
    v.first = some d.opener ∧ (∀ problem ∈ ifEmpty, problem.isStructural = false) ∧
      body.Heeds (some d) .blind ∧ next.Heeds top .blind
  | .call rule next, v => rule.Fits top v ∧ ∀ a, (next a).Heeds top .blind

namespace Glimpse

variable {top : Option Delimiter} {v v' : Glimpse}

/-- The second glimpse knows at least as much. -/
structure Le (v v' : Glimpse) : Prop where
  first : ∀ k, v.first = some k → v'.first = some k
  second : ∀ k, v.second = some k → v'.second = some k

/-- Nothing is known in a blind glimpse that is not known in any other. -/
private theorem blind_le (v : Glimpse) : blind.Le v := ⟨by simp [blind], by simp [blind]⟩

/-- What more was known is still known after a lookahead. -/
theorem Le.see (h : v.Le v') (n : Nat) (k : Kind) : (v.see n k).Le (v'.see n k) := by
  match n with
  | 0 => exact ⟨fun _ => id, h.second⟩
  | 1 => exact ⟨h.first, fun _ => id⟩
  | _ + 2 => exact h

/-- What is known not to close anything is so for who knows more. -/
private theorem Le.spares (h : v.Le v') (hv : v.Spares top) : v'.Spares top := by
  obtain ⟨k, hk, hspares⟩ := hv
  exact ⟨k, h.first k hk, hspares⟩

/-- A rule that fits what is known fits what more is known. -/
theorem Le.fits (h : v.Le v') {rule : Rule} (hv : rule.Fits top v) : rule.Fits top v' := by
  cases rule with
  | statement => exact ⟨hv.1, h.spares hv.2⟩
  | param => exact h.spares hv
  | recordProp => exact h.spares hv
  | _ => exact hv

end Glimpse

/-- It does no harm to know more. -/
theorem Script.Heeds.mono {top : Option Delimiter} {script : Script} {v v' : Glimpse}
    (h : script.Heeds top v) (hv : v.Le v') : script.Heeds top v' := by
  -- Induction on the script; only what consumes depends on the glimpse.
  induction script generalizing v v' with
  | done | fail => trivial
  | look n next ih =>
    intro k hk
    exact ih k (h k fun hn j hj => hk hn j (hv.first j hj)) (hv.see n k)
  | text next ih | stopped next ih | exhausted next ih => exact fun b => ih b (h b) hv
  | bump next ih => exact ⟨hv.spares h.1, ih h.2 ⟨hv.second, fun _ => id⟩⟩
  | flush next ih => exact ih h hv
  | complain x next ih | remark problem next ih => exact ⟨h.1, ih h.2 hv⟩
  | node k body next ihbody | group body next ihbody | wrap k body next ihbody
  | deeper body next ihbody => exact ⟨ihbody h.1 hv, h.2⟩
  | enclosed => exact ⟨hv.first _ h.1, h.2⟩
  | call rule next => exact ⟨hv.fits h.1, h.2⟩

/-! ## Fragments -/

namespace Fragment

variable {α β : Type} {top : Option Delimiter} {v : Glimpse} {m : Fragment α} {f : α → Fragment β}
  {k : Kind} {set : TokenSet} {problem : Problem}

/-- The fragment consumes no closer of the innermost delimiter, and what comes after it need know
    nothing. -/
def Heeds (top : Option Delimiter) (v : Glimpse) (m : Fragment α) : Prop :=
  ∀ next : α → Script, (∀ a, (next a).Heeds top .blind) → (m next).Heeds top v

/-- A fragment that heeds the innermost closer is a script that does. -/
theorem Heeds.script {m : Fragment Bool} (h : m.Heeds top v) : m.script.Heeds top v :=
  h _ fun _ => trivial

/-- A fragment that heeds the innermost closer is a script that does. -/
theorem Heeds.unit {m : Fragment Unit} (h : m.Heeds top v) : m.unit.Heeds top v :=
  h _ fun _ => trivial

/-- It does no harm to know more before a fragment. -/
theorem Heeds.mono {v' : Glimpse} (h : m.Heeds top v) (hv : v.Le v') : m.Heeds top v' :=
  fun next hnext => (h next hnext).mono hv

/-- A fragment that does nothing consumes no closer. -/
private theorem heeds_pure (a : α) : (pure a : Fragment α).Heeds top v :=
  fun _ hnext => (hnext a).mono v.blind_le

/-- Of two fragments in sequence, the second one need know nothing. -/
theorem Heeds.bind (h : m.Heeds top v) (hf : ∀ a, (f a).Heeds top .blind) :
    (m >>= f).Heeds top v :=
  fun next hnext => h _ fun a => hf a next hnext

/-- Each branch may rely on the condition. -/
private theorem heeds_ite {p : Prop} [Decidable p] {m n : Fragment α} (h : p → m.Heeds top v)
    (h' : ¬ p → n.Heeds top v) : (if p then m else n).Heeds top v := by
  split
  case isTrue hp => exact h hp
  case isFalse hp => exact h' hp

/-! ### Lookaheads -/

/-- A lookahead adds to what is known of the next tokens. -/
private theorem heeds_ahead_bind {n : Nat} {f : Kind → Fragment β}
    (h : ∀ k, v.Allows n k → (f k).Heeds top (v.see n k)) : (ahead n >>= f).Heeds top v :=
  fun next hnext k hk => h k hk next hnext

/-- The current token is known to what follows. -/
private theorem heeds_current_bind {f : Kind → Fragment β}
    (h : ∀ k, v.Allows 0 k → (f k).Heeds top ⟨some k, v.second⟩) : (current >>= f).Heeds top v :=
  heeds_ahead_bind h

/-- In the one branch the token is known to be of the kind, in the other that it is not. -/
private theorem heeds_isAt {m n : Fragment β} (h : m.Heeds top ⟨some k, v.second⟩)
    (h' : ∀ j, v.Allows 0 j → j ≠ k → n.Heeds top ⟨some j, v.second⟩) :
    (isAt k >>= fun b => if b = true then m else n).Heeds top v := by
  refine heeds_ahead_bind (f := fun j => if (j == k) = true then m else n) fun j hj => ?_
  refine heeds_ite (fun hk => ?_) fun hk => ?_
  · rw [beq_iff_eq.mp hk]
    exact h
  · exact h' j hj (by simpa using hk)

/-- In the one branch the token is known to be in the set, in the other that it is not. -/
private theorem heeds_isAtAny {m n : Fragment β}
    (h : ∀ j, v.Allows 0 j → set.contains j = true → m.Heeds top ⟨some j, v.second⟩)
    (h' : ∀ j, v.Allows 0 j → set.contains j = false → n.Heeds top ⟨some j, v.second⟩) :
    (isAtAny set >>= fun b => if b = true then m else n).Heeds top v := by
  refine heeds_ahead_bind (f := fun j => if set.contains j = true then m else n) fun j hj => ?_
  exact heeds_ite (fun hset => h j hj hset) fun hset => h' j hj (by simpa using hset)

/-- The text of a token says nothing about delimiters. -/
private theorem heeds_currentText_bind {f : String → Fragment β} (h : ∀ t, (f t).Heeds top v) :
    (currentText >>= f).Heeds top v := fun next hnext t => h t next hnext

/-- Whether the parse is at its end says nothing about delimiters. -/
private theorem heeds_stopped_bind {f : Bool → Fragment β} (h : ∀ b, (f b).Heeds top v) :
    (stopped >>= f).Heeds top v := fun next hnext b => h b next hnext

/-- Whether steps are left says nothing about delimiters. -/
private theorem heeds_exhausted_bind {f : Bool → Fragment β} (h : ∀ b, (f b).Heeds top v) :
    (exhausted >>= f).Heeds top v := fun next hnext b => h b next hnext

/-- The rule begins with a token that is known. -/
private theorem heeds_entered_bind {f : Unit → Fragment β}
    (h : (f ()).Heeds top ⟨some k, v.second⟩) : (entered k >>= f).Heeds top v := by
  intro next hnext found hfound
  show Script.Heeds top (if found = k then f () next else .fail _) _
  split
  case isTrue hk =>
    rw [hk]
    exact h next hnext
  case isFalse => trivial

/-! ### Tokens -/

/-- A token is consumed that is known not to be the innermost closer. -/
private theorem heeds_bump (h : v.Spares top) : bump.Heeds top v :=
  fun _ hnext => ⟨h, (hnext ()).mono (Glimpse.blind_le _)⟩

/-- A token is consumed that is known not to be the innermost closer. -/
private theorem heeds_bump_bind {f : Unit → Fragment β} (h : v.Spares top)
    (hf : (f ()).Heeds top v.eat) : (bump >>= f).Heeds top v :=
  fun next hnext => ⟨h, hf next hnext⟩

/-- A kind is eaten that is not the innermost closer. -/
private theorem heeds_eat (h : Spares top k) : (eat k).Heeds top v :=
  heeds_isAt (heeds_bump_bind ⟨k, rfl, h⟩ (heeds_pure true)) fun _ _ _ => heeds_pure false

/-- A kind is eaten, if it is there, that is not the innermost closer. -/
private theorem heeds_optionally (h : Spares top k) : (optionally k).Heeds top v :=
  (heeds_eat h).bind fun _ => heeds_pure ()

/-- Flushing consumes nothing, and forgets nothing. -/
private theorem heeds_flush : flush.Heeds top v := fun _ hnext => (hnext ()).mono v.blind_le

/-! ### Complaints -/

/-- A complaint is not about a closer that is missing. -/
private theorem heeds_complain_bind {detail expected : Option String} {f : Unit → Fragment β}
    (hproblem : problem.isStructural = false) (h : (f ()).Heeds top v) :
    (complain problem detail expected >>= f).Heeds top v :=
  fun next hnext => ⟨hproblem, h next hnext⟩

/-- A complaint about something missing is not about a closer. -/
private theorem heeds_missing {what : String} (hproblem : problem.isStructural = false) :
    (missing problem what).Heeds top v := heeds_complain_bind hproblem (heeds_pure ())

/-- A warning is not about a closer that is missing. -/
private theorem heeds_remark_bind {f : Unit → Fragment β} (hproblem : problem.isStructural = false)
    (h : (f ()).Heeds top v) : (remark problem >>= f).Heeds top v :=
  fun next hnext => ⟨hproblem, h next hnext⟩

/-- A kind is expected that is not the innermost closer. -/
private theorem heeds_expect {what : String} (h : Spares top k) : (expect k what).Heeds top v := by
  refine (heeds_eat h).bind fun b => heeds_ite (fun _ => heeds_pure true) fun _ => ?_
  exact heeds_complain_bind rfl (heeds_pure false)

/-- A kind is required that is not the innermost closer. -/
private theorem heeds_require {what : String} (h : Spares top k) : (require k what).Heeds top v :=
  (heeds_expect h).bind fun _ => heeds_pure ()

/-- A name closes nothing. -/
private theorem heeds_identifier {what : String} : (identifier what).Heeds top v :=
  (heeds_eat (spares_of_closes rfl)).bind fun _ =>
    heeds_ite (fun _ => heeds_pure ()) fun _ => heeds_missing rfl

/-! ### Enclosing fragments -/

/-- The body of a node starts with what is known before it. -/
private theorem heeds_node {m : Fragment Unit} (h : m.Heeds top v) : (node k m).Heeds top v :=
  fun _ hnext => ⟨h.unit, hnext ()⟩

/-- The body of a group starts with what is known before it. -/
private theorem heeds_group {m : Fragment Unit} (h : m.Heeds top v) : (group m).Heeds top v :=
  fun _ hnext => ⟨h.unit, hnext ()⟩

/-- The body of what wraps starts with what is known before it. -/
private theorem heeds_wrap {m : Fragment Unit} (h : m.Heeds top v) : (wrap k m).Heeds top v :=
  fun _ hnext => ⟨h.unit, hnext ()⟩

/-- What is on a level starts with what is known before it. -/
private theorem heeds_deeper {m : Fragment Unit} (h : m.Heeds top v) : (deeper m).Heeds top v :=
  fun _ hnext => ⟨h.unit, hnext⟩

/-- Inside the delimiters it is their own closer that must be left alone. -/
private theorem heeds_enclosed {d : Delimiter} {construct : String} {m : Fragment Unit}
    (hopener : v.first = some d.opener) (h : m.Heeds (some d) .blind) :
    (enclosed d construct m).Heeds top v :=
  fun _ hnext => ⟨hopener, by simp, h.unit, hnext ()⟩

/-- As `heeds_enclosed`; the warning about an empty block is no complaint about a closer. -/
private theorem heeds_enclosedNonempty {d : Delimiter} {construct : String} {ifEmpty : Problem}
    {m : Fragment Bool} (hopener : v.first = some d.opener)
    (hproblem : ifEmpty.isStructural = false) (h : m.Heeds (some d) .blind) :
    (enclosedNonempty d construct ifEmpty m).Heeds top v :=
  fun _ hnext => ⟨hopener, by simpa using hproblem, h.script, hnext ()⟩

/-- A rule is called where it fits. -/
private theorem heeds_ask (rule : Rule) (h : rule.Fits top v) : (ask rule).Heeds top v :=
  fun _ hnext => ⟨h, hnext⟩

/-- A rule is called where it fits. -/
private theorem heeds_call (rule : Rule) (h : rule.Fits top v) : (call rule).Heeds top v :=
  fun _ hnext => ⟨h, fun _ => hnext ()⟩

/-- What is set aside has no closer. -/
private theorem heeds_setAside {what : String} {stops : TokenSet} {rest : Fragment Unit}
    (hproblem : problem.isStructural = false) (h : v.Spares top)
    (hstops : ∀ d, top = some d → stops.contains d.closer = true)
    (hrest : rest.Heeds top .blind) : (setAside problem what stops rest).Heeds top v :=
  heeds_node (heeds_complain_bind hproblem
    ((heeds_bump h).bind fun _ => (heeds_call (.discard stops) hstops).bind fun _ => hrest))

end Fragment

/-! ## The rules -/

namespace Grammar

open Fragment

variable {top : Option Delimiter} {v : Glimpse}

/-- A known token that closes nothing. -/
private theorem spares_of_first {k : Kind} {second : Option Kind} (h : k.closes = none) :
    Glimpse.Spares ⟨some k, second⟩ top := ⟨k, rfl, spares_of_closes h⟩

/-- A token of a set without closers. -/
private theorem spares_of_set {set : TokenSet} {k : Kind} {second : Option Kind}
    (h : set.contains k = true) (hset : set.closesNothing = true) :
    Glimpse.Spares ⟨some k, second⟩ top := ⟨k, rfl, spares_of_contains h hset⟩

/-! ### Types -/

/-- The rest of a union leaves the innermost closer alone. -/
private theorem heeds_unionTail : unionTail.Heeds top v :=
  (heeds_eat (spares_of_closes rfl)).bind fun _ => heeds_ite
    (fun _ => (heeds_call .typeName trivial).bind fun _ => heeds_call .unionTail trivial)
    fun _ => heeds_pure ()

/-- A list of types leaves the innermost closer alone. -/
private theorem heeds_typeList : typeList.Heeds top v :=
  heeds_node ((heeds_call .typeName trivial).bind fun _ => heeds_call .unionTail trivial)

/-- The rest of a list of type arguments leaves the innermost closer alone. -/
private theorem heeds_typeArgTail : typeArgTail.Heeds top v :=
  (heeds_eat (spares_of_closes rfl)).bind fun _ => heeds_ite
    (fun _ => (heeds_call .typeList trivial).bind fun _ => heeds_call .typeArgTail trivial)
    fun _ => heeds_pure ()

/-- The brackets of type arguments are no delimiters. -/
private theorem heeds_typeArgs {second : Option Kind} : typeArgs.Heeds top ⟨some .less, second⟩ :=
  heeds_node ((heeds_bump (spares_of_first rfl)).bind fun _ => (heeds_call .typeList trivial).bind
    fun _ => (heeds_call .typeArgTail trivial).bind fun _ => heeds_require (spares_of_closes rfl))

/-- The name of a type leaves the innermost closer alone. -/
private theorem heeds_typeName : typeName.Heeds top v := by
  have hname {second : Option Kind} : (node .typeName do
      bump
      if ← isAt .less then typeArgs).Heeds top ⟨some .identifier, second⟩ :=
    heeds_node ((heeds_bump (spares_of_first rfl)).bind fun _ =>
      heeds_isAt heeds_typeArgs fun _ _ _ => heeds_pure ())
  exact heeds_isAt ((heeds_deeper hname).bind fun _ => heeds_pure ())
    fun _ _ _ => heeds_missing rfl

/-! ### Lists -/

/-- An element begins with a token of `ListForm.first`, which closes nothing. -/
private theorem heeds_element (form : ListForm) {k : Kind} {second : Option Kind}
    (hk : form.first.contains k = true) : (call form.element).Heeds top ⟨some k, second⟩ := by
  cases form with
  | params => exact heeds_call .param (spares_of_set hk (by decide))
  | record => exact heeds_call .recordProp (spares_of_set hk (by decide))
  | callArgs => exact heeds_call .expr trivial
  | array => exact heeds_call .expr trivial

/-- The loop goes on behind a comma, and stops at what begins no element. -/
private theorem heeds_elements (form : ListForm) : (elements form).Heeds top v := by
  -- The next round knows nothing of its front.
  have hmore : (call (.elements form)).Heeds top .blind := heeds_call (.elements form) trivial
  refine heeds_stopped_bind fun b => heeds_ite (fun _ => heeds_pure ()) fun _ => ?_
  refine heeds_current_bind fun k _ => heeds_ite (fun _ => heeds_pure ()) fun _ => ?_
  refine heeds_ite (fun hfirst => ?_) fun _ => heeds_ite (fun _ => heeds_pure ()) fun hstop => ?_
  · refine (heeds_element form hfirst).bind fun _ => (heeds_eat (spares_of_closes rfl)).bind
      fun _ => heeds_ite (fun _ => hmore) fun _ => heeds_isAtAny (fun _ _ _ => ?_) fun _ _ _ =>
        heeds_pure ()
    exact (heeds_require (spares_of_closes rfl)).bind fun _ => hmore
  · -- Lists stop at closers, so a token that is set aside is none.
    have hspares : Spares top k :=
      spares_of_not_contains (by simpa using hstop) fun d _ => by cases d <;> rfl
    refine heeds_complain_bind ?_ ((heeds_node (heeds_bump ⟨k, rfl, hspares⟩)).bind fun _ => hmore)
    cases form <;> rfl

/-- A list has delimiters of its own, which hide the ones around it. -/
private theorem heeds_delimited (form : ListForm) : (delimited form).Heeds top v :=
  heeds_entered_bind (heeds_enclosed rfl (heeds_call (.elements form) trivial))

/-! ### Expressions -/

/-- A property of a record begins with a token that is not the innermost closer, and consumes no
    other. -/
private theorem heeds_recordProp (h : v.Spares top) : recordProp.Heeds top v :=
  heeds_node ((heeds_bump h).bind fun _ => (heeds_expect (spares_of_closes rfl)).bind fun _ =>
    heeds_ite (fun _ => heeds_call .expr trivial) fun _ => heeds_pure ())

/-- What begins with a name leaves the innermost closer alone, given the token that it begins
    with. -/
private theorem heeds_namePrimary {second : Option Kind} :
    namePrimary.Heeds top ⟨some .identifier, second⟩ := by
  -- Both literals are lists after a name.
  have hnamed (k : Kind) (form : ListForm) {second : Option Kind} : (node k do
      bump
      delimited form).Heeds top ⟨some .identifier, second⟩ :=
    heeds_node ((heeds_bump (spares_of_first rfl)).bind fun _ => heeds_delimited form)
  have hother {second : Option Kind} : (do
      if (← ahead 1) = .lCurly then
        node .recordLiteral do
          bump
          delimited .record
      else node .nameRef bump : Fragment Unit).Heeds top ⟨some .identifier, second⟩ :=
    heeds_ahead_bind fun k _ => heeds_ite (fun _ => hnamed .recordLiteral .record)
      fun _ => heeds_node (heeds_bump (spares_of_first rfl))
  refine heeds_ahead_bind fun k _ => heeds_ite (fun _ => heeds_currentText_bind fun t => ?_)
    fun _ => hother
  exact heeds_ite (fun _ => hnamed .arrayLiteral .array) fun _ => hother

/-- Telling a function from an expression in parentheses leaves the first token known. -/
private theorem heeds_atFnLiteral_bind {β : Type} {f : Bool → Fragment β} {k : Kind}
    (h : ∀ b second, (f b).Heeds top ⟨some k, second⟩) {second : Option Kind} :
    (atFnLiteral >>= f).Heeds top ⟨some k, second⟩ := by
  rw [atFnLiteral, Fragment.bind_assoc]
  refine heeds_ahead_bind fun k₁ _ => ?_
  -- Up to three tokens are seen, and none is consumed.
  split
  · exact h true _
  · rw [Fragment.bind_assoc]
    refine heeds_ahead_bind fun k₂ _ => ?_
    split
    · rw [Fragment.bind_assoc]
      exact heeds_ahead_bind fun k₃ _ => h _ _
    · exact h false _
  · exact h false _

/-- A primary expression opens with a token that closes nothing, and has its own delimiters. -/
private theorem heeds_primary : primary.Heeds top v := by
  refine heeds_current_bind fun k _ => ?_
  split
  · exact heeds_namePrimary
  · exact heeds_node ((heeds_bump (spares_of_first rfl)).bind fun _ => heeds_identifier)
  · exact heeds_node (heeds_delimited .record)
  · exact heeds_node (heeds_delimited .array)
  · refine heeds_atFnLiteral_bind fun b _ =>
      heeds_ite (fun _ => heeds_node (heeds_call .fnTail trivial)) fun _ => ?_
    exact heeds_node (heeds_enclosed rfl (heeds_call .expr trivial))
  · refine heeds_ite (fun hliteral => ?_) fun _ => heeds_missing rfl
    exact heeds_node (heeds_bump (spares_of_set hliteral (by decide)))

/-- The tokens that an accessor was recognized by. -/
def Accessor.glimpse : Accessor → Glimpse
  | field => ⟨some .dot, none⟩
  | static => ⟨some .colon, some .colon⟩
  | index => ⟨some .lBracket, none⟩
  | arguments => ⟨some .lParen, none⟩
  | nonNull => ⟨some .exclMark, none⟩

/-- Which accessor comes is told by tokens that are only looked at. -/
private theorem heeds_accessorHere_bind {β : Type} {f : Option Accessor → Fragment β}
    (hnone : (f none).Heeds top .blind) (hsome : ∀ a, (f (some a)).Heeds top a.glimpse) :
    (accessorHere >>= f).Heeds top v := by
  rw [accessorHere, Fragment.bind_assoc]
  refine heeds_current_bind fun k _ => ?_
  have hfirst {k : Kind} (a : Accessor) (ha : a.glimpse = ⟨some k, none⟩) :
      (f (some a)).Heeds top ⟨some k, v.second⟩ :=
    (hsome a).mono (by rw [ha]; exact ⟨fun _ => id, by simp⟩)
  -- Each accessor has its first token in front; a static one needs two.
  split
  · exact hfirst .field rfl
  · rw [Fragment.bind_assoc]
    refine heeds_ahead_bind fun k hk => ?_
    split
    · next hcolon =>
      subst hcolon
      exact hsome .static
    · exact hnone.mono (Glimpse.blind_le _)
  · exact hfirst .index rfl
  · exact hfirst .arguments rfl
  · exact hfirst .nonNull rfl
  · exact hnone.mono (Glimpse.blind_le _)

/-- The name behind a dot leaves the innermost closer alone. -/
private theorem heeds_memberName (after : String) : (memberName after).Heeds top v :=
  heeds_isAtAny (fun _ _ hset => heeds_bump (spares_of_set hset (by decide)))
    fun _ _ _ => heeds_missing rfl

/-- An accessor leaves the innermost closer alone. -/
private theorem heeds_accessor (a : Accessor) : (accessor a).Heeds top a.glimpse := by
  refine heeds_node ?_
  cases a with
  | field => exact (heeds_bump (spares_of_first rfl)).bind fun _ => heeds_memberName _
  | static =>
    exact heeds_bump_bind (spares_of_first rfl)
      ((heeds_bump (spares_of_first rfl)).bind fun _ => heeds_memberName _)
  | index => exact heeds_enclosed rfl (heeds_call .expr trivial)
  | arguments => exact heeds_delimited .callArgs
  | nonNull => exact heeds_bump (spares_of_first rfl)

/-- Each accessor opens with a token that closes nothing, and has its own delimiters. -/
private theorem heeds_accessors (wrapped : Bool) : (accessors wrapped).Heeds top v := by
  have hmore (a : Accessor) : (do
      accessor a
      call (.accessors true) : Fragment Unit).Heeds top a.glimpse :=
    (heeds_accessor a).bind fun _ => heeds_call (.accessors true) trivial
  refine heeds_accessorHere_bind (heeds_pure ()) fun a => ?_
  exact heeds_ite (fun _ => hmore a) fun _ => heeds_wrap (hmore a)

/-- An operand ends before any closer that it did not open. -/
private theorem heeds_operand : operand.Heeds top v := by
  have hnew {second : Option Kind} : (node .memberExpr do
      bump
      call .primary
      call (.accessors true)).Heeds top ⟨some .kwNew, second⟩ :=
    heeds_node ((heeds_bump (spares_of_first rfl)).bind fun _ => (heeds_call .primary trivial).bind
      fun _ => heeds_call (.accessors true) trivial)
  have hmember : member.Heeds top v := heeds_group (heeds_isAt hnew fun _ _ _ =>
    (heeds_call .primary trivial).bind fun _ => heeds_call (.accessors false) trivial)
  exact heeds_group (hmember.bind fun _ => heeds_isAtAny
    (fun _ _ hset => heeds_wrap (heeds_bump (spares_of_set hset (by decide))))
    fun _ _ _ => heeds_pure ())

/-- What a prefix operator applies to leaves the innermost closer alone. -/
private theorem heeds_prefixOperand : prefixOperand.Heeds top v :=
  heeds_isAtAny (fun _ _ _ => heeds_call .operand trivial) fun _ _ _ =>
    heeds_exhausted_bind fun _ => heeds_ite (fun _ => heeds_pure ()) fun _ => heeds_missing rfl

/-- A prefix operator closes nothing. -/
private theorem heeds_prefixes (count : Nat) : (prefixes count).Heeds top v := by
  refine heeds_isAtAny (fun k _ hset => ?_) fun _ _ _ => heeds_prefixOperand
  have hnode : (node .prefixExpr do
      bump
      call (.prefixes (count + 1))).Heeds top ⟨some k, v.second⟩ :=
    heeds_node ((heeds_bump (spares_of_set hset (by decide))).bind fun _ =>
      heeds_call (.prefixes (count + 1)) trivial)
  have hdeeper := (heeds_deeper hnode).bind (f := fun granted => do
    unless granted do prefixOperand) fun _ =>
      heeds_ite (fun _ => heeds_pure ()) fun _ => heeds_prefixOperand
  exact heeds_ite (fun _ => heeds_complain_bind rfl hdeeper) fun _ => hdeeper

/-- A binary operator closes nothing. -/
private theorem heeds_chain : chain.Heeds top v := by
  have hunary : unary.Heeds top v := heeds_isAtAny
    (fun _ _ _ => heeds_call (.prefixes 0) trivial) fun _ _ _ => heeds_call .operand trivial
  refine hunary.bind fun _ => heeds_current_bind fun k _ => heeds_ite (fun hset => ?_) fun _ =>
    heeds_ite (fun his => ?_) fun _ => heeds_pure ()
  · refine (heeds_deeper (heeds_wrap ?_)).bind fun _ => heeds_pure ()
    exact (heeds_bump (spares_of_set hset (by decide))).bind fun _ => heeds_isAtAny
      (fun _ _ _ => heeds_group (heeds_call .chain trivial)) fun _ _ _ => heeds_missing rfl
  · subst his
    refine heeds_wrap ((heeds_bump (spares_of_first rfl)).bind fun _ =>
      (heeds_eat (spares_of_closes rfl)).bind fun _ => ?_)
    exact heeds_ite (fun _ => heeds_pure ()) fun _ => heeds_missing rfl

/-- An expression leaves the innermost closer alone. -/
private theorem heeds_expr : expr.Heeds top v :=
  heeds_isAtAny (fun _ _ _ => (heeds_deeper (heeds_group (heeds_call .chain trivial))).bind
    fun _ => heeds_pure ()) fun _ _ _ => heeds_missing rfl

/-! ### Statements -/

/-- An initializer leaves the innermost closer alone. -/
private theorem heeds_initializer : initializer.Heeds top v :=
  heeds_entered_bind (heeds_node ((heeds_bump (spares_of_first rfl)).bind fun _ =>
    heeds_call .expr trivial))

/-- A semicolon closes nothing. -/
private theorem heeds_semicolon : (optionally .semiColon).Heeds top v :=
  heeds_optionally (spares_of_closes rfl)

/-- An expression as a statement leaves the innermost closer alone. -/
private theorem heeds_exprStmt (terminated : Bool) : (exprStmt terminated).Heeds top v :=
  heeds_node ((heeds_call .expr trivial).bind fun _ =>
    heeds_ite (fun _ => heeds_semicolon) fun _ => heeds_pure ())

/-- What begins no statement is set aside up to a brace that closes, at the latest. -/
private theorem heeds_recoverStatement (h : v.Spares top) (htop : Shallow top) :
    recoverStatement.Heeds top v :=
  heeds_setAside rfl h (htop.contains (by decide)) heeds_semicolon

/-- A block has braces of its own, and inside them at most braces are open. -/
private theorem heeds_block : block.Heeds top v :=
  heeds_node (heeds_isAt ((heeds_enclosedNonempty rfl rfl
    (heeds_ask (.statements false) shallow_curly)).bind fun _ => heeds_semicolon)
    fun _ _ _ => heeds_require (spares_of_closes rfl))

/-- A body has braces of its own, and inside them at most braces are open. -/
private theorem heeds_body : body.Heeds top v :=
  heeds_node (heeds_isAt (heeds_enclosed rfl (heeds_call (.statements false) shallow_curly))
    fun _ _ _ => heeds_require (spares_of_closes rfl))

/-- In a condition the parenthesis is consumed without being noted as a delimiter, so no
    parenthesis may be innermost. -/
private theorem heeds_condition (htop : Shallow top) (keyword : String) :
    (condition keyword).Heeds top v :=
  (heeds_require (spares_of_closes rfl)).bind fun _ => (heeds_call .expr trivial).bind fun _ =>
    heeds_require (htop.spares (by decide))

/-- An `if` statement leaves the innermost closer alone where at most braces are open. -/
private theorem heeds_ifStmt (htop : Shallow top) (terminated : Bool) :
    (ifStmt terminated).Heeds top v := by
  -- A condition in parentheses and a block, then perhaps an `else`.
  have hif {second : Option Kind} : (do
      let _ ← deeper (call (.ifStmt false)) : Fragment Unit).Heeds top ⟨some .kwIf, second⟩ :=
    (heeds_deeper (heeds_call (.ifStmt false) htop)).bind fun _ => heeds_pure ()
  have helse {second : Option Kind} : (node .elseClause do
      bump
      if ← isAt .kwIf then
        let _ ← deeper (call (.ifStmt false))
      else call .body).Heeds top ⟨some .kwElse, second⟩ :=
    heeds_node ((heeds_bump (spares_of_first rfl)).bind fun _ =>
      heeds_isAt hif fun _ _ _ => heeds_call .body trivial)
  have hend {v : Glimpse} : (do
      if terminated then optionally .semiColon : Fragment Unit).Heeds top v :=
    heeds_ite (fun _ => heeds_semicolon) fun _ => heeds_pure ()
  exact heeds_entered_bind (heeds_node ((heeds_bump (spares_of_first rfl)).bind fun _ =>
    (heeds_condition htop _).bind fun _ => (heeds_call .body trivial).bind fun _ =>
      heeds_isAt (helse.bind fun _ => hend) fun _ _ _ => hend))

/-- A `while` statement leaves the innermost closer alone where at most braces are open. -/
private theorem heeds_whileStmt (htop : Shallow top) {second : Option Kind} :
    whileStmt.Heeds top ⟨some .kwWhile, second⟩ :=
  heeds_node ((heeds_bump (spares_of_first rfl)).bind fun _ => (heeds_condition htop _).bind
    fun _ => (heeds_call .body trivial).bind fun _ => heeds_semicolon)

/-- A `for` statement leaves the innermost closer alone where at most braces are open. -/
private theorem heeds_forStmt (htop : Shallow top) {second : Option Kind} :
    forStmt.Heeds top ⟨some .kwFor, second⟩ := by
  -- The last part of the header and the block.
  have hend : (do
      require .rParen "`)` to close the loop header"
      call .body
      optionally .semiColon : Fragment Unit).Heeds top .blind :=
    (heeds_require (htop.spares (by decide))).bind fun _ => (heeds_call .body trivial).bind
      fun _ => heeds_semicolon
  have hupdate {v : Glimpse} : (do
      if ← isAtAny .exprFirst then exprStmt false
      else missing .expectedExpression "a loop update"
      require .rParen "`)` to close the loop header"
      call .body
      optionally .semiColon : Fragment Unit).Heeds top v :=
    heeds_isAtAny (fun _ _ _ => (heeds_exprStmt false).bind fun _ => hend)
      fun _ _ _ => (heeds_missing rfl).bind fun _ => hend
  exact heeds_node ((heeds_bump (spares_of_first rfl)).bind fun _ =>
    (heeds_require (spares_of_closes rfl)).bind fun _ => heeds_identifier.bind fun _ =>
    (heeds_require (spares_of_closes rfl)).bind fun _ => (heeds_call .expr trivial).bind fun _ =>
    (heeds_require (spares_of_closes rfl)).bind fun _ => (heeds_call .expr trivial).bind fun _ =>
    (heeds_require (spares_of_closes rfl)).bind fun _ => hupdate)

/-- The recovery from a missing variable leaves the innermost closer alone where at most braces are
    open. -/
private theorem heeds_missingVariable (htop : Shallow top) : missingVariable.Heeds top v :=
  heeds_isAtAny (fun _ _ _ => heeds_missing rfl) fun _ _ _ => heeds_stopped_bind fun _ =>
    heeds_ite (fun _ => heeds_missing rfl) fun _ => heeds_node ((heeds_missing rfl).bind fun _ =>
      heeds_call (.skipTo .varNameRecovery) (htop.contains (by decide)))

/-- A declaration of a variable leaves the innermost closer alone where at most braces are open. -/
private theorem heeds_varStmt (htop : Shallow top) {second : Option Kind} :
    varStmt.Heeds top ⟨some .kwVar, second⟩ := by
  -- The value and the type are optional.
  have hvalue {v : Glimpse} : (do
      if ← isAt .eq then call .initializer
      optionally .semiColon : Fragment Unit).Heeds top v :=
    heeds_isAt ((heeds_call .initializer trivial).bind fun _ => heeds_semicolon)
      fun _ _ _ => heeds_semicolon
  have htype {v : Glimpse} : (do
      if ← eat .colon then call .typeList
      if ← isAt .eq then call .initializer
      optionally .semiColon : Fragment Unit).Heeds top v :=
    (heeds_eat (spares_of_closes rfl)).bind fun _ => heeds_ite
      (fun _ => (heeds_call .typeList trivial).bind fun _ => hvalue) fun _ => hvalue
  exact heeds_node ((heeds_bump (spares_of_first rfl)).bind fun _ =>
    (heeds_eat (spares_of_closes rfl)).bind fun _ => heeds_ite (fun _ => htype)
      fun _ => (heeds_missingVariable htop).bind fun _ => htype)

/-- A `return` statement closes nothing that it did not open. -/
private theorem heeds_returnStmt {second : Option Kind} :
    returnStmt.Heeds top ⟨some .kwReturn, second⟩ :=
  heeds_node ((heeds_bump (spares_of_first rfl)).bind fun _ => (heeds_call .expr trivial).bind
    fun _ => heeds_semicolon)

/-- Whether a record begins is told by tokens that are only looked at. -/
private theorem heeds_atRecordBody_bind {β : Type} {f : Bool → Fragment β}
    (h : ∀ b, (f b).Heeds top .blind) : (atRecordBody >>= f).Heeds top v := by
  rw [atRecordBody, Fragment.bind_assoc]
  refine heeds_ahead_bind fun k _ => ?_
  split
  · rw [Fragment.bind_assoc]
    refine heeds_ahead_bind fun k _ => ?_
    split
    · rw [Fragment.bind_assoc]
      exact heeds_ahead_bind fun k _ => (h _).mono (Glimpse.blind_le _)
    · exact (h _).mono (Glimpse.blind_le _)
  · exact (h _).mono (Glimpse.blind_le _)

/-- A statement takes what is not the innermost closer, where at most braces are open. -/
private theorem heeds_statement (htop : Shallow top) (h : v.Spares top) :
    statement.Heeds top v := by
  obtain ⟨k₀, hfirst, hspares⟩ := h
  refine (heeds_deeper (heeds_current_bind fun k hk => ?_)).bind fun _ => heeds_pure ()
  -- The current kind is the one the glimpse shows, so what spares the closer is known of it.
  obtain rfl := hk rfl k₀ hfirst
  split
  · exact heeds_atRecordBody_bind fun _ => heeds_ite (fun _ => heeds_exprStmt true)
      fun _ => heeds_call .block trivial
  · exact heeds_call (.ifStmt true) htop
  · exact heeds_whileStmt htop
  · exact heeds_forStmt htop
  · exact heeds_varStmt htop
  · exact heeds_returnStmt
  · exact heeds_ite (fun _ => heeds_exprStmt true)
      fun _ => heeds_recoverStatement ⟨k, rfl, hspares⟩ htop

/-- The loop stops at a brace that closes, and no other closer is innermost. -/
private theorem heeds_statements (htop : Shallow top) (seen : Bool) :
    (statements seen).Heeds top v := by
  refine heeds_stopped_bind fun b => heeds_ite (fun _ => heeds_pure seen) fun _ => ?_
  refine heeds_current_bind fun k _ => ?_
  split
  · exact heeds_pure seen
  -- A semicolon closes nothing.
  · exact heeds_remark_bind rfl ((heeds_bump (spares_of_first rfl)).bind fun _ =>
      heeds_ask (.statements seen) htop)
  · exact heeds_complain_bind rfl ((heeds_call .fnDecl trivial).bind fun _ =>
      heeds_ask (.statements true) htop)
  · exact heeds_complain_bind rfl ((heeds_call .typeDecl trivial).bind fun _ =>
      heeds_ask (.statements true) htop)
  · exact heeds_complain_bind rfl ((heeds_call .typeDecl trivial).bind fun _ =>
      heeds_ask (.statements true) htop)
  · exact heeds_complain_bind rfl ((heeds_call .importDecl trivial).bind fun _ =>
      heeds_ask (.statements seen) htop)
  · next hcurly _ _ _ _ _ =>
    -- A curly closer has ended the list above, and no other closer matters here: the list stands in
    -- a block or on no delimiter.
    have hspares : Spares top k := htop.spares fun h => hcurly h
    exact heeds_ite
      (fun _ => (heeds_call .statement ⟨htop, k, rfl, hspares⟩).bind fun _ =>
        heeds_ask (.statements true) htop)
      fun _ => (heeds_recoverStatement ⟨k, rfl, hspares⟩ htop).bind fun _ =>
        heeds_ask (.statements seen) htop

/-! ### Declarations -/

/-- The type behind a colon leaves the innermost closer alone. -/
private theorem heeds_ascription {what : String} : (ascription what).Heeds top v :=
  (heeds_expect (spares_of_closes rfl)).bind fun _ => heeds_ite
    (fun _ => heeds_call .typeList trivial)
    fun _ => heeds_isAt (heeds_call .typeList trivial) fun _ _ _ => heeds_pure ()

/-- A parameter begins with a token that is not the innermost closer, and consumes no other. -/
private theorem heeds_param (h : v.Spares top) : param.Heeds top v :=
  heeds_node ((heeds_bump h).bind fun _ => heeds_ascription)

/-- The tail of a declaration of a function leaves the innermost closer alone. -/
private theorem heeds_fnTail : fnTail.Heeds top v := by
  have hend : (do
      if ← eat .colon then call .typeList
      call .body : Fragment Unit).Heeds top .blind :=
    (heeds_eat (spares_of_closes rfl)).bind fun _ => heeds_ite
      (fun _ => (heeds_call .typeList trivial).bind fun _ => heeds_call .body trivial)
      fun _ => heeds_call .body trivial
  exact heeds_isAt ((heeds_node (heeds_delimited .params)).bind fun _ => hend)
    fun _ _ _ => (heeds_require (spares_of_closes rfl)).bind fun _ => hend

/-- A declaration of a function leaves the innermost closer alone. -/
private theorem heeds_fnDecl : fnDecl.Heeds top v :=
  heeds_entered_bind (heeds_node ((heeds_bump (spares_of_first rfl)).bind fun _ =>
    heeds_identifier.bind fun _ => heeds_call .fnTail trivial))

/-- A declaration of an attribute leaves the innermost closer alone, given the token that it begins
    with. -/
private theorem heeds_attrDecl {second : Option Kind} :
    attrDecl.Heeds top ⟨some .identifier, second⟩ :=
  heeds_node ((heeds_bump (spares_of_first rfl)).bind fun _ => heeds_ascription.bind fun _ =>
    heeds_isAt (heeds_call .initializer trivial) fun _ _ _ => heeds_pure ())

/-- What a member declares, after its modifiers. -/
private theorem heeds_declaration :
    (current >>= fun k =>
      match k with
      | .kwFunction => call .fnDecl >>= fun _ => optionally .semiColon
      | .identifier => attrDecl >>= fun _ => optionally .semiColon
      | _ => missing .expectedIdentifier "an attribute or function declaration" >>= fun _ =>
          optionally .semiColon).Heeds top v := by
  refine heeds_current_bind fun k _ => ?_
  split
  · exact (heeds_call .fnDecl trivial).bind fun _ => heeds_semicolon
  · exact heeds_attrDecl.bind fun _ => heeds_semicolon
  · exact (heeds_missing rfl).bind fun _ => heeds_semicolon

/-- A member of a type leaves the innermost closer alone. -/
private theorem heeds_typeMember : typeMember.Heeds top v := by
  refine heeds_node (heeds_current_bind fun k _ => ?_)
  split
  · exact (heeds_bump (spares_of_first rfl)).bind fun _ =>
      (heeds_optionally (spares_of_closes rfl)).bind fun _ => heeds_declaration
  · exact (heeds_bump (spares_of_first rfl)).bind fun _ =>
      (heeds_optionally (spares_of_closes rfl)).bind fun _ => heeds_declaration
  · exact heeds_declaration

/-- The loop stops at a brace that closes, and no other closer is innermost. -/
private theorem heeds_members (htop : Shallow top) : members.Heeds top v := by
  have hmore : (call .members).Heeds top .blind := heeds_call .members htop
  refine heeds_stopped_bind fun b => heeds_ite (fun _ => heeds_pure ()) fun _ => ?_
  refine heeds_current_bind fun k _ => ?_
  split
  · exact heeds_pure ()
  · exact heeds_remark_bind rfl ((heeds_bump (spares_of_first rfl)).bind fun _ => hmore)
  · next hcurly _ =>
    refine heeds_ite (fun _ => (heeds_call .member trivial).bind fun _ => hmore) fun _ => ?_
    have hspares : Spares top k := htop.spares fun h => hcurly h
    exact (heeds_setAside rfl ⟨k, rfl, hspares⟩ (htop.contains (by decide))
      heeds_semicolon).bind fun _ => hmore

/-- A declaration of a type leaves the innermost closer alone. -/
private theorem heeds_typeDecl : typeDecl.Heeds top v :=
  heeds_node ((heeds_optionally (spares_of_closes rfl)).bind fun _ =>
    (heeds_require (spares_of_closes rfl)).bind fun _ => heeds_identifier.bind fun _ =>
    heeds_isAt (heeds_enclosed rfl (heeds_call .members shallow_curly))
      fun _ _ _ => heeds_require (spares_of_closes rfl))

/-! ### Programs -/

/-- An import leaves the innermost closer alone. -/
private theorem heeds_importDecl : importDecl.Heeds top v :=
  heeds_entered_bind (heeds_node ((heeds_bump (spares_of_first rfl)).bind fun _ =>
    heeds_isAtAny
      (fun _ _ hset => (heeds_bump (spares_of_set hset (by decide))).bind fun _ => heeds_semicolon)
      fun _ _ _ => (heeds_missing rfl).bind fun _ => heeds_semicolon))

/-- At the top level there is no delimiter, and every token may be consumed. -/
private theorem spares_none {k : Kind} : Spares none k := by
  rintro d hd
  cases hd

/-- Outside of all delimiters any closer may be set aside. -/
private theorem heeds_item : item.Heeds none v := by
  refine heeds_current_bind fun k _ => ?_
  split
  · exact heeds_call .fnDecl trivial
  · exact heeds_call .typeDecl trivial
  · exact heeds_call .typeDecl trivial
  · exact heeds_complain_bind rfl (heeds_call .importDecl trivial)
  · exact heeds_ite (fun _ => heeds_call .statement ⟨shallow_none, k, rfl, spares_none⟩)
      fun _ => heeds_setAside rfl ⟨k, rfl, spares_none⟩ (by simp) (heeds_pure ())

/-- The loop over imports leaves the innermost closer alone. -/
private theorem heeds_imports : imports.Heeds top v :=
  heeds_stopped_bind fun _ => heeds_ite (fun _ => heeds_pure ()) fun _ => heeds_isAt
    ((heeds_call .importDecl trivial).bind fun _ => heeds_call .imports trivial)
    fun _ _ _ => heeds_pure ()

/-- The loop over items stands in no delimiter, so there is no closer to leave alone. -/
private theorem heeds_items : items.Heeds none v := by
  have hmore : (call .items).Heeds none .blind := heeds_call .items rfl
  exact heeds_stopped_bind fun _ => heeds_ite (fun _ => heeds_pure ()) fun _ => heeds_isAt
    (heeds_remark_bind rfl ((heeds_bump (spares_of_first rfl)).bind fun _ => hmore))
    fun _ _ _ => (heeds_call .item rfl).bind fun _ => heeds_semicolon.bind fun _ => hmore

/-- The program stands in no delimiter, so there is no closer to leave alone. -/
private theorem heeds_program : program.Heeds none v :=
  (heeds_call .imports trivial).bind fun _ => (heeds_call .items rfl).bind fun _ => heeds_flush

/-- The loop ends at the closer of the innermost delimiter, if that is one of the stops. -/
private theorem heeds_discard {stops : TokenSet}
    (hstops : ∀ d, top = some d → stops.contains d.closer = true) :
    (discard stops).Heeds top v := by
  refine heeds_stopped_bind fun _ => heeds_ite (fun _ => heeds_pure ()) fun _ => heeds_isAtAny
    (fun _ _ _ => heeds_pure ()) fun k _ hset => ?_
  exact (heeds_bump ⟨k, rfl, spares_of_not_contains hset hstops⟩).bind fun _ =>
    heeds_call (.discard stops) hstops

/-- Nothing is skipped beyond the closer of the innermost delimiter, if that is one of the stops. -/
private theorem heeds_skipTo {stops : TokenSet}
    (hstops : ∀ d, top = some d → stops.contains d.closer = true) :
    (skipTo stops).Heeds top v := by
  refine heeds_isAtAny (fun _ _ _ => heeds_pure ()) fun k _ hset => heeds_stopped_bind fun _ =>
    heeds_ite (fun _ => heeds_pure ()) fun _ => ?_
  exact (heeds_bump ⟨k, rfl, spares_of_not_contains hset hstops⟩).bind fun _ =>
    heeds_call (.skipTo stops) hstops

end Grammar

namespace Rule

open Grammar

/-- Every rule leaves the closer of the innermost delimiter to the rule that opened it. -/
theorem heeds {rule : Rule} {top : Option Delimiter} {v : Glimpse} (h : rule.Fits top v) :
    rule.script.Heeds top v := by
  -- One lemma for each rule; some need to know the delimiter they stand in.
  cases rule with
  | program =>
    obtain rfl := h
    exact heeds_program.unit
  | imports => exact heeds_imports.unit
  | items =>
    obtain rfl := h
    exact heeds_items.unit
  | item =>
    obtain rfl := h
    exact heeds_item.unit
  | importDecl => exact heeds_importDecl.unit
  | fnDecl => exact heeds_fnDecl.unit
  | fnTail => exact heeds_fnTail.unit
  | param => exact (heeds_param h).unit
  | typeDecl => exact heeds_typeDecl.unit
  | members => exact (heeds_members h).unit
  | member => exact heeds_typeMember.unit
  | statements seen => exact (heeds_statements h seen).script
  | statement => exact (heeds_statement h.1 h.2).unit
  | block => exact heeds_block.unit
  | body => exact heeds_body.unit
  | ifStmt terminated => exact (heeds_ifStmt h terminated).unit
  | initializer => exact heeds_initializer.unit
  | expr => exact heeds_expr.unit
  | chain => exact heeds_chain.unit
  | prefixes count => exact (heeds_prefixes count).unit
  | operand => exact heeds_operand.unit
  | accessors wrapped => exact (heeds_accessors wrapped).unit
  | primary => exact heeds_primary.unit
  | elements form => exact (heeds_elements form).unit
  | recordProp => exact (heeds_recordProp h).unit
  | typeList => exact heeds_typeList.unit
  | unionTail => exact heeds_unionTail.unit
  | typeName => exact heeds_typeName.unit
  | typeArgTail => exact heeds_typeArgTail.unit
  | discard stops => exact (heeds_discard h).unit
  | skipTo stops => exact (heeds_skipTo h).unit

end Rule

end ScriptTree
