import ScriptTree.Proofs.Closers
import ScriptTree.Proofs.Discipline

/-!
# When rules complain

A complaint is dropped if the last report was about the same place.  The report on an empty block is
about its opener, so after it the parse has forgotten what it reported before.  That does no harm
unless the block is unclosed: then it is the end of the source that may be reported once more.

`Script.Careful` walks through a script and checks that at a forgotten end nothing is complained
about, and nothing is done but to close the braces outside.  It also checks what complaints are
about: those that do not say what is missing are about a token that opens nothing, or about one that
is consumed next.

## Key results

- `Rule.careful`: all rules keep to this
-/

namespace ScriptTree

namespace Problem

/-- The problem is reported about the current token, or about the end of the source. -/
def isPointed (problem : Problem) : Bool :=
  !(problem.isLexical || problem.isStructural || problem == emptyBlock)

/-- The problem is one that the grammar complains about. -/
def isComplaint (problem : Problem) : Bool := problem.isPointed && problem != redundantSemicolon

end Problem

/-- The rule may end where the end of the source is forgotten. -/
def Rule.forgets : Rule → Bool
  | program | items | item | statements _ | statement | block => true
  | _ => false

/-- The rule may be called where the end of the source is forgotten. -/
def Rule.bears : Rule → Bool
  | items | statements _ => true
  | _ => false

/-- The token is known, and opens nothing. -/
def OpensNothing (v : Option Kind) : Prop := ∃ k, v = some k ∧ k.opens = none

/-- No complaint is made while `forgot` holds, which it may do in the end only if `forgets` does;
    and a complaint that does not say what is missing is about a token that opens nothing, or about
    one that is consumed next.  The next token is `v`, if that is known. -/
def Script.Careful (forgets : Bool) : Script → (forgot : Bool) → (v : Option Kind) → Prop
  | .done _, forgot, _ => forgot = true → forgets = true
  | .fail _, _, _ => True
  -- At the end of the source there is nothing to see.
  | .look n next, forgot, v => ∀ k,
    (next k).Careful forgets (forgot && k == .error) (if n = 0 then some k else v)
  | .text next, forgot, v => ∀ t, (next t).Careful forgets forgot v
  | .stopped next, forgot, v => ∀ b, (next b).Careful forgets (forgot && b) v
  | .exhausted next, forgot, v => ∀ b, (next b).Careful forgets forgot v
  | .bump next, _, _ => next.Careful forgets false none
  | .flush next, forgot, v => next.Careful forgets forgot v
  | .complain x next, forgot, v =>
    forgot = false ∧ x.problem.isComplaint = true ∧
      (x.problem.isRootCause = true ∨ OpensNothing v ∨ next.isBump = true) ∧
      next.Careful forgets false v
  | .remark problem next, forgot, v =>
    forgot = false ∧ problem = .redundantSemicolon ∧ OpensNothing v ∧ next.Careful forgets false v
  | .node _ body next, forgot, v | .group body next, forgot, v | .wrap _ body next, forgot, v =>
    ∃ forgot', body.Careful forgot' forgot v ∧ next.Careful forgets forgot' none
  -- A level that is refused ends the parse.
  | .deeper body next, forgot, v =>
    ∃ forgot', body.Careful forgot' forgot v ∧ (next true).Careful forgets forgot' none
  | .enclosed d _ ifEmpty body next, _, v =>
    v = some d.opener ∧
      (∀ problem ∈ ifEmpty,
        problem = .emptyBlock ∧ d = .curly ∧ body = .call (.statements false) .done) ∧
      (∃ forgot', body.Careful forgot' false none ∧ (forgot' = true → d = .curly)) ∧
      next.Careful forgets ifEmpty.isSome none
  | .call rule next, forgot, _ =>
    (forgot = true → rule.bears = true) ∧ ∀ a, (next a).Careful forgets rule.forgets none

/-- A token that is known to open nothing is so to who knows more. -/
theorem OpensNothing.mono {v v' : Option Kind} (h : OpensNothing v)
    (hv : ∀ k, v = some k → v' = some k) : OpensNothing v' := by
  obtain ⟨k, hk, hopens⟩ := h
  exact ⟨k, hv k hk, hopens⟩

/-- It does no harm to have forgotten less and to know more. -/
theorem Script.Careful.mono {forgets forgot forgot' : Bool} {script : Script} {v v' : Option Kind}
    (h : script.Careful forgets forgot v) (hforgot : forgot' = true → forgot = true)
    (hv : ∀ k, v = some k → v' = some k) : script.Careful forgets forgot' v' := by
  have hfalse {b b' : Bool} (hb : b' = true → b = true) (h : b = false) : b' = false :=
    Bool.eq_false_iff.mpr fun h' => Bool.eq_false_iff.mp h (hb h')
  -- Induction on the script.
  induction script generalizing forgets forgot forgot' v v' with
  | done answer => exact fun hf => h (hforgot hf)
  | fail fault => trivial
  -- A look at the first token says what it is, others keep what was said.
  | look n next ih =>
    refine fun k => ih k (h k) (fun hf => ?_) fun j hj => ?_
    · rw [Bool.and_eq_true] at hf ⊢
      exact ⟨hforgot hf.1, hf.2⟩
    · split at hj
      · next hn => rwa [if_pos hn]
      · next hn => rw [if_neg hn, hv j hj]
  | text next ih | exhausted next ih => exact fun b => ih b (h b) hforgot hv
  | stopped next ih =>
    refine fun b => ih b (h b) (fun hf => ?_) hv
    rw [Bool.and_eq_true] at hf ⊢
    exact ⟨hforgot hf.1, hf.2⟩
  | bump next ih => exact h
  | flush next ih => exact ih h hforgot hv
  -- A complaint ends what was forgotten.
  | complain x next ih =>
    obtain ⟨hf, hx, habout, hnext⟩ := h
    exact ⟨hfalse hforgot hf, hx, habout.imp_right (Or.imp_left (·.mono hv)), ih hnext id hv⟩
  | remark problem next ih =>
    obtain ⟨hf, hproblem, hopens, hnext⟩ := h
    exact ⟨hfalse hforgot hf, hproblem, hopens.mono hv, ih hnext id hv⟩
  | node k body next ihbody | group body next ihbody | wrap k body next ihbody
  | deeper body next ihbody =>
    obtain ⟨forgot₁, hbody, hnext⟩ := h
    exact ⟨forgot₁, ihbody hbody hforgot hv, hnext⟩
  | enclosed d construct ifEmpty body next => exact ⟨hv _ h.1, h.2⟩
  | call rule next => exact ⟨fun hf => h.1 (hforgot hf), h.2⟩

/-! ## Fragments -/

namespace Fragment

variable {α β : Type} {forgot forgot' forgot'' : Bool} {v : Option Kind} {m : Fragment α}
  {f : α → Fragment β} {k : Kind} {set : TokenSet} {problem : Problem}

/-- The fragment is careful, and ends where the end of the source may be forgotten only if
    `forgot'` holds.  What comes after it need know nothing. -/
def Careful (forgot forgot' : Bool) (v : Option Kind) (m : Fragment α) : Prop :=
  ∀ forgets (next : α → Script), (∀ a, (next a).Careful forgets forgot' none) →
    (m next).Careful forgets forgot v

/-- A fragment that is careful is a script that is. -/
theorem Careful.script {m : Fragment Bool} (h : m.Careful forgot forgot' v) :
    m.script.Careful forgot' forgot v := h forgot' _ fun _ => id

/-- A fragment that is careful is a script that is. -/
theorem Careful.unit {m : Fragment Unit} (h : m.Careful forgot forgot' v) :
    m.unit.Careful forgot' forgot v := h forgot' _ fun _ => id

/-- It does no harm to know more before a fragment. -/
theorem Careful.mono {v' : Option Kind} (h : m.Careful forgot forgot' v)
    (hv : ∀ k, v = some k → v' = some k) : m.Careful forgot forgot' v' :=
  fun forgets next hnext => (h forgets next hnext).mono id hv

/-- What never forgets may be said to forget. -/
theorem Careful.weaken (h : m.Careful forgot false v) : m.Careful forgot forgot' v :=
  fun forgets next hnext => h forgets next fun a =>
    (hnext a).mono (fun hf => by cases hf) fun _ => id

/-- A fragment that does nothing forgets nothing. -/
private theorem careful_pure (a : α) : (pure a : Fragment α).Careful forgot forgot v :=
  fun _ _ hnext => (hnext a).mono id fun _ hk => by cases hk

/-- Of two fragments in sequence, the second one starts with what the first one forgot. -/
theorem Careful.bind (h : m.Careful forgot forgot' v)
    (hf : ∀ a, (f a).Careful forgot' forgot'' none) : (m >>= f).Careful forgot forgot'' v :=
  fun forgets next hnext => h forgets _ fun a => hf a forgets next hnext

/-- Each branch may rely on the condition. -/
private theorem careful_ite {p : Prop} [Decidable p] {m n : Fragment α}
    (h : p → m.Careful forgot forgot' v) (h' : ¬ p → n.Careful forgot forgot' v) :
    (if p then m else n).Careful forgot forgot' v := by
  split
  case isTrue hp => exact h hp
  case isFalse hp => exact h' hp

/-! ### Lookaheads -/

/-- At the end of the source there is nothing ahead; what is seen elsewhere is not forgotten. -/
private theorem careful_ahead_bind {n : Nat} {f : Kind → Fragment β}
    (h : ∀ k, (f k).Careful (forgot && k == .error) forgot' (if n = 0 then some k else v)) :
    (ahead n >>= f).Careful forgot forgot' v :=
  fun forgets next hnext k => h k forgets next hnext

/-- Where a current token is seen, the end of the source is not forgotten. -/
private theorem careful_current_bind {f : Kind → Fragment β}
    (h : ∀ k, (f k).Careful (forgot && k == .error) forgot' (some k)) :
    (current >>= f).Careful forgot forgot' v := careful_ahead_bind h

/-- A look at the tokens after the current one. -/
private theorem careful_further_bind {n : Nat} {f : Kind → Fragment β}
    (h : ∀ k, (f k).Careful (forgot && k == .error) forgot' v) :
    (ahead (n + 1) >>= f).Careful forgot forgot' v := careful_ahead_bind h

/-- In the one branch the token is known to be of the kind. -/
private theorem careful_isAt {m n : Fragment β}
    (h : m.Careful (forgot && k == .error) forgot' (some k))
    (h' : ∀ j, n.Careful (forgot && j == .error) forgot' (some j)) :
    (isAt k >>= fun b => if b = true then m else n).Careful forgot forgot' v := by
  refine careful_ahead_bind (f := fun j => if (j == k) = true then m else n) fun j => ?_
  refine careful_ite (fun hk => ?_) fun _ => h' j
  rw [beq_iff_eq.mp hk]
  exact h

/-- In the one branch the token is known to be in the set. -/
private theorem careful_isAtAny {m n : Fragment β}
    (h : ∀ j, set.contains j = true → m.Careful (forgot && j == .error) forgot' (some j))
    (h' : ∀ j, n.Careful (forgot && j == .error) forgot' (some j)) :
    (isAtAny set >>= fun b => if b = true then m else n).Careful forgot forgot' v :=
  careful_ahead_bind (f := fun j => if set.contains j = true then m else n) fun j =>
    careful_ite (h j) fun _ => h' j

/-- The text of a token changes nothing. -/
private theorem careful_currentText_bind {f : String → Fragment β}
    (h : ∀ t, (f t).Careful forgot forgot' v) : (currentText >>= f).Careful forgot forgot' v :=
  fun forgets next hnext t => h t forgets next hnext

/-- A parse that goes on is not at an end that was forgotten. -/
private theorem careful_stopped_bind {f : Bool → Fragment β}
    (h : ∀ b, (f b).Careful (forgot && b) forgot' v) : (stopped >>= f).Careful forgot forgot' v :=
  fun forgets next hnext b => h b forgets next hnext

/-- Whether steps are left changes nothing. -/
private theorem careful_exhausted_bind {f : Bool → Fragment β}
    (h : ∀ b, (f b).Careful forgot forgot' v) : (exhausted >>= f).Careful forgot forgot' v :=
  fun forgets next hnext b => h b forgets next hnext

/-- The rule begins with a token that is known. -/
private theorem careful_entered_bind {f : Unit → Fragment β}
    (h : (f ()).Careful false forgot' (some k)) : (entered k >>= f).Careful false forgot' v := by
  intro forgets next hnext found
  show Script.Careful forgets (if found = k then f () next else .fail _) _ _
  split
  case isTrue hk =>
    rw [hk]
    exact h forgets next hnext
  case isFalse => trivial

/-! ### Tokens -/

/-- After a token was consumed, nothing is forgotten. -/
private theorem careful_bump : bump.Careful forgot false v := fun _ _ hnext => hnext ()

/-- Where a token is consumed, the end of the source is not reached. -/
private theorem careful_eat : (eat k).Careful forgot forgot v := by
  intro forgets next hnext j
  show Script.Careful forgets ((if (j == k) = true then bump >>= fun _ => pure true
    else pure false : Fragment Bool) next) _ _
  split
  · exact (hnext true).mono (fun hf => by cases hf) fun _ hk => by cases hk
  · refine (hnext false).mono (fun hf => ?_) fun _ hk => by cases hk
    rw [Bool.and_eq_true] at hf
    exact hf.1

/-- A token that may be missing is not complained about. -/
private theorem careful_optionally : (optionally k).Careful forgot forgot v :=
  careful_eat.bind fun _ => careful_pure ()

/-- Flushing complains about nothing. -/
private theorem careful_flush : flush.Careful forgot forgot v :=
  fun _ _ hnext => (hnext ()).mono id fun _ hk => by cases hk

/-! ### Complaints -/

/-- A complaint is about what is missing, or about a token that opens nothing. -/
private theorem careful_complain_bind {detail expected : Option String} {f : Unit → Fragment β}
    (hproblem : problem.isComplaint = true) (habout : problem.isRootCause = true ∨ OpensNothing v)
    (h : (f ()).Careful false forgot v) :
    (complain problem detail expected >>= f).Careful false forgot v :=
  fun forgets next hnext =>
    ⟨rfl, hproblem, habout.imp_right .inl, h forgets next hnext⟩

/-- What is said to be missing may be missing anywhere. -/
private theorem careful_missing_bind {what : String} {f : Unit → Fragment β}
    (hproblem : problem.isComplaint = true) (hcause : problem.isRootCause = true)
    (h : (f ()).Careful false forgot v) :
    (missing problem what >>= f).Careful false forgot v :=
  careful_complain_bind hproblem (.inl hcause) h

/-- What is missing may be complained about anywhere. -/
private theorem careful_missing {what : String} (hproblem : problem.isComplaint = true)
    (hcause : problem.isRootCause = true) : (missing problem what).Careful false false v :=
  careful_missing_bind hproblem hcause (careful_pure ())

/-- The warning is about a token that opens nothing. -/
private theorem careful_remark_bind {f : Unit → Fragment β} (hopens : OpensNothing v)
    (h : (f ()).Careful false forgot v) :
    (remark .redundantSemicolon >>= f).Careful false forgot v :=
  fun forgets next hnext => ⟨rfl, rfl, hopens, h forgets next hnext⟩

/-- A kind that is missing may be complained about anywhere. -/
private theorem careful_expect {what : String} : (expect k what).Careful false false v :=
  careful_eat.bind fun _ => careful_ite (fun _ => careful_pure true) fun _ =>
    careful_complain_bind rfl (.inl rfl) (careful_pure false)

/-- A kind that is missing may be complained about anywhere. -/
private theorem careful_require {what : String} : (require k what).Careful false false v :=
  careful_expect.bind fun _ => careful_pure ()

/-- A name that is missing may be complained about anywhere. -/
private theorem careful_identifier {what : String} : (identifier what).Careful false false v :=
  careful_eat.bind fun _ => careful_ite (fun _ => careful_pure ()) fun _ => careful_missing rfl rfl

/-! ### Enclosing fragments -/

/-- A node forgets what its body forgets. -/
private theorem careful_node {m : Fragment Unit} (h : m.Careful forgot forgot' v) :
    (node k m).Careful forgot forgot' v := fun _ _ hnext => ⟨forgot', h.unit, hnext ()⟩

/-- A group forgets what its body forgets. -/
private theorem careful_group {m : Fragment Unit} (h : m.Careful forgot forgot' v) :
    (group m).Careful forgot forgot' v := fun _ _ hnext => ⟨forgot', h.unit, hnext ()⟩

/-- What wraps forgets what its body forgets. -/
private theorem careful_wrap {m : Fragment Unit} (h : m.Careful forgot forgot' v) :
    (wrap k m).Careful forgot forgot' v := fun _ _ hnext => ⟨forgot', h.unit, hnext ()⟩

/-- A level that is refused ends the parse; one that is granted forgets what its body forgets. -/
private theorem careful_deeper {m : Fragment Unit} (h : m.Careful forgot forgot' v) :
    (deeper m).Careful forgot forgot' v := fun _ _ hnext => ⟨forgot', h.unit, hnext true⟩

/-- Only between braces the end may be forgotten. -/
private theorem careful_enclosed {d : Delimiter} {construct : String} {m : Fragment Unit}
    (hopener : v = some d.opener) (h : m.Careful false forgot' none)
    (hcurly : forgot' = true → d = .curly) : (enclosed d construct m).Careful forgot false v :=
  fun _ _ hnext => ⟨hopener, by simp, ⟨forgot', h.unit, hcurly⟩, hnext ()⟩

/-- A rule may be called where nothing is forgotten. -/
private theorem careful_ask (rule : Rule) : (ask rule).Careful false rule.forgets v :=
  fun _ _ hnext => ⟨(Bool.noConfusion ·), hnext⟩

/-- A rule may be called where nothing is forgotten. -/
private theorem careful_call (rule : Rule) : (call rule).Careful false rule.forgets v :=
  fun _ _ hnext => ⟨(Bool.noConfusion ·), fun _ => hnext ()⟩

/-- A rule that bears it may be called where the end of the source is forgotten. -/
private theorem careful_ask_bears (rule : Rule) (h : rule.bears = true) :
    (ask rule).Careful forgot rule.forgets v := fun _ _ hnext => ⟨fun _ => h, hnext⟩

/-- A rule that bears it may be called where the end of the source is forgotten. -/
private theorem careful_call_bears (rule : Rule) (h : rule.bears = true) :
    (call rule).Careful forgot rule.forgets v := fun _ _ hnext => ⟨fun _ => h, fun _ => hnext ()⟩

/-- What is set aside is consumed at once. -/
private theorem careful_setAside {what : String} {stops : TokenSet} {rest : Fragment Unit}
    (hproblem : problem.isComplaint = true) (hrest : rest.Careful false false none) :
    (setAside problem what stops rest).Careful false false v := by
  have hdiscard : (do
      call (.discard stops)
      rest : Fragment Unit).Careful false false none :=
    (careful_call (.discard stops)).bind fun _ => hrest
  exact careful_node fun forgets next hnext =>
    ⟨rfl, hproblem, .inr (.inr rfl), hdiscard forgets next hnext⟩

end Fragment

/-! ## The rules -/

namespace Grammar

open Fragment

variable {v : Option Kind}

/-- A token of a set without openers. -/
private theorem opensNothing_of_contains {set : TokenSet} {k : Kind} (h : set.contains k = true)
    (hset : set.contains .lCurly = false ∧ set.contains .lParen = false ∧
      set.contains .lBracket = false) : OpensNothing (some k) := by
  refine ⟨k, rfl, ?_⟩
  unfold Kind.opens
  split
  · rw [hset.1] at h; cases h
  · rw [hset.2.1] at h; cases h
  · rw [hset.2.2] at h; cases h
  · rfl

/-! ### Types -/

/-- The rest of a union is careful, and forgets nothing. -/
private theorem careful_unionTail : unionTail.Careful false false v :=
  careful_eat.bind fun _ => careful_ite
    (fun _ => (careful_call .typeName).bind fun _ => careful_call .unionTail)
    fun _ => careful_pure ()

/-- A list of types is careful, and forgets nothing. -/
private theorem careful_typeList : typeList.Careful false false v :=
  careful_node ((careful_call .typeName).bind fun _ => careful_call .unionTail)

/-- The rest of a list of type arguments is careful, and forgets nothing. -/
private theorem careful_typeArgTail : typeArgTail.Careful false false v :=
  careful_eat.bind fun _ => careful_ite
    (fun _ => (careful_call .typeList).bind fun _ => careful_call .typeArgTail)
    fun _ => careful_pure ()

/-- A list of type arguments is careful, and forgets nothing. -/
private theorem careful_typeArgs : typeArgs.Careful false false v :=
  careful_node (careful_bump.bind fun _ => (careful_call .typeList).bind fun _ =>
    (careful_call .typeArgTail).bind fun _ => careful_require)

/-- The name of a type is careful, and forgets nothing. -/
private theorem careful_typeName : typeName.Careful false false v := by
  have hname : (node .typeName do
      bump
      if ← isAt .less then typeArgs).Careful false false (some .identifier) :=
    careful_node (careful_bump.bind fun _ =>
      careful_isAt careful_typeArgs fun _ => careful_pure ())
  exact careful_isAt ((careful_deeper hname).bind fun _ => careful_pure ())
    fun _ => careful_missing rfl rfl

/-! ### Lists -/

/-- The rule of an element is called where nothing is forgotten. -/
private theorem careful_element (form : ListForm) : (call form.element).Careful false false v := by
  cases form with
  | params => exact careful_call .param
  | record => exact careful_call .recordProp
  | callArgs => exact careful_call .expr
  | array => exact careful_call .expr

/-- An element that is missing is complained about, and the token in its place set aside. -/
private theorem careful_elements (form : ListForm) : (elements form).Careful false false v := by
  have hmore {v : Option Kind} : (call (.elements form)).Careful false false v :=
    careful_call (.elements form)
  refine careful_stopped_bind fun b => careful_ite (fun _ => careful_pure ()) fun _ => ?_
  refine careful_current_bind fun k => careful_ite (fun _ => careful_pure ()) fun _ => ?_
  refine careful_ite (fun _ => ?_) fun _ => careful_ite (fun _ => careful_pure ()) fun _ => ?_
  · exact (careful_element form).bind fun _ => careful_eat.bind fun _ =>
      careful_ite (fun _ => hmore) fun _ => careful_isAtAny
        (fun _ _ => careful_require.bind fun _ => hmore) fun _ => careful_pure ()
  · refine careful_missing_bind ?_ ?_ ((careful_node careful_bump).bind fun _ => hmore)
    · cases form <;> rfl
    · cases form <;> rfl

/-- A list in delimiters is careful, and forgets nothing. -/
private theorem careful_delimited (form : ListForm) : (delimited form).Careful false false v :=
  careful_entered_bind (careful_enclosed rfl (careful_call (.elements form)) fun h => by cases h)

/-! ### Expressions -/

/-- A property of a record is careful, and forgets nothing. -/
private theorem careful_recordProp : recordProp.Careful false false v :=
  careful_node (careful_bump.bind fun _ => careful_expect.bind fun _ =>
    careful_ite (fun _ => careful_call .expr) fun _ => careful_pure ())

/-- What begins with a name is careful, and forgets nothing. -/
private theorem careful_namePrimary : namePrimary.Careful false false v := by
  have hnamed (k : Kind) (form : ListForm) {v : Option Kind} : (node k do
      bump
      delimited form).Careful false false v :=
    careful_node (careful_bump.bind fun _ => careful_delimited form)
  have hother {v : Option Kind} : (do
      if (← ahead 1) = .lCurly then
        node .recordLiteral do
          bump
          delimited .record
      else node .nameRef bump : Fragment Unit).Careful false false v :=
    careful_further_bind fun k => careful_ite (fun _ => hnamed .recordLiteral .record)
      fun _ => careful_node careful_bump
  refine careful_further_bind fun k => careful_ite (fun _ => careful_currentText_bind fun t => ?_)
    fun _ => hother
  exact careful_ite (fun _ => hnamed .arrayLiteral .array) fun _ => hother

/-- Telling a function from an expression in parentheses leaves the next token known. -/
private theorem careful_atFnLiteral_bind {β : Type} {f : Bool → Fragment β}
    (h : ∀ b, (f b).Careful false false v) : (atFnLiteral >>= f).Careful false false v := by
  rw [atFnLiteral, Fragment.bind_assoc]
  refine careful_further_bind fun k₁ => ?_
  split
  · exact h true
  · rw [Fragment.bind_assoc]
    refine careful_further_bind fun k₂ => ?_
    split
    · rw [Fragment.bind_assoc]
      exact careful_further_bind fun k₃ => h _
    · exact h false
  · exact h false

/-- A primary expression is careful, and forgets nothing. -/
private theorem careful_primary : primary.Careful false false v := by
  refine careful_current_bind fun k => ?_
  split
  · exact careful_namePrimary
  · exact careful_node (careful_bump.bind fun _ => careful_identifier)
  · exact careful_node (careful_delimited .record)
  · exact careful_node (careful_delimited .array)
  · refine careful_atFnLiteral_bind fun b =>
      careful_ite (fun _ => careful_node (careful_call .fnTail)) fun _ => ?_
    exact careful_node (careful_enclosed rfl (careful_call .expr) fun h => by cases h)
  · exact careful_ite (fun _ => careful_node careful_bump) fun _ => careful_missing rfl rfl

/-- The token that an accessor was recognized by. -/
def Accessor.first : Accessor → Kind
  | field => .dot
  | static => .colon
  | index => .lBracket
  | arguments => .lParen
  | nonNull => .exclMark

/-- The look at which accessor comes complains about nothing, and tells what comes next. -/
private theorem careful_accessorHere_bind {β : Type} {f : Option Accessor → Fragment β}
    (hnone : ∀ v, (f none).Careful false false v)
    (hsome : ∀ a : Accessor, (f (some a)).Careful false false (some a.first)) :
    (accessorHere >>= f).Careful false false v := by
  rw [accessorHere, Fragment.bind_assoc]
  refine careful_current_bind fun k => ?_
  split
  · exact hsome .field
  · rw [Fragment.bind_assoc]
    refine careful_further_bind fun k => ?_
    split
    · exact hsome .static
    · exact hnone _
  · exact hsome .index
  · exact hsome .arguments
  · exact hsome .nonNull
  · exact hnone _

/-- The name behind a dot is careful, and forgets nothing. -/
private theorem careful_memberName (after : String) : (memberName after).Careful false false v :=
  careful_isAtAny (fun _ _ => careful_bump) fun _ => careful_missing rfl rfl

/-- An accessor is careful, and forgets nothing. -/
private theorem careful_accessor (a : Accessor) :
    (accessor a).Careful false false (some a.first) := by
  refine careful_node ?_
  cases a with
  | field => exact careful_bump.bind fun _ => careful_memberName _
  | static => exact careful_bump.bind fun _ => careful_bump.bind fun _ => careful_memberName _
  | index => exact careful_enclosed rfl (careful_call .expr) fun h => by cases h
  | arguments => exact careful_delimited .callArgs
  | nonNull => exact careful_bump

/-- The loop over accessors is careful, and forgets nothing. -/
private theorem careful_accessors (wrapped : Bool) : (accessors wrapped).Careful false false v := by
  have hmore (a : Accessor) : (do
      accessor a
      call (.accessors true) : Fragment Unit).Careful false false (some a.first) :=
    (careful_accessor a).bind fun _ => careful_call (.accessors true)
  refine careful_accessorHere_bind (fun _ => careful_pure ()) fun a => ?_
  exact careful_ite (fun _ => hmore a) fun _ => careful_wrap (hmore a)

/-- An operand is careful, and forgets nothing. -/
private theorem careful_operand : operand.Careful false false v := by
  have hnew {v : Option Kind} : (node .memberExpr do
      bump
      call .primary
      call (.accessors true)).Careful false false v :=
    careful_node (careful_bump.bind fun _ => (careful_call .primary).bind fun _ =>
      careful_call (.accessors true))
  have hmember : member.Careful false false v := careful_group (careful_isAt hnew fun _ =>
    (careful_call .primary).bind fun _ => careful_call (.accessors false))
  exact careful_group (hmember.bind fun _ => careful_isAtAny
    (fun _ _ => careful_wrap careful_bump) fun _ => careful_pure ())

/-- An operand that is missing behind a prefix operator is complained about as missing. -/
private theorem careful_prefixOperand : prefixOperand.Careful false false v :=
  careful_isAtAny (fun _ _ => careful_call .operand) fun _ => careful_exhausted_bind fun _ =>
    careful_ite (fun _ => careful_pure ()) fun _ => careful_missing rfl rfl

/-- A run of prefix operators is careful, and forgets nothing. -/
private theorem careful_prefixes (count : Nat) : (prefixes count).Careful false false v := by
  refine careful_isAtAny (fun k hset => ?_) fun _ => careful_prefixOperand
  have hnode : (node .prefixExpr do
      bump
      call (.prefixes (count + 1))).Careful false false (some k) :=
    careful_node (careful_bump.bind fun _ => careful_call (.prefixes (count + 1)))
  have hdeeper := (careful_deeper hnode).bind (f := fun granted => do
    unless granted do prefixOperand) fun _ =>
      careful_ite (fun _ => careful_pure ()) fun _ => careful_prefixOperand
  exact careful_ite (fun _ => careful_complain_bind rfl
    (.inr (opensNothing_of_contains hset (by decide))) hdeeper) fun _ => hdeeper

/-- A chain of operators is careful, and forgets nothing. -/
private theorem careful_chain : chain.Careful false false v := by
  have hunary : unary.Careful false false v := careful_isAtAny
    (fun _ _ => careful_call (.prefixes 0)) fun _ => careful_call .operand
  refine hunary.bind fun _ => careful_current_bind fun k => careful_ite (fun _ => ?_) fun _ =>
    careful_ite (fun _ => ?_) fun _ => careful_pure ()
  · refine (careful_deeper (careful_wrap ?_)).bind fun _ => careful_pure ()
    exact careful_bump.bind fun _ => careful_isAtAny
      (fun _ _ => careful_group (careful_call .chain)) fun _ => careful_missing rfl rfl
  · exact careful_wrap (careful_bump.bind fun _ => careful_eat.bind fun _ =>
      careful_ite (fun _ => careful_pure ()) fun _ => careful_missing rfl rfl)

/-- An expression is careful, and forgets nothing. -/
private theorem careful_expr : expr.Careful false false v :=
  careful_isAtAny (fun _ _ => (careful_deeper (careful_group (careful_call .chain))).bind
    fun _ => careful_pure ()) fun _ => careful_missing rfl rfl

/-! ### Statements -/

/-- An initializer is careful, and forgets nothing. -/
private theorem careful_initializer : initializer.Careful false false v :=
  careful_entered_bind (careful_node (careful_bump.bind fun _ => careful_call .expr))

/-- An expression as a statement is careful, and forgets nothing. -/
private theorem careful_exprStmt (terminated : Bool) :
    (exprStmt terminated).Careful false false v :=
  careful_node ((careful_call .expr).bind fun _ =>
    careful_ite (fun _ => careful_optionally) fun _ => careful_pure ())

/-- The statement that is missing is complained about at a token that is consumed next. -/
private theorem careful_recoverStatement : recoverStatement.Careful false false v :=
  careful_setAside rfl careful_optionally

/-- The report on an empty block is the one that makes the parse forget. -/
private theorem careful_block : block.Careful false true v := by
  refine careful_node (careful_isAt (m := do
    enclosedNonempty .curly "block" .emptyBlock (ask (.statements false))
    optionally .semiColon) ?_ fun _ => careful_require.weaken)
  intro forgets next hnext
  have hbody : (Script.call (.statements false) .done).Careful true false none :=
    (careful_ask (.statements false)).script
  have hempty : ∀ problem ∈ some Problem.emptyBlock, problem = .emptyBlock ∧
      Delimiter.curly = .curly ∧ (ask (.statements false)).script =
        Script.call (.statements false) .done := by
    rintro problem ⟨⟩
    exact ⟨rfl, rfl, rfl⟩
  exact ⟨rfl, hempty, ⟨true, hbody, fun _ => rfl⟩, careful_optionally forgets next hnext⟩

/-- A body is no block that could be empty, so nothing is forgotten. -/
private theorem careful_body : body.Careful false false v :=
  careful_node (careful_isAt
    (careful_enclosed rfl (careful_call (.statements false)) fun _ => rfl)
    fun _ => careful_require)

/-- A condition that is missing is complained about as missing. -/
private theorem careful_condition (keyword : String) : (condition keyword).Careful false false v :=
  careful_require.bind fun _ => (careful_call .expr).bind fun _ => careful_require

/-- An `if` statement is careful, and forgets nothing. -/
private theorem careful_ifStmt (terminated : Bool) : (ifStmt terminated).Careful false false v := by
  have hif {v : Option Kind} : (do
      let _ ← deeper (call (.ifStmt false)) : Fragment Unit).Careful false false v :=
    (careful_deeper (careful_call (.ifStmt false))).bind fun _ => careful_pure ()
  have helse {v : Option Kind} : (node .elseClause do
      bump
      if ← isAt .kwIf then
        let _ ← deeper (call (.ifStmt false))
      else call .body).Careful false false v :=
    careful_node (careful_bump.bind fun _ => careful_isAt hif fun _ => careful_call .body)
  have hend {v : Option Kind} : (do
      if terminated then optionally .semiColon : Fragment Unit).Careful false false v :=
    careful_ite (fun _ => careful_optionally) fun _ => careful_pure ()
  exact careful_entered_bind (careful_node (careful_bump.bind fun _ =>
    (careful_condition _).bind fun _ => (careful_call .body).bind fun _ =>
      careful_isAt (helse.bind fun _ => hend) fun _ => hend))

/-- A `while` statement is careful, and forgets nothing. -/
private theorem careful_whileStmt : whileStmt.Careful false false v :=
  careful_node (careful_bump.bind fun _ => (careful_condition _).bind fun _ =>
    (careful_call .body).bind fun _ => careful_optionally)

/-- A `for` statement is careful, and forgets nothing. -/
private theorem careful_forStmt : forStmt.Careful false false v := by
  have hend : (do
      require .rParen "`)` to close the loop header"
      call .body
      optionally .semiColon : Fragment Unit).Careful false false none :=
    careful_require.bind fun _ => (careful_call .body).bind fun _ => careful_optionally
  have hupdate {v : Option Kind} : (do
      if ← isAtAny .exprFirst then exprStmt false
      else missing .expectedExpression "a loop update"
      require .rParen "`)` to close the loop header"
      call .body
      optionally .semiColon : Fragment Unit).Careful false false v :=
    careful_isAtAny (fun _ _ => (careful_exprStmt false).bind fun _ => hend)
      fun _ => (careful_missing rfl rfl).bind fun _ => hend
  exact careful_node (careful_bump.bind fun _ => careful_require.bind fun _ =>
    careful_identifier.bind fun _ => careful_require.bind fun _ => (careful_call .expr).bind
    fun _ => careful_require.bind fun _ => (careful_call .expr).bind fun _ =>
    careful_require.bind fun _ => hupdate)

/-- The recovery from a missing variable is careful, and forgets nothing. -/
private theorem careful_missingVariable : missingVariable.Careful false false v :=
  careful_isAtAny (fun _ _ => careful_missing rfl rfl) fun _ => careful_stopped_bind fun _ =>
    careful_ite (fun _ => careful_missing rfl rfl) fun _ => careful_node
      ((careful_missing rfl rfl).bind fun _ => careful_call (.skipTo .varNameRecovery))

/-- A declaration of a variable is careful, and forgets nothing. -/
private theorem careful_varStmt : varStmt.Careful false false v := by
  have hvalue {v : Option Kind} : (do
      if ← isAt .eq then call .initializer
      optionally .semiColon : Fragment Unit).Careful false false v :=
    careful_isAt ((careful_call .initializer).bind fun _ => careful_optionally)
      fun _ => careful_optionally
  have htype {v : Option Kind} : (do
      if ← eat .colon then call .typeList
      if ← isAt .eq then call .initializer
      optionally .semiColon : Fragment Unit).Careful false false v :=
    careful_eat.bind fun _ => careful_ite
      (fun _ => (careful_call .typeList).bind fun _ => hvalue) fun _ => hvalue
  exact careful_node (careful_bump.bind fun _ => careful_eat.bind fun _ =>
    careful_ite (fun _ => htype) fun _ => careful_missingVariable.bind fun _ => htype)

/-- A `return` statement is careful, and forgets nothing. -/
private theorem careful_returnStmt : returnStmt.Careful false false v :=
  careful_node (careful_bump.bind fun _ => (careful_call .expr).bind fun _ => careful_optionally)

/-- The look at whether a record begins complains about nothing, and tells what comes next. -/
private theorem careful_atRecordBody_bind {β : Type} {forgot : Bool} {f : Bool → Fragment β}
    (h : ∀ b, (f b).Careful false forgot none) :
    (atRecordBody >>= f).Careful false forgot v := by
  have hknown (b : Bool) {v : Option Kind} : (f b).Careful false forgot v :=
    (h b).mono fun _ hk => by cases hk
  rw [atRecordBody, Fragment.bind_assoc]
  refine careful_further_bind fun k => ?_
  split
  · rw [Fragment.bind_assoc]
    refine careful_further_bind fun k => ?_
    split
    · rw [Fragment.bind_assoc]
      exact careful_further_bind fun k => hknown _
    · exact hknown _
  · exact hknown _

/-- A statement may be a block that is empty, so the end of the source may be forgotten after it. -/
private theorem careful_statement : statement.Careful false true v := by
  refine (careful_deeper (careful_current_bind fun k => ?_)).bind fun _ => careful_pure ()
  split
  · exact careful_atRecordBody_bind fun _ =>
      careful_ite (fun _ => (careful_exprStmt true).weaken) fun _ => careful_call .block
  · exact (careful_call (.ifStmt true)).weaken
  · exact careful_whileStmt.weaken
  · exact careful_forStmt.weaken
  · exact careful_varStmt.weaken
  · exact careful_returnStmt.weaken
  · exact careful_ite (fun _ => (careful_exprStmt true).weaken)
      fun _ => careful_recoverStatement.weaken

/-- A list of statements may begin where the end is forgotten, since it ends at once there. -/
private theorem careful_statements (seen : Bool) : (statements seen).Careful true true v := by
  -- The list ends with the parse.
  refine careful_stopped_bind fun b => ?_
  cases b with
  | true => exact careful_pure seen
  | false =>
  refine careful_current_bind fun k => ?_
  -- Declarations, and an import, are complained about first.
  have hdeclared (rule : Rule) (hrule : rule.forgets = false) (hk : k.opens = none)
      (seen : Bool) (detail : String) : (do
      complain .unexpectedToken (some detail) none
      call rule
      ask (.statements seen)).Careful false true (some k) :=
    careful_complain_bind rfl (.inr ⟨k, rfl, hk⟩)
      ((hrule ▸ careful_call rule).bind fun _ => careful_ask (.statements seen))
  split
  · exact (careful_pure seen).weaken
  · exact careful_remark_bind ⟨_, rfl, rfl⟩
      (careful_bump.bind fun _ => careful_ask (.statements seen))
  · exact hdeclared .fnDecl rfl rfl true _
  · exact hdeclared .typeDecl rfl rfl true _
  · exact hdeclared .typeDecl rfl rfl true _
  · exact hdeclared .importDecl rfl rfl seen _
  · exact careful_ite
      (fun _ => (careful_call .statement).bind fun _ =>
        careful_ask_bears (.statements true) rfl)
      fun _ => careful_recoverStatement.bind fun _ => careful_ask (.statements seen)

/-! ### Declarations -/

/-- The type behind a colon is careful, and forgets nothing. -/
private theorem careful_ascription {what : String} : (ascription what).Careful false false v :=
  careful_expect.bind fun _ => careful_ite (fun _ => careful_call .typeList)
    fun _ => careful_isAt (careful_call .typeList) fun _ => careful_pure ()

/-- A parameter is careful, and forgets nothing. -/
private theorem careful_param : param.Careful false false v :=
  careful_node (careful_bump.bind fun _ => careful_ascription)

/-- The tail of a declaration of a function is careful, and forgets nothing. -/
private theorem careful_fnTail : fnTail.Careful false false v := by
  have hend : (do
      if ← eat .colon then call .typeList
      call .body : Fragment Unit).Careful false false none :=
    careful_eat.bind fun _ => careful_ite
      (fun _ => (careful_call .typeList).bind fun _ => careful_call .body)
      fun _ => careful_call .body
  exact careful_isAt ((careful_node (careful_delimited .params)).bind fun _ => hend)
    fun _ => careful_require.bind fun _ => hend

/-- A declaration of a function is careful, and forgets nothing. -/
private theorem careful_fnDecl : fnDecl.Careful false false v :=
  careful_entered_bind (careful_node (careful_bump.bind fun _ =>
    careful_identifier.bind fun _ => careful_call .fnTail))

/-- A declaration of an attribute is careful, and forgets nothing. -/
private theorem careful_attrDecl : attrDecl.Careful false false v :=
  careful_node (careful_bump.bind fun _ => careful_ascription.bind fun _ =>
    careful_isAt (careful_call .initializer) fun _ => careful_pure ())

/-- What a member declares, after its modifiers. -/
private theorem careful_declaration :
    (current >>= fun k =>
      match k with
      | .kwFunction => call .fnDecl >>= fun _ => optionally .semiColon
      | .identifier => attrDecl >>= fun _ => optionally .semiColon
      | _ => missing .expectedIdentifier "an attribute or function declaration" >>= fun _ =>
          optionally .semiColon).Careful false false v := by
  refine careful_current_bind fun k => ?_
  split
  · exact (careful_call .fnDecl).bind fun _ => careful_optionally
  · exact careful_attrDecl.bind fun _ => careful_optionally
  · exact (careful_missing rfl rfl).bind fun _ => careful_optionally

/-- A member of a type is careful, and forgets nothing. -/
private theorem careful_typeMember : typeMember.Careful false false v := by
  refine careful_node (careful_current_bind fun k => ?_)
  split
  · exact careful_bump.bind fun _ => careful_optionally.bind fun _ => careful_declaration
  · exact careful_bump.bind fun _ => careful_optionally.bind fun _ => careful_declaration
  · exact careful_declaration

/-- The loop over the members of a type is careful, and forgets nothing. -/
private theorem careful_members : members.Careful false false v := by
  have hmore : (call .members).Careful false false none := careful_call .members
  refine careful_stopped_bind fun b => careful_ite (fun _ => careful_pure ()) fun _ => ?_
  refine careful_current_bind fun k => ?_
  split
  · exact careful_pure ()
  · exact careful_remark_bind ⟨_, rfl, rfl⟩ (careful_bump.bind fun _ => hmore)
  · exact careful_ite (fun _ => (careful_call .member).bind fun _ => hmore)
      fun _ => (careful_setAside rfl careful_optionally).bind fun _ => hmore

/-- A declaration of a type is careful, and forgets nothing. -/
private theorem careful_typeDecl : typeDecl.Careful false false v :=
  careful_node (careful_optionally.bind fun _ => careful_require.bind fun _ =>
    careful_identifier.bind fun _ => careful_isAt
      (careful_enclosed rfl (careful_call .members) fun _ => rfl) fun _ => careful_require)

/-! ### Programs -/

/-- An import is careful, and forgets nothing. -/
private theorem careful_importDecl : importDecl.Careful false false v :=
  careful_entered_bind (careful_node (careful_bump.bind fun _ => careful_isAtAny
    (fun _ _ => careful_bump.bind fun _ => careful_optionally)
    fun _ => (careful_missing rfl rfl).bind fun _ => careful_optionally))

/-- An item may be a block that is empty, so the end of the source may be forgotten after it. -/
private theorem careful_item : item.Careful false true v := by
  refine careful_current_bind fun k => ?_
  split
  · exact (careful_call .fnDecl).weaken
  · exact (careful_call .typeDecl).weaken
  · exact (careful_call .typeDecl).weaken
  · exact (careful_complain_bind rfl (.inr ⟨_, rfl, rfl⟩) (careful_call .importDecl)).weaken
  · exact careful_ite (fun _ => careful_call .statement)
      fun _ => (careful_setAside rfl (careful_pure ())).weaken

/-- The loop over imports is careful, and forgets nothing. -/
private theorem careful_imports : imports.Careful false false v :=
  careful_stopped_bind fun _ => careful_ite (fun _ => careful_pure ()) fun _ => careful_isAt
    ((careful_call .importDecl).bind fun _ => careful_call .imports) fun _ => careful_pure ()

/-- The loop over items may start and end where the end of the source is forgotten, for then it ends
    at once. -/
private theorem careful_items : items.Careful true true v := by
  refine careful_stopped_bind fun b => ?_
  cases b with
  | true => exact careful_pure ()
  | false =>
    exact careful_isAt (careful_remark_bind ⟨_, rfl, rfl⟩
      (careful_bump.bind fun _ => careful_call .items))
      fun _ => (careful_call .item).bind fun _ => careful_optionally.bind fun _ =>
        careful_call_bears .items rfl

/-- The program may end with an empty block, and nothing is complained about after it. -/
private theorem careful_program : program.Careful false true v :=
  (careful_call .imports).bind fun _ => (careful_call .items).bind fun _ => careful_flush

/-- Setting aside complains about nothing. -/
private theorem careful_discard (stops : TokenSet) : (discard stops).Careful false false v :=
  careful_stopped_bind fun _ => careful_ite (fun _ => careful_pure ()) fun _ => careful_isAtAny
    (fun _ _ => careful_pure ()) fun _ => careful_bump.bind fun _ => careful_call (.discard stops)

/-- Skipping complains about nothing. -/
private theorem careful_skipTo (stops : TokenSet) : (skipTo stops).Careful false false v :=
  careful_isAtAny (fun _ _ => careful_pure ()) fun _ => careful_stopped_bind fun _ =>
    careful_ite (fun _ => careful_pure ()) fun _ => careful_bump.bind fun _ =>
      careful_call (.skipTo stops)

end Grammar

namespace Rule

open Grammar

/-- Every rule is careful. -/
theorem careful (rule : Rule) : rule.script.Careful rule.forgets rule.bears none := by
  -- One lemma for each rule.
  cases rule with
  | program => exact careful_program.unit
  | imports => exact careful_imports.unit
  | items => exact careful_items.unit
  | item => exact careful_item.unit
  | importDecl => exact careful_importDecl.unit
  | fnDecl => exact careful_fnDecl.unit
  | fnTail => exact careful_fnTail.unit
  | param => exact careful_param.unit
  | typeDecl => exact careful_typeDecl.unit
  | members => exact careful_members.unit
  | member => exact careful_typeMember.unit
  | statements seen => exact (careful_statements seen).script
  | statement => exact careful_statement.unit
  | block => exact careful_block.unit
  | body => exact careful_body.unit
  | ifStmt terminated => exact (careful_ifStmt terminated).unit
  | initializer => exact careful_initializer.unit
  | expr => exact careful_expr.unit
  | chain => exact careful_chain.unit
  | prefixes count => exact (careful_prefixes count).unit
  | operand => exact careful_operand.unit
  | accessors wrapped => exact (careful_accessors wrapped).unit
  | primary => exact careful_primary.unit
  | elements form => exact (careful_elements form).unit
  | recordProp => exact careful_recordProp.unit
  | typeList => exact careful_typeList.unit
  | unionTail => exact careful_unionTail.unit
  | typeName => exact careful_typeName.unit
  | typeArgTail => exact careful_typeArgTail.unit
  | discard stops => exact (careful_discard stops).unit
  | skipTo stops => exact (careful_skipTo stops).unit

end Rule

end ScriptTree
