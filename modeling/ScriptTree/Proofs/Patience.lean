import ScriptTree.Proofs.Outlook

/-!
# Where patience goes

The tables of `ScriptTree.Proofs.Outlook` say what callers count on.  Here each rule keeps to its
line: it gets by with the patience that it asks for, whatever the tokens are, and leaves as much as
it promises.

## Key results

- `Rule.safe`: the script of each rule is safe and has the effect that callers count on
-/

namespace ScriptTree

namespace Grammar

open Fragment

variable {c : Scope} {ended : Bool} {front : List Kind → Prop} {level : Nat}

/-! ## Types -/

/-- The rest of a union asks for 16 lookaheads, and takes at most 1 if it consumes nothing. -/
private theorem does_unionTail : unionTail.Does c ⟨ended, front, 1, 16⟩ ⟨.none, 1, 4⟩ :=
  (does_eat ((does_call_top .typeName rfl).bind (fun _ => does_call_top .unionTail rfl) rfl)
    (does_pure ()) (by decide) rfl).fits rfl

/-- A list of types asks for 24 lookaheads, and takes at most 3 if it consumes nothing. -/
private theorem does_typeList : typeList.Does c ⟨ended, front, 2, 24⟩ ⟨.none, 3, 6⟩ :=
  (does_node ((does_call_free .typeName rfl rfl).bind
    (fun _ => does_call_free .unionTail rfl rfl) rfl)).fits rfl

/-- The rest of a list of type arguments asks for 32 lookaheads, and takes at most 1 if it consumes
    nothing. -/
private theorem does_typeArgTail : typeArgTail.Does c ⟨ended, front, 3, 32⟩ ⟨.none, 1, 8⟩ :=
  (does_eat ((does_call_top .typeList rfl).bind (fun _ => does_call_top .typeArgTail rfl) rfl)
    (does_pure ()) (by decide) rfl).fits rfl

/-- A list of type arguments asks for no lookahead before its first token, and surely consumes a
    token. -/
private theorem does_typeArgs (hfront : ∀ ks, front ks → ks ≠ []) :
    typeArgs.Does c ⟨ended, front, level, 0⟩ ⟨.sure, 0, 12⟩ :=
  (does_node ((does_bump hfront).bind_sure (fun _ => (does_call_top .typeList rfl).bind
    (fun _ => (does_call_top .typeArgTail rfl).bind (fun _ => does_require (by decide)) rfl) rfl)
    rfl rfl)).fits rfl

/-- The name of a type asks for 8 lookaheads, and takes at most 2 if it consumes nothing. -/
private theorem does_typeName : typeName.Does c ⟨ended, front, 0, 8⟩ ⟨.none, 2, 2⟩ := by
  have hargs : (isAt .less >>= fun b => if b = true then typeArgs else pure ()).Does c
      ⟨ended, anywhere, topLevel, 1⟩ ⟨.none, 1, 12⟩ :=
    does_isAt (does_typeArgs fun _ h => ne_nil_of_kind (by decide) h.2) (does_pure ())
  have hname : (node .typeName (bump >>= fun _ =>
      isAt .less >>= fun b => if b = true then typeArgs else pure ())).Does c
      ⟨ended, fun ks => front ks ∧ ks[0]?.getD .error = Kind.identifier, 0, 0⟩ ⟨.sure, 0, 12⟩ :=
    (does_node ((does_bump fun _ h => ne_nil_of_kind (by decide) h.2).bind_sure
      (fun _ => hargs) rfl rfl)).fits rfl
  exact (does_isAt ((does_deeper false hname (by simp) rfl).bind (fun _ => does_pure ()) rfl)
    (does_complain rfl)).fits rfl

/-! ## Lists -/

/-- An element is read where one of its first tokens is. -/
private theorem begins_element {form : ListForm} {ks : List Kind}
    (h : form.first.contains (ks[0]?.getD .error) = true) : form.element.begins ks = true := by
  cases ks with
  | nil => cases form <;> revert h <;> decide
  | cons k ks =>
    have hk : form.first.contains k = true := h
    cases form with
    | params =>
      rw [ListForm.first, TokenSet.contains_single] at hk
      exact hk
    | callArgs => exact hk
    | array => exact hk
    | record => exact hk

/-- An element is called where one of its first tokens is, and consumes that unless the parse is
    over. -/
private theorem does_element {form : ListForm}
    (hfront : ∀ ks, front ks → form.first.contains (ks[0]?.getD .error) = true) :
    (call form.element).Does c ⟨ended, front, 8, 64⟩ ⟨.unlessOver, 2, 6⟩ := by
  cases form <;>
    exact (does_call _ true (fun ks h _ => begins_element (hfront ks h)) rfl).fits rfl

/-- A comma after an element, or none, and the elements after it. -/
def elementTail (form : ListForm) : Fragment Unit := do
  if ← eat .comma then call (.elements form)
  else if ← isAtAny form.first then
    require .comma "`,` between list elements"
    call (.elements form)

/-- The loop over elements ends at once where the parse is over, and otherwise goes round after a
    token was consumed. -/
private theorem does_elements (form : ListForm) :
    (elements form).Does c ⟨ended, front, (Rule.elements form).height ended,
      (Rule.elements form).need ended⟩ ((Rule.elements form).effect ended false) := by
  cases ended with
  | true => exact does_stopped_bind ((does_pure ()).fits rfl) (by simp)
  | false =>
    -- After an element comes the rest of the list, or next to nothing if the parse is over.
    have hmore : (elementTail form).Does c ⟨false, anywhere, topLevel, 76⟩ ⟨.none, 12, 24⟩ :=
      (does_eat (does_call_top (.elements form) rfl) (does_isAtAny ((does_require (by decide)).bind
        (fun _ => does_call_top (.elements form) rfl) rfl) (does_pure ())) (by decide) rfl).fits rfl
    have hover : (elementTail form).Does c ⟨true, anywhere, 8, 12⟩ ⟨.none, 4, 0⟩ :=
      (does_eat (does_call_top (.elements form) rfl) (does_isAtAny ((does_require (by decide)).bind
        (fun _ => does_call_free (.elements form) rfl rfl) rfl) (does_pure ())) (by decide)
        rfl).fits rfl
    refine does_stopped_bind ((does_pure ()).fits rfl) fun _ => ?_
    refine (does_ahead_bind (n := 71) (e := ⟨.none, 7, 24⟩) 0 fun k _ => ?_).fits rfl
    split
    · exact (does_pure ()).fits rfl
    split
    · next hfirst =>
      exact ((does_element fun ks h => by rw [h.2]; exact hfirst).bind_unlessOver
        (fun _ => hmore) (fun _ => hover) rfl rfl).fits rfl
    -- An error element costs one complaint and is consumed, which refills the patience.
    split
    · exact (does_pure ()).fits rfl
    · exact (does_complain_bind ((does_node (does_bump fun _ h => h.1.2)).bind_sure
        (fun _ => (does_call_top (.elements form) rfl).live) rfl rfl) (by cases form <;> rfl)).fits
        rfl

/-- A list in delimiters asks for one lookahead, and surely consumes a token. -/
private theorem does_delimited (form : ListForm)
    (hfront : ∀ ks, front ks → ks[0]?.getD .error = form.delimiter.opener) :
    (delimited form).Does c ⟨ended, front, level, 1⟩ ⟨.sure, 0, if ended then 3 else 27⟩ := by
  have hne : ∀ ks, front ks → ks ≠ [] :=
    fun ks h => ne_nil_of_kind (by cases form <;> decide) (hfront ks h)
  cases ended <;>
    exact ((does_entered_bind (does_enclosed (does_call_top (.elements form) rfl) hne rfl rfl)
      hfront).sure rfl).fits rfl

/-! ## Primary expressions -/

/-- A property of a record asks for no lookahead before its first token, and surely consumes a
    token. -/
private theorem does_recordProp (hfront : ∀ ks, front ks → ks ≠ []) :
    recordProp.Does c ⟨ended, front, level, 0⟩ ⟨.sure, 0, 4⟩ :=
  (does_node ((does_bump hfront).bind_sure (fun _ => (does_expect (by decide)).bind
    (fun _ => does_ite (fun _ => does_call_top .expr rfl) fun _ => does_pure ()) rfl)
    rfl rfl)).fits rfl

/-- A list after a name. -/
private theorem does_named (form : ListForm) {k : Kind}
    (hfront : ∀ ks, front ks → ks ≠ [] ∧ ks[1]?.getD .error = form.delimiter.opener) :
    (node k (bump >>= fun _ => delimited form)).Does c ⟨false, front, level, 0⟩ ⟨.sure, 0, 27⟩ := by
  have hlist : (delimited form).Does c
      ⟨false, fun ks => ks[0]?.getD .error = form.delimiter.opener, topLevel, 1⟩ ⟨.sure, 0, 27⟩ :=
    does_delimited form fun _ h => h
  exact (does_node (does_bump_bind hlist
    (fun ks h => ⟨(hfront ks h).1, by simpa using (hfront ks h).2⟩) rfl)).fits rfl

/-- What begins with a name asks for 2 lookaheads, and surely consumes a token. -/
private theorem does_namePrimary (hfront : ∀ ks, front ks → ks ≠ []) :
    namePrimary.Does c ⟨false, front, level, 2⟩ ⟨.sure, 0, 27⟩ := by
  -- The name may be followed by the body of a record.
  have hrecord {front : List Kind → Prop} (hfront : ∀ ks, front ks → ks ≠ []) :
      (ahead 1 >>= fun k => if k = .lCurly then
        node .recordLiteral (bump >>= fun _ => delimited .record) else node .nameRef bump).Does c
        ⟨false, front, level, 1⟩ ⟨.sure, 0, 27⟩ :=
    ((does_ahead_bind 1 fun k _ => does_ite
      (fun hk => does_named .record fun ks h => ⟨hfront ks h.1, by rw [h.2]; exact hk⟩)
      fun _ => does_node (does_bump fun ks h => hfront ks h.1)).sure rfl).fits rfl
  exact ((does_ahead_bind 1 fun k _ => does_ite
    (fun hk => does_currentText_bind fun _ => does_ite
      (fun _ => does_named .array fun ks h => ⟨hfront ks h.1, by rw [h.2]; exact hk⟩)
      fun _ => hrecord fun ks h => hfront ks h.1)
    fun _ => hrecord fun ks h => hfront ks h.1).sure rfl).fits rfl

section looking

variable {α : Type} {n : Nat} {e : Effect} {f : Bool → Fragment α}

/-- What follows does the same, whatever is seen before. -/
private theorem does_after {m : Fragment α} (h : m.Does c ⟨ended, front, level, n⟩ e) (i : Nat)
    {front' : List Kind → Prop} (hfront : ∀ ks, front' ks → front ks) :
    m.Does c ⟨ended, front', level, i + n⟩ ⟨e.progress, i + e.idle, e.busy⟩ :=
  h.mono ⟨id, hfront, Nat.le_refl _, Nat.le_add_left _ _⟩
    ⟨Nat.le_refl _, Nat.le_add_left _ _, Nat.le_refl _⟩

/-- Two lookaheads one after the other. -/
private theorem does_after_after {m : Fragment α} {i j : Nat}
    (h : m.Does c ⟨ended, front, level, i + (j + n)⟩ ⟨e.progress, i + (j + e.idle), e.busy⟩) :
    m.Does c ⟨ended, front, level, i + j + n⟩ ⟨e.progress, i + j + e.idle, e.busy⟩ := by
  rwa [Nat.add_assoc, Nat.add_assoc]

/-- A colon that is not the first of two takes two lookaheads at most. -/
private theorem does_colon_bind (h : ∀ b, (f b).Does c ⟨ended, front, level, n⟩ e) (i j : Nat) :
    (ahead i >>= fun k => if k = .colon then ahead j >>= fun k => f (k != .colon)
      else f false).Does c ⟨ended, front, level, 2 + n⟩ ⟨e.progress, 2 + e.idle, e.busy⟩ := by
  refine does_after_after (i := 1) (j := 1)
    (does_ahead_bind (e := ⟨e.progress, 1 + e.idle, e.busy⟩) i fun k _ => ?_)
  split
  · exact does_ahead_bind j fun k _ => (h _).weaken fun ks hks => hks.1.1
  · exact does_after (h false) 1 fun ks hks => hks.1

/-- What is done with the answer is done in each branch. -/
private theorem colon_bind {i j : Nat} :
    ((ahead i >>= fun k => if k = .colon then ahead j >>= fun k => pure (k != .colon)
      else pure false) >>= f) =
      ahead i >>= fun k => if k = .colon then ahead j >>= fun k => f (k != .colon)
        else f false := by
  funext next
  simp [bind_apply, pure_apply, Fragment.ite_apply]

/-- Telling a function from an expression in parentheses takes three lookaheads at most. -/
private theorem does_atFnLiteral_bind (h : ∀ b, (f b).Does c ⟨ended, front, level, n⟩ e) :
    (atFnLiteral >>= f).Does c ⟨ended, front, level, 3 + n⟩ ⟨e.progress, 3 + e.idle, e.busy⟩ := by
  rw [atFnLiteral, Fragment.bind_assoc]
  refine does_after_after (i := 1) (j := 2)
    (does_ahead_bind (e := ⟨e.progress, 2 + e.idle, e.busy⟩) 1 fun k _ => ?_)
  split
  · exact does_after (h true) 2 fun ks hks => hks.1
  · rw [colon_bind]
    exact does_colon_bind (fun b => (h b).weaken fun ks hks => hks.1) 2 3
  · exact does_after (h false) 2 fun ks hks => hks.1

/-- So does telling a record from a block. -/
private theorem does_atRecordBody_bind (h : ∀ b, (f b).Does c ⟨ended, front, level, n⟩ e) :
    (atRecordBody >>= f).Does c ⟨ended, front, level, 3 + n⟩ ⟨e.progress, 3 + e.idle, e.busy⟩ := by
  rw [atRecordBody, Fragment.bind_assoc]
  refine does_after_after (i := 1) (j := 2)
    (does_ahead_bind (e := ⟨e.progress, 2 + e.idle, e.busy⟩) 1 fun k _ => ?_)
  split
  · rw [colon_bind]
    exact does_colon_bind (fun b => (h b).weaken fun ks hks => hks.1) 2 3
  · exact does_after (h false) 2 fun ks hks => hks.1

end looking

/-- A complaint about something that does not begin here. -/
private theorem does_complain_unless (begun : Bool) {problem : Problem}
    {detail expected : Option String}
    (hfront : ∀ ks, front ks → begun = false) (hseverity : problem.severity = .error) :
    (complain problem detail expected).Does c ⟨ended, front, level, 1⟩ ⟨.ofBool begun, 1, 0⟩ := by
  cases begun with
  | false => exact does_complain hseverity
  | true => exact does_absurd fun ks h => absurd (hfront ks h) (by decide)

/-- Where a rule begins is told by the first kind ahead. -/
private theorem begins_of_kind {rule : Rule} {ks : List Kind} {k : Kind}
    (h : ks[0]?.getD .error = k) (hk : k ≠ .error) : rule.begins ks = rule.first k := by
  cases ks with
  | nil => exact absurd h.symm hk
  | cons j js => rw [← h]; rfl

/-- Where a rule begins, the current token is one of its first. -/
private theorem first_of_begins {rule : Rule} {ks : List Kind} (h : rule.begins ks = true) :
    rule.first (ks[0]?.getD .error) = true := by
  cases ks with
  | nil => cases h
  | cons k ks => exact h

/-- A rule begins at its first kinds, unless they stand for the end. -/
private theorem begins_of_first {rule : Rule} {ks : List Kind}
    (h : rule.first (ks[0]?.getD .error) = true) (herror : rule.first .error = false) :
    rule.begins ks = true := by
  cases ks with
  | nil => exact absurd h (by simp [herror])
  | cons k ks => exact h

/-- A primary expression asks for 24 lookaheads, and consumes a token if it is called where it
    begins. -/
private theorem does_primary (begun : Bool) :
    primary.Does c ⟨false, fun ks => begun = true → Rule.primary.begins ks = true, 2, 24⟩
      ⟨.ofBool begun, 14, 32⟩ := by
  refine (does_ahead_bind (n := 20) (e := ⟨.ofBool begun, 13, 32⟩) 0 fun k _ => ?_).fits
    (by cases begun <;> rfl)
  have hne (hk : k ≠ .error) : ∀ ks, (begun = true → Rule.primary.begins ks = true) ∧
      ks[0]?.getD .error = k → ks ≠ [] := fun ks h => ne_nil_of_kind hk h.2
  split
  -- One case for each way an operand can start, in the order of the grammar.
  · exact (does_namePrimary (hne (by decide))).fits (by cases begun <;> rfl)
  · exact (does_node ((does_bump (hne (by decide))).bind_sure (fun _ => does_identifier) rfl
      rfl)).fits (by cases begun <;> rfl)
  · exact (does_node (does_delimited .record fun ks h => h.2)).fits (by cases begun <;> rfl)
  · exact (does_node (does_delimited .array fun ks h => h.2)).fits (by cases begun <;> rfl)
  · refine (does_atFnLiteral_bind (n := 16) (e := ⟨.unlessOver, 10, 32⟩) fun b => ?_).fits
      (by cases begun <;> rfl)
    -- Behind `(` the lookahead scan told a function literal from an expression in parentheses.
    split
    · exact does_node (does_call .fnTail true (fun ks h _ => begins_of_kind h.2 (by decide)) rfl)
    · exact (does_node (does_enclosed (does_call_top .expr rfl) (hne (by decide)) rfl rfl)).fits rfl
  · next hident hhash hcurly hbracket hparen =>
    have hliteral : TokenSet.literals.contains k = true → k ≠ .error := by
      rintro h rfl
      revert h
      decide
    -- What is neither a literal nor one of the tokens above begins nothing.
    have hnone : (begun = true → Rule.primary.first k = true) →
        ¬ TokenSet.literals.contains k = true → begun = false := by
      intro hbegun hk
      cases begun with
      | false => rfl
      | true =>
        have hfirst := hbegun rfl
        simp [Rule.first, TokenSet.primaryFirst, hk] at hfirst
        grind
    -- What is left are literals, or a complaint.
    split
    · next hk => exact (does_node (does_bump (hne (hliteral hk)))).fits (by cases begun <;> rfl)
    · next hk =>
      exact (does_complain_unless begun (fun ks h => hnone
        (fun hb => by rw [← h.2]; exact first_of_begins (h.1 hb)) hk) rfl).fits
        (by cases begun <;> rfl)

/-! ## Accessors -/

/-- The name behind a dot asks for 2 lookaheads, and takes at most 2 if it consumes nothing. -/
private theorem does_memberName {after : String} :
    (memberName after).Does c ⟨ended, front, level, 2⟩ ⟨.none, 2, 0⟩ :=
  (does_isAtAny (does_bump fun _ h => ne_nil_of_contains h.2 (by decide))
    (does_complain rfl)).fits rfl

/-- The tokens that an accessor opens with. -/
def Accessor.Opens : Accessor → List Kind → Prop
  | field, ks | index, ks | nonNull, ks => ks ≠ []
  | static, ks => ks ≠ [] ∧ ks.tail ≠ []
  | arguments, ks => ks[0]?.getD .error = Kind.lParen

/-- An accessor asks for one lookahead, and surely consumes a token. -/
private theorem does_accessor (a : Accessor) (hfront : ∀ ks, front ks → a.Opens ks) :
    (accessor a).Does c ⟨false, front, level, 1⟩ ⟨.sure, 0, 27⟩ := by
  refine does_node ?_
  cases a with
  | field => exact ((does_bump hfront).bind_sure (fun _ => does_memberName) rfl rfl).fits rfl
  | static =>
    have hname : (bump >>= fun _ => memberName "`::`").Does c ⟨false, (· ≠ []), topLevel, 0⟩
        ⟨.sure, 0, 2⟩ := (does_bump fun _ h => h).bind_sure (fun _ => does_memberName) rfl rfl
    exact (does_bump_bind hname hfront rfl).fits rfl
  | index => exact (does_enclosed (does_call_top .expr rfl) hfront rfl rfl).fits rfl
  | arguments => exact does_delimited .callArgs hfront
  | nonNull => exact (does_bump hfront).fits rfl

/-- Looking for an accessor takes two lookaheads at most. -/
private theorem does_accessorHere_bind {α : Type} {f : Option Accessor → Fragment α} {n : Nat}
    {e : Effect} (hsome : ∀ a, (f (some a)).Does c ⟨ended, a.Opens, level, n⟩ e)
    (hnone : (f none).Does c ⟨ended, front, level, n⟩ e) :
    (accessorHere >>= f).Does c ⟨ended, front, level, 2 + n⟩ ⟨e.progress, 2 + e.idle, e.busy⟩ := by
  rw [accessorHere, Fragment.bind_assoc]
  refine does_after_after (i := 1) (j := 1)
    (does_ahead_bind (e := ⟨e.progress, 1 + e.idle, e.busy⟩) 0 fun k _ => ?_)
  -- Only a colon asks for a second lookahead, since one alone begins no accessor.
  split
  · exact does_after (hsome _) 1 fun ks h => ne_nil_of_kind (by decide) h.2
  -- The second token settles whether a colon belongs to a static access.
  · rw [Fragment.bind_assoc]
    refine does_ahead_bind 1 fun k _ => ?_
    split
    · next hk =>
      refine (hsome .static).weaken fun ks h => ⟨ne_nil_of_kind (by decide) h.1.2, ?_⟩
      have hcolon : ks.tail[0]?.getD .error = Kind.colon := by simpa [hk] using h.2
      exact ne_nil_of_kind (by decide) hcolon
    · exact hnone.weaken fun ks h => h.1.1
  · exact does_after (hsome _) 1 fun ks h => ne_nil_of_kind (by decide) h.2
  · exact does_after (hsome _) 1 fun ks h => h.2
  · exact does_after (hsome _) 1 fun ks h => ne_nil_of_kind (by decide) h.2
  · exact does_after hnone 1 fun ks h => h.1

/-- The loop over accessors asks for 8 lookaheads, and takes at most 2 if it consumes nothing. -/
private theorem does_accessors (wrapped : Bool) :
    (accessors wrapped).Does c ⟨false, front, 0, 8⟩ ⟨.none, 2, 30⟩ := by
  have hmore (a : Accessor) : (accessor a >>= fun _ => call (.accessors true)).Does c
      ⟨false, a.Opens, 0, 1⟩ ⟨.sure, 0, 30⟩ :=
    ((does_accessor a fun _ h => h).bind_sure (fun _ => does_call_top (.accessors true) rfl) rfl
      rfl).fits rfl
  refine (does_accessorHere_bind (n := 1) (e := ⟨.none, 0, 30⟩) (fun a => ?_)
    ((does_pure ()).fits rfl)).fits rfl
  cases wrapped with
  | true => exact (hmore a).fits rfl
  | false => exact (does_wrap (hmore a)).fits rfl

/-! ## Operators -/

/-- A primary expression with its accessors asks for 25 lookaheads, and consumes a token if it is
    called where it begins. -/
private theorem does_member (begun : Bool) : member.Does c
    ⟨false, fun ks => begun = true → Rule.operand.begins ks = true, 3, 25⟩
    ⟨.ofBool begun, 17, 34⟩ := by
  -- The lookahead for `new` settles which of the two it is.
  have hnew : (node .memberExpr (bump >>= fun _ => call .primary >>= fun _ =>
      call (.accessors true))).Does c ⟨false, fun ks => (begun = true →
        Rule.operand.begins ks = true) ∧ ks[0]?.getD .error = Kind.kwNew, 3, 0⟩ ⟨.sure, 0, 34⟩ :=
    (does_node ((does_bump fun _ h => ne_nil_of_kind (by decide) h.2).bind_sure
      (fun _ => (does_call_top .primary rfl).bind
        (fun _ => does_call_top (.accessors true) rfl) rfl) rfl rfl)).fits rfl
  -- Without `new` an operand and its accessors follow.
  have hold : (call .primary >>= fun _ => call (.accessors false)).Does c
      ⟨false, fun ks => (begun = true → Rule.operand.begins ks = true) ∧
        ks[0]?.getD .error ≠ Kind.kwNew, 3, 24⟩ ⟨.ofBool begun, 16, 34⟩ := by
    refine ((does_call .primary begun (fun ks h hb => ?_) rfl).bind
      (fun _ => does_call_free (.accessors false) rfl rfl) rfl).fits (by cases begun <;> rfl)
    -- The operand has begun with a token other than `new`, or nothing is promised about it.
    obtain hb | hb := hb
    · cases ks with
      | nil => exact h.1 hb
      | cons k ks =>
        have hfirst : TokenSet.primaryFirst.contains k = true := h.1 hb
        have hk : k ≠ .kwNew := h.2
        simp [Rule.begins, Rule.first, hfirst, hk]
    · cases hb
  exact does_group ((does_isAt hnew hold).fits (by cases begun <;> rfl))

/-- An operand asks for 32 lookaheads, and consumes a token if it is called where it begins. -/
private theorem does_operand (begun : Bool) : operand.Does c
    ⟨false, fun ks => begun = true → Rule.operand.begins ks = true, 3, 32⟩
    ⟨.ofBool begun, 20, 36⟩ :=
  (does_group ((does_member begun).bind (fun _ => does_isAtAny
    (does_wrap (does_bump fun _ h => ne_nil_of_contains h.2 (by decide))) (does_pure ()))
    rfl)).fits (by cases begun <;> rfl)

/-- What a prefix operator applies to asks for 33 lookaheads, and consumes a token if it is called
    where it begins. -/
private theorem does_prefixOperand (begun : Bool) : prefixOperand.Does c
    ⟨false, fun ks => begun = true → Rule.operand.begins ks = true, 4, 33⟩
    ⟨.ofBool begun, 21, 36⟩ := by
  have hmissing : (exhausted >>= fun b => if b = true then pure () else
      missing .expectedExpression "an operand after the prefix operator").Does c
      ⟨false, fun ks => (begun = true → Rule.operand.begins ks = true) ∧
        TokenSet.primaryFirst.contains (ks[0]?.getD .error) = false, 4, 1⟩
      ⟨.ofBool begun, 1, 0⟩ := by
    -- A begun operand must have an operand token in front of it.
    cases begun with
    | false =>
      exact does_exhausted_bind fun _ =>
        (does_ite (fun _ => does_pure ()) fun _ => does_complain rfl).fits rfl
    | true =>
      refine does_absurd fun ks h => ?_
      have hfirst := first_of_begins (h.1 rfl)
      rw [Rule.first, h.2] at hfirst
      cases hfirst
  refine (does_isAtAny (does_call .operand begun (fun ks h hb => ?_) rfl) hmissing).fits
    (by cases begun <;> rfl)
  exact h.1 (hb.resolve_right (by decide))

/-- An expression that does not start with an operator starts with an operand. -/
private theorem begins_operand {ks : List Kind}
    (h : TokenSet.exprFirst.contains (ks[0]?.getD .error) = true)
    (hsigns : TokenSet.prefixOps.contains (ks[0]?.getD .error) = false) :
    Rule.operand.begins ks = true := by
  cases ks with
  | nil => exact absurd h (by decide)
  | cons k ks =>
    have hk : TokenSet.exprFirst.contains k = true := h
    have hk' : TokenSet.prefixOps.contains k = false := hsigns
    rw [TokenSet.exprFirst, TokenSet.contains_union, hk', Bool.or_false] at hk
    exact hk

/-- A run of prefix operators asks for 40 lookaheads, and consumes a token if it is called where it
    begins. -/
private theorem does_prefixes (begun : Bool) (count : Nat) : (prefixes count).Does c
    ⟨false, fun ks => begun = true → Rule.chain.begins ks = true, 4, 40⟩
    ⟨.ofBool begun, 24, 36⟩ := by
  -- A prefix, the operator and then the operand or the next prefix.
  have hnode {ended : Bool} {front : List Kind → Prop} (hfront : ∀ ks, front ks → ks ≠ []) :
      (node .prefixExpr (bump >>= fun _ => call (.prefixes (count + 1)))).Does c
        ⟨ended, front, 4, 0⟩ ⟨.sure, 0, 36⟩ :=
    (does_node ((does_bump hfront).bind_sure
      (fun _ => does_call_top (.prefixes (count + 1)) rfl) rfl rfl)).fits rfl
  -- If the level is refused, an operand is tried in its place.
  have hdeeper {ended : Bool} {front : List Kind → Prop} (hfront : ∀ ks, front ks → ks ≠ []) :
      (deeper (node .prefixExpr (bump >>= fun _ => call (.prefixes (count + 1)))) >>=
        fun granted => if granted = true then pure () else prefixOperand).Does c
        ⟨ended, front, 4, 33⟩ ⟨.unlessOver, 21, 36⟩ :=
    ((does_deeper true (hnode hfront) (fun _ => by decide) rfl).bind (fun _ => does_ite
      (fun _ => does_pure ()) fun _ => (does_prefixOperand false).live.weaken (by simp))
      rfl).fits rfl
  have hoperand : prefixOperand.Does c
      ⟨false, fun ks => (begun = true → Rule.chain.begins ks = true) ∧
        TokenSet.prefixOps.contains (ks[0]?.getD .error) = false, 4, 33⟩ ⟨.ofBool begun, 21, 36⟩ :=
    (does_prefixOperand begun).weaken fun ks h hb =>
      begins_operand (first_of_begins (h.1 hb)) h.2
  -- A prefix operator is a token, so there is something to consume.
  have hne : ∀ ks, (begun = true → Rule.chain.begins ks = true) ∧
      TokenSet.prefixOps.contains (ks[0]?.getD .error) = true → ks ≠ [] :=
    fun _ h => ne_nil_of_contains h.2 (by decide)
  exact (does_isAtAny (does_ite (fun _ => does_complain_bind (hdeeper hne) rfl)
    fun _ => hdeeper hne) hoperand).fits (by cases begun <;> rfl)

/-- A unary expression asks for 41 lookaheads, and consumes a token if it is called where it
    begins. -/
private theorem does_unary (begun : Bool) : unary.Does c
    ⟨false, fun ks => begun = true → Rule.chain.begins ks = true, 5, 41⟩
    ⟨.ofBool begun, 25, 36⟩ := by
  refine (does_isAtAny (does_call (.prefixes 0) begun (fun ks h hb => ?_) rfl)
    (does_call .operand begun (fun ks h hb => ?_) rfl)).fits (by cases begun <;> rfl)
  · exact h.1 (hb.resolve_right (by decide))
  · exact begins_operand (first_of_begins (h.1 (hb.resolve_right (by decide)))) h.2

/-- A chain of operators asks for 48 lookaheads, and consumes a token if it is called where it
    begins. -/
private theorem does_chain (begun : Bool) : chain.Does c
    ⟨false, fun ks => begun = true → Rule.chain.begins ks = true, 5, 48⟩
    ⟨.ofBool begun, 28, 38⟩ := by
  refine ((does_unary begun).bind (fun _ => does_ahead_bind (n := 5) (e := ⟨.none, 1, 2⟩) 0
    fun k _ => ?_) rfl).fits (by cases begun <;> rfl)
  split
  · next hk =>
    have hne : ∀ ks, anywhere ks ∧ ks[0]?.getD .error = k → ks ≠ [] :=
      fun ks h => ne_nil_of_contains (by rw [h.2]; exact hk) (by decide)
    -- An operator has been seen, so it is consumed and refills the patience before its operand is
    -- read.
    have hwrap : (wrap .binaryExpr (bump >>= fun _ => isAtAny .exprFirst >>= fun b =>
        if b = true then group (call .chain)
        else missing .expectedExpression "an operand after the operator")).Does c
        ⟨false, fun ks => anywhere ks ∧ ks[0]?.getD .error = k, 5, 0⟩ ⟨.sure, 0, 40⟩ :=
      (does_wrap ((does_bump hne).bind_sure (fun _ => does_isAtAny
        (does_group (does_call_top .chain rfl)) (does_complain rfl)) rfl rfl)).fits rfl
    exact ((does_deeper false hwrap (by simp) rfl).bind (fun _ => does_pure ()) rfl).fits rfl
  -- `is` is followed by a name only, so no level is entered for it.
  split
  · next hk =>
    exact (does_wrap ((does_bump fun ks h => ne_nil_of_kind (by decide) (h.2.trans hk)).bind_sure
      (fun _ => does_eat (does_pure ()) (does_complain rfl) (by decide) rfl) rfl rfl)).fits rfl
  · exact (does_pure ()).fits rfl

/-- An expression asks for 56 lookaheads, and consumes a token if it is called where it begins. -/
private theorem does_expr (begun : Bool) : expr.Does c
    ⟨false, fun ks => begun = true → Rule.expr.begins ks = true, 6, 56⟩
    ⟨.ofBool begun, 2, 0⟩ := by
  have hchain : (group (call .chain)).Does c
      ⟨false, fun ks => (begun = true → Rule.expr.begins ks = true) ∧
        TokenSet.exprFirst.contains (ks[0]?.getD .error) = true, 6, 48⟩
      ⟨.ofBool begun, 28, 38⟩ :=
    does_group (does_call .chain begun (fun ks h hb => h.1 (hb.resolve_right (by decide))) rfl)
  -- What begins an expression cannot be found missing.
  have hmissing : ∀ ks, (begun = true → Rule.expr.begins ks = true) ∧
      TokenSet.exprFirst.contains (ks[0]?.getD .error) = false → begun = false := by
    intro ks h
    cases begun with
    | false => rfl
    | true =>
      have hfirst := first_of_begins (h.1 rfl)
      rw [Rule.first, h.2] at hfirst
      cases hfirst
  exact (does_isAtAny ((does_deeper begun hchain (by cases begun <;> decide) rfl).bind
    (fun _ => does_pure ()) rfl) (does_complain_unless begun hmissing rfl)).fits
    (by cases begun <;> rfl)

/-! ## Statements -/

/-- An initializer asks for one lookahead, and surely consumes a token. -/
private theorem does_initializer (hfront : ∀ ks, front ks → Rule.initializer.begins ks = true) :
    initializer.Does c ⟨ended, front, level, 1⟩ ⟨.sure, 0, 4⟩ := by
  have hk : ∀ ks, front ks → ks[0]?.getD .error = Kind.eq :=
    fun ks h => by simpa [Rule.first] using first_of_begins (hfront ks h)
  exact ((does_entered_bind (does_node ((does_bump fun ks h =>
    ne_nil_of_kind (by decide) (hk ks h)).bind_sure (fun _ => does_call_top .expr rfl) rfl rfl))
    hk).sure rfl).fits rfl

/-- An expression as a statement, and the semicolon after it. -/
private theorem does_exprStmt (terminated : Bool)
    (hfront : ∀ ks, front ks → TokenSet.exprFirst.contains (ks[0]?.getD .error) = true)
    (hlevel : Nat.ble 7 level = true) :
    (exprStmt terminated).Does c ⟨ended, front, level, 56⟩ ⟨.unlessOver, 3, 1⟩ :=
  (does_node ((does_call .expr true
    (fun ks h _ => begins_of_first (hfront ks h) (by decide)) hlevel).bind (fun _ => does_ite
    (fun _ => does_optionally (by decide)) fun _ => does_pure ()) rfl)).fits rfl

/-- The recovery from what begins no statement asks for one lookahead, and surely consumes a
    token. -/
private theorem does_recoverStatement (hfront : ∀ ks, front ks → ks ≠ []) :
    recoverStatement.Does c ⟨ended, front, level, 1⟩ ⟨.sure, 1, 4⟩ :=
  does_setAside (does_optionally (by decide)) hfront rfl

/-- A block asks for 8 lookaheads, and consumes a token if it is called where it begins. -/
private theorem does_block (begun : Bool) : block.Does c
    ⟨false, fun ks => begun = true → Rule.block.begins ks = true, 0, 8⟩ ⟨.ofBool begun, 4, 20⟩ := by
  -- With a brace in front the block is consumed, so that patience is refilled.
  have hblock : (enclosedNonempty .curly "block" .emptyBlock (ask (.statements false)) >>= fun _ =>
      optionally .semiColon).Does c ⟨false, fun ks => (begun = true →
        Rule.block.begins ks = true) ∧ ks[0]?.getD .error = Kind.lCurly, 0, 0⟩ ⟨.sure, 0, 20⟩ :=
    ((does_enclosedNonempty (does_ask (.statements false) false (by simp [Rule.demands]) rfl)
      (fun ks h => ne_nil_of_kind (by decide) h.2) rfl rfl).bind_sure
      (fun _ => does_optionally (by decide)) rfl rfl).fits rfl
  have hmissing : (require .lCurly "`\x7b` to start a block").Does c
      ⟨false, fun ks => (begun = true → Rule.block.begins ks = true) ∧
        ks[0]?.getD .error ≠ Kind.lCurly, 0, 2⟩ ⟨.ofBool begun, 2, 0⟩ := by
    cases begun with
    | false => exact does_require (by decide)
    | true =>
      refine does_absurd fun ks h => h.2 ?_
      simpa [Rule.first] using first_of_begins (h.1 rfl)
  exact (does_node (does_isAt hblock hmissing)).fits (by cases begun <;> rfl)

/-- The body of a function or a loop asks for 8 lookaheads, and takes at most 3 if it consumes
    nothing. -/
private theorem does_body :
    body.Does c ⟨ended, front, 0, 8⟩ ⟨.none, 3, if ended then 4 else 20⟩ := by
  cases ended <;>
    exact (does_node (does_isAt (does_enclosed (does_call_top (.statements false) rfl)
      (fun ks h => ne_nil_of_kind (by decide) h.2) rfl rfl) (does_require (by decide)))).fits rfl

/-- A condition in parentheses asks for 60 lookaheads, and takes at most 6 if it consumes
    nothing. -/
private theorem does_condition {keyword : String} :
    (condition keyword).Does c ⟨ended, front, topLevel, 60⟩ ⟨.none, 6, 4⟩ :=
  ((does_require (by decide)).bind (fun _ => (does_call_top .expr rfl).bind
    (fun _ => does_require (by decide)) rfl) rfl).fits rfl

/-- A condition, a body and what follows it. -/
private theorem does_conditional {keyword : String} {m : Fragment Unit}
    (h : m.Does c ⟨false, anywhere, topLevel, 40⟩ ⟨.none, 4, 24⟩) :
    (condition keyword >>= fun _ => call .body >>= fun _ => m).Does c
      ⟨false, front, topLevel, 60⟩ ⟨.none, 13, 24⟩ :=
  (does_condition.bind (fun _ => (does_call_top .body rfl).bind (fun _ => h) rfl) rfl).fits rfl

/-- An `if` statement asks for one lookahead, and surely consumes a token. -/
private theorem does_ifStmt (terminated : Bool)
    (hfront : ∀ ks, front ks → (Rule.ifStmt terminated).begins ks = true) :
    (ifStmt terminated).Does c ⟨false, front, level, 1⟩ ⟨.sure, 0, 24⟩ := by
  have hk : ∀ ks, front ks → ks[0]?.getD .error = Kind.kwIf :=
    fun ks h => by simpa [Rule.first] using first_of_begins (hfront ks h)
  -- After the block the statement may end or go on with `else`.
  have hend {front : List Kind → Prop} :
      (if terminated = true then optionally .semiColon else pure () : Fragment Unit).Does c
        ⟨false, front, topLevel, 1⟩ ⟨.none, 1, 0⟩ :=
    (does_ite (fun _ => does_optionally (by decide)) fun _ => does_pure ()).fits rfl
  have helse : (node .elseClause (bump >>= fun _ => isAt .kwIf >>= fun b => if b = true then
      deeper (call (.ifStmt false)) >>= fun _ => pure () else call .body)).Does c
      ⟨false, fun ks => anywhere ks ∧ ks[0]?.getD .error = Kind.kwElse, topLevel, 0⟩
      ⟨.sure, 0, 20⟩ :=
    (does_node ((does_bump fun ks h => ne_nil_of_kind (by decide) h.2).bind_sure (fun _ =>
      does_isAt ((does_deeper false (does_call (.ifStmt false) false
        (fun ks h _ => begins_of_kind h.2 (by decide)) rfl) (by simp) rfl).bind
        (fun _ => does_pure ()) rfl) (does_call_top .body rfl)) rfl rfl)).fits rfl
  exact ((does_entered_bind (does_node ((does_bump fun ks h =>
    ne_nil_of_kind (by decide) (hk ks h)).bind_sure (fun _ => does_conditional
      ((does_isAt (helse.bind (fun _ => hend) rfl) hend).fits rfl)) rfl rfl)) hk).sure rfl).fits rfl

/-- A `while` statement asks for no lookahead before its first token, and surely consumes a
    token. -/
private theorem does_whileStmt (hfront : ∀ ks, front ks → ks ≠ []) :
    whileStmt.Does c ⟨false, front, level, 0⟩ ⟨.sure, 0, 24⟩ :=
  (does_node ((does_bump hfront).bind_sure (fun _ => does_conditional
    ((does_optionally (by decide)).fits rfl)) rfl rfl)).fits rfl

/-- The head of a loop up to the second semicolon. -/
private theorem does_forHead {m : Fragment Unit}
    (h : m.Does c ⟨false, anywhere, topLevel, 80⟩ ⟨.none, 10, 24⟩) :
    (require .lParen "`(` after `for`" >>= fun _ => identifier "a loop variable" >>= fun _ =>
      require .eq "`=` after the loop variable" >>= fun _ => call .expr >>= fun _ =>
      require .semiColon "`;` after the loop initializer" >>= fun _ => call .expr >>= fun _ =>
      require .semiColon "`;` after the loop condition" >>= fun _ => m).Does c
      ⟨false, front, topLevel, 100⟩ ⟨.none, 24, 24⟩ :=
  ((does_require (by decide)).bind (fun _ => does_identifier.bind
    (fun _ => (does_require (by decide)).bind (fun _ => (does_call_top .expr rfl).bind
    (fun _ => (does_require (by decide)).bind (fun _ => (does_call_top .expr rfl).bind
    (fun _ => (does_require (by decide)).bind (fun _ => h) rfl) rfl) rfl) rfl) rfl) rfl) rfl).fits
    rfl

/-- A `for` statement asks for no lookahead before its first token, and surely consumes a token. -/
private theorem does_forStmt (hfront : ∀ ks, front ks → ks ≠ []) :
    forStmt.Does c ⟨false, front, level, 0⟩ ⟨.sure, 0, 24⟩ := by
  have hend : (require .rParen "`)` to close the loop header" >>= fun _ => call .body >>= fun _ =>
      optionally .semiColon).Does c ⟨false, anywhere, topLevel, 20⟩ ⟨.none, 6, 21⟩ :=
    ((does_require (by decide)).bind (fun _ => (does_call_top .body rfl).bind
      (fun _ => does_optionally (by decide)) rfl) rfl).fits rfl
  have hupdate : (exprStmt false).Does c
      ⟨false, fun ks => anywhere ks ∧ TokenSet.exprFirst.contains (ks[0]?.getD .error) = true,
        topLevel, 56⟩ ⟨.none, 3, 1⟩ :=
    (does_exprStmt false (fun ks h => h.2) rfl).fits rfl
  exact (does_node ((does_bump hfront).bind_sure (fun _ => does_forHead
    ((does_isAtAny (hupdate.bind (fun _ => hend) rfl)
      ((does_complain rfl).bind (fun _ => hend) rfl)).fits rfl)) rfl rfl)).fits rfl

/-- The recovery from a missing variable asks for 10 lookaheads, and takes at most 3 if it consumes
    nothing. -/
private theorem does_missingVariable :
    missingVariable.Does c ⟨false, front, topLevel, 10⟩ ⟨.none, 3, 2⟩ := by
  have hskip {ended : Bool} {front : List Kind → Prop} : (call (.skipTo .varNameRecovery)).Does c
      ⟨ended, front, topLevel, 8⟩ ⟨.none, 1, 2⟩ := does_call_top (.skipTo .varNameRecovery) rfl
  have hstopped {front : List Kind → Prop} : (stopped >>= fun b => if b = true then
      missing .expectedIdentifier "a variable name" else node .error
        (missing .expectedIdentifier "a variable name" >>= fun _ =>
          call (.skipTo .varNameRecovery))).Does c ⟨false, front, topLevel, 9⟩ ⟨.none, 2, 2⟩ :=
    does_stopped_bind ((does_complain rfl).fits rfl) fun _ =>
      (does_node (does_complain_bind hskip rfl)).fits rfl
  exact (does_isAtAny (does_complain rfl) hstopped).fits rfl

/-- A declaration of a variable asks for no lookahead before its first token, and surely consumes a
    token. -/
private theorem does_varStmt (hfront : ∀ ks, front ks → ks ≠ []) :
    varStmt.Does c ⟨false, front, level, 0⟩ ⟨.sure, 0, 24⟩ := by
  -- The value and the type are optional.
  have hend {front : List Kind → Prop} : (isAt .eq >>= fun b => if b = true then
      call .initializer >>= fun _ => optionally .semiColon else optionally .semiColon).Does c
      ⟨false, front, topLevel, 65⟩ ⟨.none, 2, 5⟩ :=
    (does_isAt ((does_call .initializer false (fun ks h _ => begins_of_kind h.2 (by decide))
      rfl).bind (fun _ => does_optionally (by decide)) rfl) (does_optionally (by decide))).fits rfl
  have htype {front : List Kind → Prop} : (eat .colon >>= fun b => if b = true then
      call .typeList >>= fun _ => isAt .eq >>= fun b => if b = true then
        call .initializer >>= fun _ => optionally .semiColon else optionally .semiColon
      else isAt .eq >>= fun b => if b = true then
        call .initializer >>= fun _ => optionally .semiColon else optionally .semiColon).Does c
      ⟨false, front, topLevel, 70⟩ ⟨.none, 3, 8⟩ :=
    (does_eat ((does_call_top .typeList rfl).bind (fun _ => hend) rfl) hend (by decide) rfl).fits
      rfl
  exact (does_node ((does_bump hfront).bind_sure (fun _ => does_eat htype
    (does_missingVariable.bind (fun _ => htype) rfl) (by decide) rfl) rfl rfl)).fits rfl

/-- A `return` statement asks for no lookahead before its first token, and surely consumes a
    token. -/
private theorem does_returnStmt (hfront : ∀ ks, front ks → ks ≠ []) :
    returnStmt.Does c ⟨false, front, level, 0⟩ ⟨.sure, 0, 24⟩ :=
  (does_node ((does_bump hfront).bind_sure (fun _ => (does_call_top .expr rfl).bind
    (fun _ => does_optionally (by decide)) rfl) rfl rfl)).fits rfl

/-- A statement asks for 72 lookaheads, and consumes a token unless the parse is over. -/
private theorem does_statement (hfront : ∀ ks, front ks → ks ≠ []) :
    statement.Does c ⟨false, front, 8, 72⟩ ⟨.unlessOver, 0, 0⟩ := by
  rw [statement]
  refine ((does_deeper (n := 72) (e := ⟨.unlessOver, 8, 24⟩) true ?_ (fun _ => by decide) rfl).bind
    (fun _ => does_pure ()) rfl).fits rfl
  refine (does_ahead_bind (n := 60) (e := ⟨.unlessOver, 7, 24⟩) 0 fun k _ => ?_).fits rfl
  have hne : ∀ ks, front ks ∧ ks[0]?.getD .error = k → ks ≠ [] := fun ks h => hfront ks h.1
  -- Each branch calls a rule that consumes what is in front of it.
  split
  · refine (does_atRecordBody_bind (n := 56) (e := ⟨.unlessOver, 4, 24⟩) fun b => ?_).fits rfl
    split
    · exact (does_exprStmt true (fun ks h => by rw [h.2]; decide) rfl).fits rfl
    · exact (does_call .block true (fun ks h _ => begins_of_kind h.2 (by decide)) rfl).fits rfl
  · exact (does_call (.ifStmt true) true (fun ks h _ => begins_of_kind h.2 (by decide)) rfl).fits
      rfl
  · exact (does_whileStmt hne).fits rfl
  · exact (does_forStmt hne).fits rfl
  · exact (does_varStmt hne).fits rfl
  · exact (does_returnStmt hne).fits rfl
  · split
    · next hk => exact (does_exprStmt true (fun ks h => by rw [h.2]; exact hk) rfl).fits rfl
    · exact (does_recoverStatement hne).fits rfl

/-- A declaration among statements.  It is an error, so it is the last thing that a strict parse
    reads; where lookaheads are not counted, what it costs does not matter. -/
private theorem does_misplaced (rule : Rule) {detail : Option String} (hmode : c.mode ≠ .plain)
    (hfront : ∀ ks, front ks → rule.begins ks = true) (hrule : rule = .fnDecl ∨ rule = .typeDecl) :
    (complain .unexpectedToken detail none >>= fun _ => call rule >>= fun _ =>
      ask (.statements true)).Does c ⟨false, front, 9, 79⟩ ⟨.none, 9, 16⟩ := by
  -- The complaint comes first and puts an end to a strict parse.
  suffices h : (call rule >>= fun _ => ask (.statements true)).Does c
      ⟨false || decide (c.mode = .strict), front, 9, 78⟩ ⟨.none, 8, 16⟩ from
    (does_complain_bind h rfl).fits rfl
  cases hc : c.mode with
  | plain => exact absurd hc hmode
  | any =>
    -- The list goes on with the patience refilled if the declaration read anything.
    have hmore : (ask (.statements true)).Does c ⟨false, anywhere, topLevel, 80⟩ ⟨.none, 0, 0⟩ :=
      does_ask_any (.statements true) false hc (by simp [Rule.demands]) rfl
    have hover : (ask (.statements true)).Does c ⟨true, anywhere, 9, 8⟩ ⟨.none, 0, 0⟩ :=
      does_ask_any (.statements true) false hc (by simp [Rule.demands]) rfl
    have hcall : (call rule).Does c ⟨false, front, 9, 32⟩ ⟨.unlessOver, 0, 0⟩ := by
      obtain rfl | rfl := hrule
      · exact (does_call_any .fnDecl true hc (fun ks h _ => hfront ks h) rfl).fits rfl
      · exact (does_call_any .typeDecl true hc (fun ks h _ => hfront ks h) rfl).fits rfl
    exact (hcall.bind_unlessOver (fun _ => hmore) (fun _ => hover) rfl rfl).live.fits rfl
  -- In strict mode only the way out of the list is left.
  | strict =>
    have hover : (ask (.statements true)).Does c ⟨true, anywhere, 9, 8⟩ ⟨.none, 0, 0⟩ :=
      does_ask (.statements true) false (by simp [Rule.demands]) rfl
    have hcall : (call rule).Does c ⟨true, front, 9, 32⟩ ⟨.none, 8, 14⟩ := by
      obtain rfl | rfl := hrule
      · exact (does_call .fnDecl false (fun ks h _ => hfront ks h) rfl).fits rfl
      · exact (does_call .typeDecl false (fun ks h _ => hfront ks h) rfl).fits rfl
    exact (hcall.bind (fun _ => hover) rfl).fits rfl

/-- The loop over statements ends at once where the parse is over, and otherwise goes round after a
    token was consumed. -/
private theorem does_statements (seen : Bool) :
    (statements seen).Does c ⟨ended, front, (Rule.statements seen).height ended,
      (Rule.statements seen).need ended⟩ ((Rule.statements seen).effect ended false) := by
  cases ended with
  -- After the end of the parse the list returns at its first lookahead.
  | true => exact does_stopped_bind ((does_pure seen).fits rfl) (by simp)
  | false =>
    have hmore (seen : Bool) {ended : Bool} : (ask (.statements seen)).Does c
        ⟨ended, anywhere, topLevel, 80⟩ ⟨.none, 10, 16⟩ :=
      (does_ask (.statements seen) false (by simp [Rule.demands]) rfl).live
    have hover (seen : Bool) : (ask (.statements seen)).Does c
        ⟨true, anywhere, 9, 8⟩ ⟨.none, 0, 0⟩ :=
      does_ask (.statements seen) false (by simp [Rule.demands]) rfl
    refine does_stopped_bind ((does_pure seen).fits rfl) fun _ => ?_
    refine (does_ahead_bind (n := 79) (e := ⟨.none, 9, 16⟩) 0 fun k hshows => ?_).fits rfl
    have hne : ∀ ks, (front ks ∧ ks ≠ []) ∧ ks[0]?.getD .error = k → ks ≠ [] := fun ks h => h.1.2
    -- The tokens that declare something do not turn up in plain sources.
    have hplain : TokenSet.declarators.contains k = true → c.mode ≠ .plain := by
      intro hk hmode
      rw [hshows hmode] at hk
      cases hk
    split
    · exact (does_pure seen).fits rfl
    · exact (does_remark_bind ((does_bump hne).bind_sure (fun _ => hmore seen) rfl rfl)
        fun _ => rfl).fits rfl
    · exact does_misplaced .fnDecl (hplain (by decide))
        (fun ks h => begins_of_kind h.2 (by decide)) (.inl rfl)
    · exact does_misplaced .typeDecl (hplain (by decide))
        (fun ks h => begins_of_kind h.2 (by decide)) (.inr rfl)
    · exact does_misplaced .typeDecl (hplain (by decide))
        (fun ks h => begins_of_kind h.2 (by decide)) (.inr rfl)
    · have hcall {ended : Bool} : (call .importDecl).Does c ⟨ended, fun ks => (front ks ∧ ks ≠ []) ∧
          ks[0]?.getD .error = Kind.kwImport, 9, 8⟩ ⟨.unlessOver, 0, 4⟩ :=
        does_call .importDecl true (fun ks h _ => begins_of_kind h.2 (by decide)) rfl
      exact (does_complain_bind (hcall.bind_unlessOver (fun _ => hmore seen) (fun _ => hover seen)
        rfl rfl) rfl).fits rfl
    -- A statement, or tokens that start none and are dropped up to the next one.
    · split
      · have hcall : (call .statement).Does c ⟨false, fun ks => (front ks ∧ ks ≠ []) ∧
            ks[0]?.getD .error = k, 9, 72⟩ ⟨.unlessOver, 0, 0⟩ :=
          does_call .statement true (fun ks h _ => by
            obtain ⟨j, js, rfl⟩ := List.exists_cons_of_ne_nil h.1.2
            rfl) rfl
        exact (hcall.bind_unlessOver (fun _ => hmore true) (fun _ => hover true) rfl rfl).fits rfl
      · exact ((does_recoverStatement hne).bind_sure (fun _ => hmore seen) rfl rfl).fits rfl

/-! ## Declarations -/

/-- The type behind a colon asks for 32 lookaheads, and takes at most 6 if it consumes nothing. -/
private theorem does_ascription {what : String} :
    (ascription what).Does c ⟨ended, front, topLevel, 32⟩ ⟨.none, 6, 6⟩ :=
  ((does_expect (by decide)).bind (fun _ => does_ite (fun _ => does_call_top .typeList rfl)
    fun _ => does_isAt (does_call_top .typeList rfl) (does_pure ())) rfl).fits rfl

/-- A parameter asks for no lookahead before its first token, and surely consumes a token. -/
private theorem does_param (hfront : ∀ ks, front ks → ks ≠ []) :
    param.Does c ⟨ended, front, level, 0⟩ ⟨.sure, 0, 6⟩ :=
  (does_node ((does_bump hfront).bind_sure (fun _ => does_ascription) rfl rfl)).fits rfl

/-- The tail of a declaration of a function asks for 16 lookaheads, and consumes a token if it is
    called where it begins. -/
private theorem does_fnTail (begun : Bool) : fnTail.Does c
    ⟨ended, fun ks => begun = true → Rule.fnTail.begins ks = true, 1, 16⟩
    ⟨.ofBool begun, 10, if ended then 14 else 32⟩ := by
  -- What comes after the parameters, at either level.
  have hend {front : List Kind → Prop} {level : Nat} (hlevel : Nat.ble 1 level = true) :
      (eat .colon >>= fun b => if b = true then call .typeList >>= fun _ => call .body
        else call .body).Does c ⟨ended, front, level, 10⟩
        ⟨.none, 4, if ended then 9 else 20⟩ := by
    -- The body is optional after a semicolon; both ways out need the same patience.
    have hbody {front : List Kind → Prop} {level : Nat} (hlevel : Nat.ble 1 level = true) :
        (call .body).Does c ⟨ended, front, level, 8⟩ ⟨.none, 3, if ended then 4 else 20⟩ :=
      does_call_free .body hlevel rfl
    cases ended <;>
      exact (does_eat ((does_call_top .typeList rfl).bind (fun _ => hbody rfl) rfl) (hbody hlevel)
        (by decide) rfl).fits rfl
  have hparams : (node .paramList (delimited .params) >>= fun _ => eat .colon >>= fun b =>
      if b = true then call .typeList >>= fun _ => call .body else call .body).Does c
      ⟨ended, fun ks => (begun = true → Rule.fnTail.begins ks = true) ∧
        ks[0]?.getD .error = Kind.lParen, 1, 1⟩ ⟨.sure, 0, if ended then 14 else 32⟩ := by
    cases ended <;>
      exact ((does_node (does_delimited .params fun ks h => h.2)).bind_sure
        (fun _ => hend rfl) rfl rfl).fits rfl
  -- Without `(` the list of parameters is reported missing, unless the caller saw it.
  have hmissing : (require .lParen "`(` to start the parameter list" >>= fun _ =>
      eat .colon >>= fun b => if b = true then call .typeList >>= fun _ => call .body
        else call .body).Does c
      ⟨ended, fun ks => (begun = true → Rule.fnTail.begins ks = true) ∧
        ks[0]?.getD .error ≠ Kind.lParen, 1, 12⟩ ⟨.ofBool begun, 6, if ended then 14 else 32⟩ := by
    cases begun with
    | false =>
      cases ended <;> exact ((does_require (by decide)).bind (fun _ => hend rfl) rfl).fits rfl
    | true =>
      refine does_absurd fun ks h => h.2 ?_
      simpa [Rule.first] using first_of_begins (h.1 rfl)
  cases ended <;> exact (does_isAt hparams hmissing).fits (by cases begun <;> rfl)

/-- A declaration of a function asks for one lookahead, and surely consumes a token. -/
private theorem does_fnDecl (hfront : ∀ ks, front ks → Rule.fnDecl.begins ks = true) :
    fnDecl.Does c ⟨ended, front, level, 1⟩ ⟨.sure, 0, if ended then 14 else 32⟩ := by
  have hk : ∀ ks, front ks → ks[0]?.getD .error = Kind.kwFunction :=
    fun ks h => by simpa [Rule.first] using first_of_begins (hfront ks h)
  have hrest : (identifier "a function name" >>= fun _ => call .fnTail).Does c
      ⟨ended, anywhere, topLevel, 18⟩ ⟨.none, 12, if ended then 14 else 32⟩ := by
    cases ended <;> exact (does_identifier.bind (fun _ => does_call_top .fnTail rfl) rfl).fits rfl
  cases ended <;>
    exact ((does_entered_bind (does_node ((does_bump fun ks h =>
      ne_nil_of_kind (by decide) (hk ks h)).bind_sure (fun _ => hrest) rfl rfl)) hk).sure rfl).fits
      rfl

/-- A declaration of an attribute asks for no lookahead before its first token, and surely consumes
    a token. -/
private theorem does_attrDecl (hfront : ∀ ks, front ks → ks ≠ []) :
    attrDecl.Does c ⟨ended, front, level, 0⟩ ⟨.sure, 0, 12⟩ :=
  (does_node ((does_bump hfront).bind_sure (fun _ => does_ascription.bind (fun _ => does_isAt
    (does_call .initializer false (fun ks h _ => begins_of_kind h.2 (by decide)) rfl)
    (does_pure ())) rfl) rfl rfl)).fits rfl

/-- An import asks for one lookahead, and surely consumes a token. -/
private theorem does_importDecl (hfront : ∀ ks, front ks → Rule.importDecl.begins ks = true) :
    importDecl.Does c ⟨ended, front, level, 1⟩ ⟨.sure, 0, 4⟩ := by
  have hk : ∀ ks, front ks → ks[0]?.getD .error = Kind.kwImport :=
    fun ks h => by simpa [Rule.first] using first_of_begins (hfront ks h)
  exact ((does_entered_bind (does_node ((does_bump fun ks h =>
    ne_nil_of_kind (by decide) (hk ks h)).bind_sure (fun _ => does_isAtAny
      ((does_bump fun _ h => ne_nil_of_contains h.2 (by decide)).bind
        (fun _ => does_optionally (by decide)) rfl)
      ((does_complain rfl).bind (fun _ => does_optionally (by decide)) rfl)) rfl rfl)) hk).sure
    rfl).fits rfl

/-- The declaration of a member after its modifiers. -/
private theorem does_declaration (front : List Kind → Prop) (level : Nat) (begun : Bool)
    (hlevel : Nat.ble 3 level = true) (hfront : ∀ ks, front ks → begun = true →
      ks[0]?.getD .error = Kind.kwFunction ∨ ks[0]?.getD .error = Kind.identifier) :
    (current >>= fun k =>
      match k with
      | .kwFunction => call .fnDecl >>= fun _ => optionally .semiColon
      | .identifier => attrDecl >>= fun _ => optionally .semiColon
      | _ => missing .expectedIdentifier "an attribute or function declaration" >>= fun _ =>
          optionally .semiColon).Does c ⟨false, front, level, 25⟩ ⟨.ofBool begun, 3, 33⟩ := by
  refine (does_ahead_bind (n := 24) (e := ⟨.ofBool begun, 2, 33⟩) 0 fun k _ => ?_).fits
    (by cases begun <;> rfl)
  split
  -- A function, whose semicolon is optional, or an attribute.
  · exact ((does_call .fnDecl begun (fun ks h _ => begins_of_kind h.2 (by decide)) hlevel).bind
      (fun _ => does_optionally (by decide)) rfl).fits (by cases begun <;> rfl)
  · exact ((does_attrDecl fun ks h => ne_nil_of_kind (by decide) h.2).bind
      (fun _ => does_optionally (by decide)) rfl).fits (by cases begun <;> rfl)
  -- Neither a function nor an attribute is ahead, which contradicts how a member begins.
  · next hfn hname =>
    refine ((does_complain_unless begun (fun ks h => ?_) rfl).bind
      (fun _ => does_optionally (by decide)) rfl).fits (by cases begun <;> rfl)
    cases begun with
    | false => rfl
    | true =>
      obtain hk | hk := hfront ks h.1 rfl
      · exact absurd (h.2.symm.trans hk) hfn
      · exact absurd (h.2.symm.trans hk) hname

/-- A member of a type asks for 72 lookaheads, and consumes a token if it is called where it
    begins. -/
private theorem does_typeMember (begun : Bool) : typeMember.Does c
    ⟨false, fun ks => begun = true → Rule.member.begins ks = true, 8, 72⟩
    ⟨.ofBool begun, 4, 34⟩ := by
  refine does_node ?_
  refine (does_ahead_bind (n := 30) (e := ⟨.ofBool begun, 3, 34⟩) 0 fun k _ => ?_).fits
    (by cases begun <;> rfl)
  -- After a modifier, anything may come.
  have hrest := does_declaration (c := c) anywhere topLevel false rfl (by simp)
  split
  · exact ((does_bump fun ks h => ne_nil_of_kind (by decide) h.2).bind_sure (fun _ =>
      (does_optionally (by decide)).bind (fun _ => hrest) rfl) rfl rfl).fits
      (by cases begun <;> rfl)
  · exact ((does_bump fun ks h => ne_nil_of_kind (by decide) h.2).bind_sure (fun _ =>
      (does_optionally (by decide)).bind (fun _ => hrest) rfl) rfl rfl).fits
      (by cases begun <;> rfl)
  · next hprivate hstatic =>
    refine (does_declaration _ _ begun rfl fun ks h hb => ?_).fits (by cases begun <;> rfl)
    have hfirst := first_of_begins (h.1 hb)
    rw [h.2] at hfirst ⊢
    simp [Rule.first, TokenSet.typeMemberFirst] at hfirst
    grind

/-- The loop over the members of a type ends at once where the parse is over, and otherwise goes
    round after a token was consumed. -/
private theorem does_members : members.Does c ⟨ended, front, Rule.members.height ended,
    Rule.members.need ended⟩ (Rule.members.effect ended false) := by
  cases ended with
  | true => exact does_stopped_bind ((does_pure ()).fits rfl) (by simp)
  | false =>
    have hmore {ended : Bool} : (call .members).Does c ⟨ended, anywhere, topLevel, 80⟩
        ⟨.none, 6, 40⟩ := (does_call_top .members rfl).live
    -- If the parse is over, the list of members ends at its first lookahead.
    have hover : (call .members).Does c ⟨true, anywhere, 9, 8⟩ ⟨.none, 0, 0⟩ :=
      does_call_free .members rfl rfl
    refine does_stopped_bind ((does_pure ()).fits rfl) fun _ => ?_
    refine (does_ahead_bind (n := 79) (e := ⟨.none, 5, 40⟩) 0 fun k _ => ?_).fits rfl
    have hne : ∀ ks, (front ks ∧ ks ≠ []) ∧ ks[0]?.getD .error = k → ks ≠ [] := fun ks h => h.1.2
    split
    · exact (does_pure ()).fits rfl
    · exact (does_remark_bind ((does_bump hne).bind_sure (fun _ => hmore) rfl rfl)
        fun _ => rfl).fits rfl
    -- A member, or tokens that start none and are set aside as one error.
    · split
      · next hk =>
        have hcall : (call .member).Does c ⟨false, fun ks => (front ks ∧ ks ≠ []) ∧
            ks[0]?.getD .error = k, 9, 72⟩ ⟨.unlessOver, 4, 34⟩ :=
          does_call .member true (fun ks h _ =>
            begins_of_first (by rw [h.2]; exact hk) (by decide)) rfl
        exact (hcall.bind_unlessOver (fun _ => hmore) (fun _ => hover) rfl rfl).fits rfl
      · exact ((does_setAside (does_optionally (by decide)) hne rfl).bind_sure (fun _ => hmore) rfl
          rfl).fits rfl

/-- A declaration of a type asks for 8 lookaheads, and consumes a token if it is called where it
    begins. -/
private theorem does_typeDecl (begun : Bool) : typeDecl.Does c
    ⟨ended, fun ks => begun = true → Rule.typeDecl.begins ks = true, 0, 8⟩
    ⟨.ofBool begun, 8, if ended then 14 else 44⟩ := by
  -- The name and the members.
  have hrest {front : List Kind → Prop} {level : Nat} : (identifier "a type name" >>= fun _ =>
      isAt .lCurly >>= fun b => if b = true then
        enclosed .curly "type body" (call .members)
      else require .lCurly "`\x7b` to start the type body").Does c ⟨ended, front, level, 5⟩
      ⟨.none, 5, if ended then 3 else 43⟩ := by
    cases ended <;>
      exact (does_identifier.bind (fun _ => does_isAt (does_enclosed (does_call_top .members rfl)
        (fun ks h => ne_nil_of_kind (by decide) h.2) rfl rfl) (does_require (by decide))) rfl).fits
        rfl
  -- One of the two keywords is there if the declaration has begun.
  have hmissing : (complain .expectedToken (some "`type`") (some Kind.kwType.describe)).Does c
      ⟨ended, fun ks => ((begun = true → Rule.typeDecl.begins ks = true) ∧
        ks[0]?.getD .error ≠ Kind.kwOpen) ∧ ks[0]?.getD .error ≠ Kind.kwType, 0, 1⟩
      ⟨.ofBool begun, 1, 0⟩ := by
    refine does_complain_unless begun (fun ks h => ?_) rfl
    cases begun with
    | false => rfl
    | true =>
      have hfirst := first_of_begins (h.1.1 rfl)
      simp [Rule.first, h.1.2, h.2] at hfirst
  have hkeyword : (require .kwType "`type`" >>= fun _ => identifier "a type name" >>= fun _ =>
      isAt .lCurly >>= fun b => if b = true then
        enclosed .curly "type body" (call .members)
      else require .lCurly "`\x7b` to start the type body").Does c
      ⟨ended, fun ks => (begun = true → Rule.typeDecl.begins ks = true) ∧
        ks[0]?.getD .error ≠ Kind.kwOpen, 0, 7⟩ ⟨.ofBool begun, 7, if ended then 14 else 44⟩ := by
    rw [require_bind]
    cases ended <;>
      exact (does_eat hrest (hmissing.bind (fun _ => hrest) rfl) (by decide) rfl).fits
        (by cases begun <;> rfl)
  rw [typeDecl, optionally_bind]
  cases ended <;>
    exact (does_node (does_eat ((does_require (by decide)).bind (fun _ => hrest) rfl) hkeyword
      (by decide) rfl)).fits (by cases begun <;> rfl)

/-! ## Programs -/

/-- An item asks for 80 lookaheads, and consumes a token unless the parse is over. -/
private theorem does_item (hfront : ∀ ks, front ks → ks ≠ []) :
    item.Does c ⟨false, front, 9, 80⟩ ⟨.unlessOver, 10, 44⟩ := by
  refine (does_ahead_bind (n := 79) (e := ⟨.unlessOver, 9, 44⟩) 0 fun k _ => ?_).fits rfl
  have hne : ∀ ks, front ks ∧ ks[0]?.getD .error = k → ks ≠ [] := fun ks h => hfront ks h.1
  -- Every item consumes, be it a declaration, a statement or what is set aside.
  split
  · exact (does_call .fnDecl true (fun ks h _ => begins_of_kind h.2 (by decide)) rfl).fits rfl
  · exact (does_call .typeDecl true (fun ks h _ => begins_of_kind h.2 (by decide)) rfl).fits rfl
  · exact (does_call .typeDecl true (fun ks h _ => begins_of_kind h.2 (by decide)) rfl).fits rfl
  · exact (does_complain_bind (does_call .importDecl true
      (fun ks h _ => begins_of_kind h.2 (by decide)) rfl) rfl).fits rfl
  · split
    · refine (does_call .statement true (fun ks h _ => ?_) rfl).fits rfl
      obtain ⟨j, js, rfl⟩ := List.exists_cons_of_ne_nil (hne ks h)
      rfl
    · exact (does_setAside ((does_pure ()).fits rfl) hne rfl).fits rfl

/-- The loop over imports ends at once where the parse is over, and otherwise goes round after a
    token was consumed. -/
private theorem does_imports : imports.Does c ⟨ended, front, Rule.imports.height ended,
    Rule.imports.need ended⟩ (Rule.imports.effect ended false) := by
  cases ended with
  | true => exact does_stopped_bind ((does_pure ()).fits rfl) (by simp)
  | false =>
    have hmore : (call .imports).Does c ⟨false, anywhere, topLevel, 88⟩ ⟨.none, 1, 6⟩ :=
      does_call_top .imports rfl
    have hover : (call .imports).Does c ⟨true, anywhere, 10, 8⟩ ⟨.none, 0, 0⟩ :=
      does_call_free .imports rfl rfl
    exact does_stopped_bind ((does_pure ()).fits rfl) fun _ => (does_isAt
      ((does_call .importDecl true (fun ks h _ => begins_of_kind h.2 (by decide))
        rfl).bind_unlessOver (fun _ => hmore) (fun _ => hover) rfl rfl) (does_pure ())).fits rfl

/-- The loop over items ends at once where the parse is over, and otherwise goes round after a token
    was consumed. -/
private theorem does_items : items.Does c ⟨ended, front, Rule.items.height ended,
    Rule.items.need ended⟩ (Rule.items.effect ended false) := by
  -- After the end the loop does nothing more.
  cases ended with
  | true => exact does_stopped_bind ((does_pure ()).fits rfl) (by simp)
  | false =>
    have hmore : (call .items).Does c ⟨false, anywhere, topLevel, 88⟩ ⟨.none, 12, 60⟩ :=
      does_call_top .items rfl
    have hover : (call .items).Does c ⟨true, anywhere, 10, 8⟩ ⟨.none, 0, 0⟩ :=
      does_call_free .items rfl rfl
    have hitem : (call .item).Does c ⟨false, fun ks => (front ks ∧ ks ≠ []) ∧
        ks[0]?.getD .error ≠ Kind.semiColon, 10, 80⟩ ⟨.unlessOver, 10, 44⟩ :=
      does_call .item true (fun ks h _ => by
        obtain ⟨j, js, rfl⟩ := List.exists_cons_of_ne_nil h.1.2
        rfl) rfl
    exact does_stopped_bind ((does_pure ()).fits rfl) fun _ => (does_isAt
      (does_remark_bind ((does_bump fun _ h => h.1.2).bind_sure (fun _ => hmore) rfl rfl)
        fun _ => rfl)
      (hitem.bind_unlessOver (fun _ => (does_optionally (by decide)).bind (fun _ => hmore) rfl)
        (fun _ => (does_optionally (by decide)).bind (fun _ => hover) rfl) rfl rfl)).fits rfl

/-- The whole program asks for 96 lookaheads, and takes at most 14 if it consumes nothing. -/
private theorem does_program : program.Does c ⟨ended, front, 11, 96⟩ ⟨.none, 14, 60⟩ :=
  (((does_call_free .imports rfl rfl).bind (fun _ => (does_call_free .items rfl rfl).bind
    (fun _ => does_flush) rfl) rfl).fits rfl : program.Does c ⟨false, front, 11, 96⟩ _).live

/-- The loop that sets tokens aside asks for 8 lookaheads, and takes at most 1 if it consumes
    nothing. -/
private theorem does_discard (stops : TokenSet) :
    (discard stops).Does c ⟨false, front, 0, 8⟩ ⟨.none, 1, 2⟩ :=
  does_stopped_bind ((does_pure ()).fits rfl) fun _ => (does_isAtAny (does_pure ())
    ((does_bump fun _ h => h.1.2).bind_sure (fun _ => does_call_top (.discard stops) rfl) rfl
      rfl)).fits rfl

/-- The skipping up to a boundary asks for 8 lookaheads, and takes at most 1 if it consumes
    nothing. -/
private theorem does_skipTo (stops : TokenSet) :
    (skipTo stops).Does c ⟨false, front, 0, 8⟩ ⟨.none, 1, 2⟩ := by
  have hstopped {front : List Kind → Prop} : (stopped >>= fun b => if b = true then pure () else
      bump >>= fun _ => call (.skipTo stops)).Does c ⟨false, front, 0, 7⟩ ⟨.none, 0, 2⟩ :=
    does_stopped_bind ((does_pure ()).fits rfl) fun _ => ((does_bump fun _ h => h.2).bind_sure
      (fun _ => does_call_top (.skipTo stops) rfl) rfl rfl).fits rfl
  exact (does_isAtAny (does_pure ()) hstopped).fits rfl

end Grammar

namespace Fragment

variable {c : Scope} {d : Demand} {e : Effect} {v : Outlook}

/-- A fragment that does no more than it promises is a script that is safe. -/
theorem Does.unit {m : Fragment Unit} (h : m.Does c d e) (hv : d.Holds c v) :
    m.unit.Safe c v (v.Shifts e) :=
  h hv fun _ _ hshifts => hshifts

/-- A fragment that does no more than it promises is a script that is safe. -/
theorem Does.script {m : Fragment Bool} (h : m.Does c d e) (hv : d.Holds c v) :
    m.script.Safe c v (v.Shifts e) :=
  h hv fun _ _ hshifts => hshifts

end Fragment

namespace Rule

open Grammar

variable {begun : Bool}

/-- A rule begins at a token. -/
private theorem ne_nil_of_begins {rule : Rule} {ks : List Kind} (h : rule.begins ks = true) :
    ks ≠ [] := by
  rintro rfl
  cases h

/-- A rule without first tokens is never begun. -/
private theorem not_begun (rule : Rule) {ks : List Kind} (hfirst : ∀ k, rule.first k = false)
    (h : begun = true ∨ rule.demands = true → rule.begins ks = true) : begun = false := by
  cases begun with
  | false => rfl
  | true =>
    have hbegins := h (.inl rfl)
    cases ks with
    | nil => cases hbegins
    | cons k ks => exact hbegins.symm.trans (hfirst k)

/-- The script of a rule does what the tables say. -/
private theorem safe_script (rule : Rule) (ended begun : Bool) {c : Scope} {v : Outlook}
    (hv : Demand.Holds ⟨ended, fun ks => begun = true ∨ rule.demands = true → rule.begins ks = true,
      rule.height ended, rule.need ended⟩ c v) :
    rule.script.Safe c v (v.Shifts (rule.effect ended begun)) := by
  -- Rules without first tokens are never begun; of the others both cases are to be shown.
  cases rule with
  | program =>
    obtain rfl := not_begun .program (fun _ => rfl) hv.front
    exact does_program.unit hv
  | imports =>
    obtain rfl := not_begun .imports (fun _ => rfl) hv.front
    exact does_imports.unit hv
  | items =>
    obtain rfl := not_begun .items (fun _ => rfl) hv.front
    exact does_items.unit hv
  | item =>
    exact ((does_item fun ks h => ne_nil_of_begins (h (.inr rfl))).live.fits
      (by cases begun <;> rfl)).unit hv
  | importDecl =>
    exact ((does_importDecl fun ks h => h (.inr rfl)).fits (by cases begun <;> rfl)).unit hv
  | fnDecl =>
    exact ((does_fnDecl fun ks h => h (.inr rfl)).fits
      (by cases ended <;> cases begun <;> rfl)).unit hv
  | fnTail => exact ((does_fnTail begun).weaken fun ks h hb => h (.inl hb)).unit hv
  | param =>
    exact ((does_param fun ks h => ne_nil_of_begins (h (.inr rfl))).fits
      (by cases begun <;> rfl)).unit hv
  | typeDecl => exact ((does_typeDecl begun).weaken fun ks h hb => h (.inl hb)).unit hv
  | members =>
    obtain rfl := not_begun .members (fun _ => rfl) hv.front
    exact does_members.unit hv
  | member => exact ((does_typeMember begun).live.weaken fun ks h hb => h (.inl hb)).unit hv
  | statements seen =>
    obtain rfl := not_begun (.statements seen) (fun _ => rfl) hv.front
    exact (does_statements seen).script hv
  | statement =>
    exact ((does_statement fun ks h => ne_nil_of_begins (h (.inr rfl))).live.fits
      (by cases begun <;> rfl)).unit hv
  | block => exact ((does_block begun).live.weaken fun ks h hb => h (.inl hb)).unit hv
  | body =>
    obtain rfl := not_begun .body (fun _ => rfl) hv.front
    exact does_body.unit hv
  | ifStmt terminated =>
    exact ((does_ifStmt terminated fun ks h => h (.inr rfl)).live.fits
      (by cases begun <;> rfl)).unit hv
  | initializer =>
    exact ((does_initializer fun ks h => h (.inr rfl)).fits (by cases begun <;> rfl)).unit hv
  | expr => exact ((does_expr begun).live.weaken fun ks h hb => h (.inl hb)).unit hv
  | chain => exact ((does_chain begun).live.weaken fun ks h hb => h (.inl hb)).unit hv
  | prefixes count =>
    exact ((does_prefixes begun count).live.weaken fun ks h hb => h (.inl hb)).unit hv
  | operand => exact ((does_operand begun).live.weaken fun ks h hb => h (.inl hb)).unit hv
  | accessors wrapped =>
    obtain rfl := not_begun (.accessors wrapped) (fun _ => rfl) hv.front
    exact (does_accessors wrapped).live.unit hv
  | primary => exact ((does_primary begun).live.weaken fun ks h hb => h (.inl hb)).unit hv
  | elements form =>
    obtain rfl := not_begun (.elements form) (fun _ => rfl) hv.front
    exact (does_elements form).unit hv
  | recordProp =>
    exact ((does_recordProp fun ks h => ne_nil_of_begins (h (.inr rfl))).fits
      (by cases begun <;> rfl)).unit hv
  | typeList =>
    obtain rfl := not_begun .typeList (fun _ => rfl) hv.front
    exact does_typeList.unit hv
  | unionTail =>
    obtain rfl := not_begun .unionTail (fun _ => rfl) hv.front
    exact does_unionTail.unit hv
  | typeName =>
    obtain rfl := not_begun .typeName (fun _ => rfl) hv.front
    exact does_typeName.unit hv
  | typeArgTail =>
    obtain rfl := not_begun .typeArgTail (fun _ => rfl) hv.front
    exact does_typeArgTail.unit hv
  | discard stops =>
    obtain rfl := not_begun (.discard stops) (fun _ => rfl) hv.front
    exact (does_discard stops).live.unit hv
  | skipTo stops =>
    obtain rfl := not_begun (.skipTo stops) (fun _ => rfl) hv.front
    exact (does_skipTo stops).live.unit hv

/-- Where a rule may be called, its script is safe and does what callers count on. -/
theorem safe {rule : Rule} {v : Outlook} (mode : Mode) (h : rule.Ready v) :
    rule.script.Safe ⟨mode, rule.weight v⟩ v
      (v.Shifts (rule.effect v.ended (rule.begins v.ahead))) :=
  rule.safe_script _ _ ⟨id, fun hb => hb.elim id h.begins, Nat.le_refl _, h.patient⟩

end Rule

end ScriptTree
