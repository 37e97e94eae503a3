import ScriptTree.Proofs.Analyses
import ScriptTree.Proofs.Strictness

/-!
# The depth of trees

A limit on the nesting of rules bounds the depth of the tree only as far as functions are not
declared in functions: that is the one way for rules to be nested that is not counted.

`Script.Lifts` walks through a script and adds up the nodes that it makes above each other.  A level
that is entered pays for `toll` of them, and so does the declaration of a function.

## Key results

- `Rule.lifts`: what each rule adds
- `parse_depth_le`: the depth of the tree of a parse
-/

namespace ScriptTree

/-- The nodes that a level or the declaration of a function pays for. -/
def toll : Nat := 9

/-- The depth of a node of the kind, if that of its children is at most `n`. -/
def Kind.rise (k : Kind) (n : Nat) : Nat := if k = .fnDecl then n + 1 - toll else n + 1

namespace Tree

/-! ## Depth -/

mutual

/-- The greatest weight of the nodes on a way down the tree. -/
def heaviest (weight : Kind → Nat) : Tree → Nat
  | leaf _ _ => 0
  | node kind children => weight kind + heaviestOf weight children

/-- The greatest weight on a way down one of several trees. -/
def heaviestOf (weight : Kind → Nat) : List Tree → Nat
  | [] => 0
  | t :: ts => max (t.heaviest weight) (heaviestOf weight ts)

end

/-- How many nodes stand above each other. -/
def depth (t : Tree) : Nat := t.heaviest fun _ => 1

/-- How many declarations of functions stand inside each other. -/
def functionDepth (t : Tree) : Nat := t.heaviest fun kind => if kind = .fnDecl then 1 else 0

/-- The way down several trees is the heaviest one down any of them. -/
theorem heaviestOf_le_iff {weight : Kind → Nat} {ts : List Tree} {n : Nat} :
    heaviestOf weight ts ≤ n ↔ ∀ t ∈ ts, t.heaviest weight ≤ n := by
  induction ts with
  | nil => simp [heaviestOf]
  | cons t ts ih => simp [heaviestOf, ih]

/-- No tree has a heavier way down than all together. -/
theorem heaviest_le_heaviestOf {weight : Kind → Nat} {ts : List Tree} {t : Tree} (h : t ∈ ts) :
    t.heaviest weight ≤ heaviestOf weight ts := heaviestOf_le_iff.mp (Nat.le_refl _) t h

/-- The depth is at most `n`, not counting what functions pay for. -/
def Low (n : Nat) (t : Tree) : Prop := t.depth ≤ n + toll * t.functionDepth

/-- What is low is so for any higher bound. -/
theorem Low.mono {m n : Nat} {t : Tree} (h : t.Low m) (hmn : m ≤ n) : t.Low n :=
  Nat.le_trans h (Nat.add_le_add_right hmn _)

/-- A leaf is as low as can be. -/
private theorem low_leaf (n : Nat) (k : Kind) (text : String) : (leaf k text).Low n := by
  simp [Low, depth, heaviest]

/-- A node is higher by one than its children, unless it is a function that pays for that. -/
private theorem low_node {n : Nat} {k : Kind} {ts : List Tree} (h : ∀ t ∈ ts, t.Low n) :
    (node k ts).Low (k.rise n) := by
  have hchildren : heaviestOf (fun _ => 1) ts ≤
      n + toll * heaviestOf (fun kind => if kind = .fnDecl then 1 else 0) ts := by
    refine heaviestOf_le_iff.mpr fun t ht => Nat.le_trans (h t ht) ?_
    exact Nat.add_le_add_left (Nat.mul_le_mul_left _ (heaviest_le_heaviestOf ht)) n
  simp only [Low, depth, functionDepth, heaviest, Kind.rise]
  split <;> simp only [toll] at hchildren ⊢ <;> omega

end Tree

/-! ## Scripts -/

namespace Rule

/-- Nodes above each other in what the rule adds, at most. -/
def adds : Rule → Nat
  | typeName | unionTail | discard _ | skipTo _ | expr | statement | fnDecl => 0
  | typeList | typeArgTail | recordProp | importDecl | imports | initializer => 1
  | param | elements _ => 2
  | members | member | accessors _ => 3
  | typeDecl | statements _ | item | items | program => 4
  | block | body | fnTail => 5
  | primary => 6
  | ifStmt _ => 7
  | operand | prefixes _ | chain => 8

/-- Nodes that the rule puts above what was there before, at most. -/
def wraps : Rule → Nat
  | chain | accessors false => 1
  | _ => 0

end Rule

/-- If the trees of the frame have a depth of at most `f`, they have one of at most `b` after the
    script. -/
def Script.Lifts : Script → (f b : Nat) → Prop
  | .done _, f, b => f ≤ b
  | .fail _, _, _ => True
  | .look _ next, f, b => ∀ k, (next k).Lifts f b
  | .text next, f, b => ∀ t, (next t).Lifts f b
  | .stopped next, f, b => ∀ ended, (next ended).Lifts f b
  | .exhausted next, f, b => ∀ ended, (next ended).Lifts f b
  | .bump next, f, b => next.Lifts f b
  | .flush next, f, b => next.Lifts f b
  | .complain _ next, f, b => next.Lifts f b
  | .remark _ next, f, b => next.Lifts f b
  | .node k body next, f, b => ∃ n, body.Lifts 0 n ∧ next.Lifts (max f (k.rise n)) b
  | .group body next, f, b => ∃ n, body.Lifts 0 n ∧ next.Lifts (max f n) b
  | .wrap _ body next, f, b => ∃ n, body.Lifts f n ∧ next.Lifts (n + 1) b
  | .deeper body next, f, b =>
    ∃ n, f ≤ n ∧ body.Lifts (f + toll) (n + toll) ∧ ∀ granted, (next granted).Lifts n b
  | .enclosed _ _ _ body next, f, b => ∃ n, body.Lifts f n ∧ next.Lifts n b
  | .call rule next, f, b => ∀ a, (next a).Lifts (max f rule.adds + rule.wraps) b

/-- A script lifts a lower frame no higher. -/
theorem Script.Lifts.mono {script : Script} {f f' b : Nat} (h : script.Lifts f b) (hf : f' ≤ f) :
    script.Lifts f' b := by
  -- Induction on the script; a smaller frame only ever lifts the bound less.
  induction script generalizing f f' b with
  | done => exact Nat.le_trans hf h
  | fail => trivial
  | look n next ih => exact fun k => ih k (h k) hf
  | text next ih => exact fun t => ih t (h t) hf
  | stopped next ih | exhausted next ih => exact fun ended => ih ended (h ended) hf
  | bump next ih | flush next ih => exact ih h hf
  | complain x next ih | remark problem next ih => exact ih h hf
  | node k body next ihbody ihnext | group body next ihbody ihnext =>
    -- The body starts on an empty frame, so the shallower frame matters only for what follows it.
    obtain ⟨n, hbody, hnext⟩ := h
    exact ⟨n, hbody, ihnext hnext (by omega)⟩
  | wrap k body next ihbody ihnext =>
    obtain ⟨n, hbody, hnext⟩ := h
    exact ⟨n, ihbody hbody hf, hnext⟩
  | deeper body next ihbody ihnext =>
    obtain ⟨n, hle, hbody, hnext⟩ := h
    exact ⟨n, Nat.le_trans hf hle, ihbody hbody (Nat.add_le_add_right hf _), hnext⟩
  | enclosed d construct ifEmpty body next ihbody ihnext =>
    obtain ⟨n, hbody, hnext⟩ := h
    exact ⟨n, ihbody hbody hf, hnext⟩
  | call rule next ih => exact fun a => ih a (h a) (by omega)

namespace Fragment

variable {α β : Type} {f b n : Nat} {m : Fragment α} {k : Kind} {set : TokenSet}
  {problem : Problem} {what : String}

/-- Trees of a depth of at most `f` lead to trees of a depth of at most `b`. -/
def Lifts (f b : Nat) (m : Fragment α) : Prop :=
  ∀ (next : α → Script) c, (∀ a, (next a).Lifts b c) → (m next).Lifts f c

/-- A fragment lifts a lower frame to what is at most as high. -/
theorem Lifts.mono {f' b' : Nat} (h : m.Lifts f b) (hf : f' ≤ f) (hb : b ≤ b') : m.Lifts f' b' :=
  fun next c hnext => (h next c fun a => (hnext a).mono hb).mono hf

/-- A fragment lifts the frame as the script that it makes. -/
theorem Lifts.script {m : Fragment Bool} (h : m.Lifts f b) : m.script.Lifts f b :=
  h _ _ fun _ => Nat.le_refl _

/-- A fragment lifts the frame as the script that it makes. -/
theorem Lifts.unit {m : Fragment Unit} (h : m.Lifts f b) : m.unit.Lifts f b :=
  h _ _ fun _ => Nat.le_refl _

/-- A fragment that does nothing makes nothing deeper. -/
private theorem lifts_pure (a : α) : (pure a : Fragment α).Lifts f f := fun _ _ hnext => hnext a

/-- What one fragment has lifted, the next one lifts further. -/
theorem Lifts.bind {g : α → Fragment β} (h : m.Lifts f n) (hg : ∀ a, (g a).Lifts n b) :
    (m >>= g).Lifts f b := fun next c hnext => h _ c fun a => hg a next c hnext

/-- A choice makes nothing deeper than its branches do. -/
private theorem lifts_ite {p : Prop} [Decidable p] {m' : Fragment α} (h : m.Lifts f b)
    (h' : m'.Lifts f b) : (if p then m else m').Lifts f b := by
  split
  · exact h
  · exact h'

/-! ### Steps that make no node -/

/-- Looking ahead makes nothing deeper. -/
private theorem lifts_ahead (i : Nat) : (ahead i).Lifts f f := fun _ _ hnext => hnext

/-- Looking at the current token makes nothing deeper. -/
private theorem lifts_current : current.Lifts f f := lifts_ahead 0

/-- The text of the current token makes nothing deeper. -/
private theorem lifts_currentText : currentText.Lifts f f := fun _ _ hnext => hnext

/-- Asking for the end makes nothing deeper. -/
private theorem lifts_stopped : stopped.Lifts f f := fun _ _ hnext => hnext

/-- Asking for the steps that are left makes nothing deeper. -/
private theorem lifts_exhausted : exhausted.Lifts f f := fun _ _ hnext => hnext

/-- A leaf has no depth. -/
private theorem lifts_bump : bump.Lifts f f := fun _ _ hnext => hnext ()

/-- What is flushed are leaves. -/
private theorem lifts_flush : flush.Lifts f f := fun _ _ hnext => hnext ()

/-- A complaint leaves the frame as it is, but for leaves. -/
private theorem lifts_complain {detail expected : Option String} :
    (complain problem detail expected).Lifts f f := fun _ _ hnext => hnext ()

private theorem lifts_missing : (missing problem what).Lifts f f := lifts_complain

private theorem lifts_remark : (remark problem).Lifts f f := fun _ _ hnext => hnext ()

/-- Testing for a kind makes nothing deeper. -/
private theorem lifts_isAt : (isAt k).Lifts f f := lifts_current.bind fun _ => lifts_pure _

/-- Testing for a set makes nothing deeper. -/
private theorem lifts_isAtAny : (isAtAny set).Lifts f f := lifts_current.bind fun _ => lifts_pure _

/-- A token that is eaten is a leaf. -/
private theorem lifts_eat : (eat k).Lifts f f :=
  lifts_isAt.bind fun _ => lifts_ite (lifts_bump.bind fun _ => lifts_pure true) (lifts_pure false)

private theorem lifts_optionally : (optionally k).Lifts f f := lifts_eat.bind fun _ => lifts_pure ()

/-- A token that is expected is a leaf, or missing. -/
private theorem lifts_expect : (expect k what).Lifts f f :=
  lifts_eat.bind fun _ => lifts_ite (lifts_pure true)
    (lifts_complain.bind fun _ => lifts_pure false)

private theorem lifts_require : (require k what).Lifts f f :=
  lifts_expect.bind fun _ => lifts_pure ()

/-- A name is a leaf, or missing. -/
private theorem lifts_identifier : (identifier what).Lifts f f :=
  lifts_eat.bind fun _ => lifts_ite (lifts_pure ()) lifts_missing

/-- The assertion about where a rule begins makes nothing deeper. -/
private theorem lifts_entered : (entered k).Lifts f f := by
  intro next c hnext found
  show Script.Lifts (if found = k then next () else .fail _) f c
  split
  · exact hnext ()
  · trivial

/-! ### Nodes -/

/-- A node is as much higher than its body as `Kind.rise` says. -/
private theorem lifts_node {m : Fragment Unit} (h : m.Lifts n n) (hk : k.rise n ≤ f) :
    (node k m).Lifts f f := fun _ _ hnext =>
  ⟨n, h.unit.mono (Nat.zero_le n), (hnext ()).mono (by omega)⟩

/-- A group is a frame that is poured out again. -/
private theorem lifts_group {m : Fragment Unit} (h : m.Lifts n b) (hb : b ≤ f) :
    (group m).Lifts f f :=
  fun _ _ hnext => ⟨b, h.unit.mono (Nat.zero_le n), (hnext ()).mono (by omega)⟩

/-- The new node stands above all that is in the frame. -/
private theorem lifts_wrap {m : Fragment Unit} (h : m.Lifts f b) : (wrap k m).Lifts f (b + 1) :=
  fun _ _ hnext => ⟨b, h.unit, hnext ()⟩

/-- A level pays for `toll` nodes. -/
private theorem lifts_deeper {m : Fragment Unit} (h : m.Lifts (f + toll) (b + toll)) (hf : f ≤ b) :
    (deeper m).Lifts f b := fun _ _ hnext => ⟨b, hf, h.unit, hnext⟩

/-- The delimiters are leaves, so only the body counts. -/
private theorem lifts_enclosed {d : Delimiter} {construct : String} {m : Fragment Unit}
    (h : m.Lifts f b) : (enclosed d construct m).Lifts f b := fun _ _ hnext => ⟨b, h.unit, hnext ()⟩

/-- The warning about an empty block makes no node. -/
private theorem lifts_enclosedNonempty {d : Delimiter} {construct : String} {ifEmpty : Problem}
    {m : Fragment Bool} (h : m.Lifts f b) :
    (enclosedNonempty d construct ifEmpty m).Lifts f b := fun _ _ hnext => ⟨b, h.script, hnext ()⟩

/-- A rule adds as much as `Rule.adds` and `Rule.wraps` say. -/
private theorem lifts_ask (rule : Rule) (h : rule.adds ≤ f) : (ask rule).Lifts f (f + rule.wraps) :=
  fun _ _ hnext a => (hnext a).mono (by omega)

private theorem lifts_call (rule : Rule) (h : rule.adds ≤ f) :
    (call rule).Lifts f (f + rule.wraps) :=
  fun _ _ hnext _ => (hnext ()).mono (by omega)

/-- What is set aside are leaves, in one node. -/
private theorem lifts_setAside {stops : TokenSet} {rest : Fragment Unit} (h : rest.Lifts 0 0)
    (hf : 1 ≤ f) : (setAside problem what stops rest).Lifts f f :=
  lifts_node (lifts_missing.bind fun _ => lifts_bump.bind fun _ =>
    (lifts_call (.discard stops) (Nat.zero_le _)).bind fun _ => h) hf

end Fragment

/-! ## The rules -/

namespace Grammar

open Fragment

variable {f : Nat}

/-! ### Types -/

/-- The name of a type is made of leaves and of what rules below it add. -/
private theorem lifts_typeName : typeName.Lifts f f := by
  have hargs : typeArgs.Lifts 2 2 :=
    lifts_node (n := 1) (lifts_bump.bind fun _ => (lifts_call .typeList (by decide)).bind fun _ =>
      (lifts_call .typeArgTail (by decide)).bind fun _ => lifts_require) (by decide)
  refine lifts_isAt.bind fun _ => lifts_ite ?_ lifts_missing
  refine (lifts_deeper (b := f) (lifts_node (n := 2) ?_ ?_) (Nat.le_refl f)).bind fun _ =>
    lifts_pure ()
  · exact lifts_bump.bind fun _ => lifts_isAt.bind fun _ => lifts_ite hargs (lifts_pure ())
  · exact Nat.le_add_left_of_le (by decide)

/-- The rest of a union is made of leaves and of what rules below it add. -/
private theorem lifts_unionTail : unionTail.Lifts f f :=
  lifts_eat.bind fun _ => lifts_ite ((lifts_call .typeName (Nat.zero_le f)).bind fun _ =>
    lifts_call .unionTail (Nat.zero_le f)) (lifts_pure ())

/-- A list of types fits under `f` if there is room for 1 nodes above each other. -/
private theorem lifts_typeList (h : 1 ≤ f) : typeList.Lifts f f :=
  lifts_node ((lifts_call .typeName (Nat.zero_le 0)).bind fun _ =>
    lifts_call .unionTail (Nat.zero_le 0)) h

/-- The rest of a list of type arguments fits under `f` if there is room for 1 nodes above each
    other. -/
private theorem lifts_typeArgTail (h : 1 ≤ f) : typeArgTail.Lifts f f :=
  lifts_eat.bind fun _ => lifts_ite ((lifts_call .typeList h).bind fun _ =>
    lifts_call .typeArgTail h) (lifts_pure ())

/-! ### Lists -/

/-- The loop over elements fits under `f` if there is room for 2 nodes above each other. -/
private theorem lifts_elements (h : 2 ≤ f) (form : ListForm) : (elements form).Lifts f f := by
  have hmore : (call (.elements form)).Lifts f f := lifts_call (.elements form) h
  have helement : (call form.element).Lifts f f := by
    -- Expressions have a level of their own, the other elements count from the list.
    cases form with
    | params => exact lifts_call .param h
    | record => exact lifts_call .recordProp (Nat.le_of_succ_le h)
    | callArgs | array => exact lifts_call .expr (Nat.zero_le f)
  have herror : (node .error bump).Lifts f f :=
    lifts_node (n := 0) lifts_bump (Nat.le_of_succ_le h)
  refine lifts_stopped.bind fun _ => lifts_ite (lifts_pure ()) ?_
  refine lifts_current.bind fun _ => lifts_ite (lifts_pure ()) (lifts_ite ?_ ?_)
  · exact helement.bind fun _ => lifts_eat.bind fun _ => lifts_ite hmore
      (lifts_isAtAny.bind fun _ => lifts_ite (lifts_require.bind fun _ => hmore) (lifts_pure ()))
  -- What is no element becomes an error of depth one.
  · exact lifts_ite (lifts_pure ()) (lifts_missing.bind fun _ => herror.bind fun _ => hmore)

/-- A list in delimiters fits under `f` if there is room for 2 nodes above each other. -/
private theorem lifts_delimited (h : 2 ≤ f) (form : ListForm) : (delimited form).Lifts f f :=
  lifts_entered.bind fun _ => lifts_enclosed (lifts_call (.elements form) h)

/-! ### Expressions -/

/-- A property of a record fits under `f` if there is room for 1 nodes above each other. -/
private theorem lifts_recordProp (h : 1 ≤ f) : recordProp.Lifts f f :=
  lifts_node (lifts_bump.bind fun _ => lifts_expect.bind fun _ =>
    lifts_ite (lifts_call .expr (Nat.zero_le 0)) (lifts_pure ())) h

/-- What begins with a name fits under `f` if there is room for 3 nodes above each other. -/
private theorem lifts_namePrimary (h : 3 ≤ f) : namePrimary.Lifts f f := by
  have hnamed (k : Kind) (hk : k.rise 2 ≤ f) (form : ListForm) : (node k do
      bump
      delimited form).Lifts f f :=
    lifts_node (lifts_bump.bind fun _ => lifts_delimited (Nat.le_refl 2) form) hk
  have hname : (node .nameRef bump).Lifts f f :=
    lifts_node (n := 0) lifts_bump (Nat.le_trans (by decide) h)
  have hother : (do
      if (← ahead 1) = .lCurly then
        node .recordLiteral do
          bump
          delimited .record
      else node .nameRef bump : Fragment Unit).Lifts f f :=
    (lifts_ahead 1).bind fun _ => lifts_ite (hnamed .recordLiteral h .record) hname
  exact (lifts_ahead 1).bind fun _ => lifts_ite (lifts_currentText.bind fun _ =>
    lifts_ite (hnamed .arrayLiteral h .array) hother) hother

/-- The look at whether a function literal begins makes no node. -/
private theorem lifts_atFnLiteral : atFnLiteral.Lifts f f := by
  refine (lifts_ahead 1).bind fun k => ?_
  split
  · exact lifts_pure true
  · exact (lifts_ahead 2).bind fun _ => lifts_ite ((lifts_ahead 3).bind fun _ => lifts_pure _)
      (lifts_pure false)
  · exact lifts_pure false

/-- A primary expression fits under `f` if there is room for 6 nodes above each other. -/
private theorem lifts_primary (h : 6 ≤ f) : primary.Lifts f f := by
  refine lifts_current.bind fun k => ?_
  split
  · exact lifts_namePrimary (Nat.le_trans (by decide) h)
  · exact lifts_node (n := 0) (lifts_bump.bind fun _ => lifts_identifier)
      (Nat.le_trans (by decide) h)
  · exact lifts_node (lifts_delimited (Nat.le_refl 2) .record) (Nat.le_trans (by decide) h)
  · exact lifts_node (lifts_delimited (Nat.le_refl 2) .array) (Nat.le_trans (by decide) h)
  · refine lifts_atFnLiteral.bind fun _ => lifts_ite ?_ ?_
    · exact lifts_node (lifts_call .fnTail (Nat.le_refl 5)) h
    · exact lifts_node (lifts_enclosed (lifts_call .expr (Nat.zero_le 0)))
        (Nat.le_trans (by decide) h)
  · exact lifts_ite (lifts_node (n := 0) lifts_bump (Nat.le_trans (by decide) h)) lifts_missing

/-- The look at which accessor comes makes no node. -/
private theorem lifts_accessorHere : accessorHere.Lifts f f := by
  refine lifts_current.bind fun k => ?_
  split
  · exact lifts_pure _
  · exact (lifts_ahead 1).bind fun _ => lifts_ite (lifts_pure _) (lifts_pure _)
  · exact lifts_pure _
  · exact lifts_pure _
  · exact lifts_pure _
  · exact lifts_pure _

/-- The name behind a dot makes no node of its own. -/
private theorem lifts_memberName (after : String) : (memberName after).Lifts f f :=
  lifts_isAtAny.bind fun _ => lifts_ite lifts_bump lifts_missing

/-- An accessor fits under `f` if there is room for 3 nodes above each other. -/
private theorem lifts_accessor (h : 3 ≤ f) (a : Accessor) : (accessor a).Lifts f f := by
  refine lifts_node (n := 2) ?_ (by cases a <;> exact h)
  cases a with
  | field => exact lifts_bump.bind fun _ => lifts_memberName _
  | static => exact lifts_bump.bind fun _ => lifts_bump.bind fun _ => lifts_memberName _
  | index => exact lifts_enclosed (lifts_call .expr (Nat.zero_le 2))
  | arguments => exact lifts_delimited (Nat.le_refl 2) .callArgs
  | nonNull => exact lifts_bump

/-- An accessor is put above what it applies to, unless that is wrapped already. -/
private theorem lifts_accessors (h : 3 ≤ f) (wrapped : Bool) :
    (accessors wrapped).Lifts f (f + (Rule.accessors wrapped).wraps) := by
  have hmore (a : Accessor) : (do
      accessor a
      call (.accessors true) : Fragment Unit).Lifts f f :=
    (lifts_accessor h a).bind fun _ => lifts_call (.accessors true) h
  refine lifts_accessorHere.bind fun found => ?_
  cases found with
  | none => exact (lifts_pure ()).mono (Nat.le_refl f) (Nat.le_add_right _ _)
  | some a =>
    cases wrapped with
    | false => exact lifts_wrap (hmore a)
    | true => exact hmore a

/-- An operand fits under `f` if there is room for 8 nodes above each other. -/
private theorem lifts_operand (h : 8 ≤ f) : operand.Lifts f f := by
  have hnew : (node .memberExpr do
      bump
      call .primary
      call (.accessors true)).Lifts 7 7 :=
    lifts_node (lifts_bump.bind fun _ => (lifts_call .primary (Nat.le_refl 6)).bind fun _ =>
      lifts_call (.accessors true) (by decide)) (by decide)
  have hmember : member.Lifts 7 7 :=
    lifts_group (n := 6) (lifts_isAt.bind fun _ => lifts_ite (hnew.mono (by decide) (Nat.le_refl 7))
      ((lifts_call .primary (Nat.le_refl 6)).bind fun _ =>
        lifts_call (.accessors false) (by decide))) (Nat.le_refl 7)
  refine lifts_group (n := 7) (hmember.bind fun _ => lifts_isAtAny.bind fun _ =>
    lifts_ite (lifts_wrap lifts_bump) ((lifts_pure ()).mono (Nat.le_refl 7) (by decide))) h

/-- What a prefix operator applies to fits under `f` if there is room for 8 nodes above each
    other. -/
private theorem lifts_prefixOperand (h : 8 ≤ f) : prefixOperand.Lifts f f :=
  lifts_isAtAny.bind fun _ => lifts_ite (lifts_call .operand h)
    (lifts_exhausted.bind fun _ => lifts_ite (lifts_pure ()) lifts_missing)

/-- A run of prefix operators fits under `f` if there is room for 8 nodes above each other. -/
private theorem lifts_prefixes (h : 8 ≤ f) (count : Nat) : (prefixes count).Lifts f f := by
  have hnode : (node .prefixExpr do
      bump
      call (.prefixes (count + 1))).Lifts (f + toll) (f + toll) :=
    lifts_node (lifts_bump.bind fun _ => lifts_call (.prefixes (count + 1)) (Nat.le_refl 8))
      (Nat.le_add_left 9 f)
  have hdeeper := (lifts_deeper hnode (Nat.le_refl f)).bind (g := fun granted => do
    unless granted do prefixOperand) fun _ => lifts_ite (lifts_pure ()) (lifts_prefixOperand h)
  exact lifts_isAtAny.bind fun _ => lifts_ite
    (lifts_ite (lifts_complain.bind fun _ => hdeeper) hdeeper) (lifts_prefixOperand h)

/-- A unary expression fits under `f` if there is room for 8 nodes above each other. -/
private theorem lifts_unary (h : 8 ≤ f) : unary.Lifts f f :=
  lifts_isAtAny.bind fun _ => lifts_ite (lifts_call (.prefixes 0) h) (lifts_call .operand h)

/-- A chain may put one node above its operands, so `f` grows by one. -/
private theorem lifts_chain (h : 8 ≤ f) : chain.Lifts f (f + 1) := by
  have hright : (group (call .chain)).Lifts (f + toll) (f + toll) :=
    lifts_group (lifts_call .chain (Nat.le_refl 8)) (Nat.le_add_left 9 f)
  have hbinary : (wrap .binaryExpr do
      bump
      if ← isAtAny .exprFirst then group (call .chain)
      else missing .expectedExpression "an operand after the operator").Lifts
      (f + toll) (f + 1 + toll) := by
    refine (lifts_wrap (b := f + toll) ?_).mono (Nat.le_refl _) (by omega)
    exact lifts_bump.bind fun _ => lifts_isAtAny.bind fun _ => lifts_ite hright lifts_missing
  refine (lifts_unary h).bind fun _ => lifts_current.bind fun _ => lifts_ite ?_ (lifts_ite ?_ ?_)
  -- The operand on the right pays the toll of its level, and so one more node is allowed.
  · exact (lifts_deeper hbinary (Nat.le_add_right f 1)).bind fun _ => lifts_pure ()
  · exact lifts_wrap (lifts_bump.bind fun _ => lifts_eat.bind fun _ =>
      lifts_ite (lifts_pure ()) lifts_missing)
  · exact (lifts_pure ()).mono (Nat.le_refl f) (Nat.le_add_right f 1)

/-- An expression makes nothing deeper than `f`, for its level has been paid for. -/
private theorem lifts_expr : expr.Lifts f f := by
  have hchain : (group (call .chain)).Lifts (f + toll) (f + toll) :=
    lifts_group (lifts_call .chain (Nat.le_refl 8)) (Nat.le_add_left 9 f)
  exact lifts_isAtAny.bind fun _ => lifts_ite
    ((lifts_deeper hchain (Nat.le_refl f)).bind fun _ => lifts_pure ()) lifts_missing

/-! ### Statements -/

/-- An initializer fits under `f` if there is room for 1 nodes above each other. -/
private theorem lifts_initializer (h : 1 ≤ f) : initializer.Lifts f f :=
  lifts_entered.bind fun _ => lifts_node (lifts_bump.bind fun _ =>
    lifts_call .expr (Nat.zero_le 0)) h

/-- An expression as a statement fits under `f` if there is room for 1 nodes above each other. -/
private theorem lifts_exprStmt (h : 1 ≤ f) (terminated : Bool) : (exprStmt terminated).Lifts f f :=
  lifts_node ((lifts_call .expr (Nat.zero_le 0)).bind fun _ =>
    lifts_ite lifts_optionally (lifts_pure ())) h

/-- The recovery from what begins no statement fits under `f` if there is room for 1 nodes above
    each other. -/
private theorem lifts_recoverStatement (h : 1 ≤ f) : recoverStatement.Lifts f f :=
  lifts_setAside lifts_optionally h

/-- A block fits under `f` if there is room for 5 nodes above each other. -/
private theorem lifts_block (h : 5 ≤ f) : block.Lifts f f :=
  lifts_node (lifts_isAt.bind fun _ => lifts_ite
    ((lifts_enclosedNonempty (lifts_ask (.statements false) (Nat.le_refl 4))).bind fun _ =>
      lifts_optionally) lifts_require) h

/-- The body of a function or a loop fits under `f` if there is room for 5 nodes above each
    other. -/
private theorem lifts_body (h : 5 ≤ f) : body.Lifts f f :=
  lifts_node (lifts_isAt.bind fun _ => lifts_ite
    (lifts_enclosed (lifts_call (.statements false) (Nat.le_refl 4))) lifts_require) h

/-- A condition in parentheses makes no node of its own. -/
private theorem lifts_condition (keyword : String) : (condition keyword).Lifts f f :=
  lifts_require.bind fun _ => (lifts_call .expr (Nat.zero_le f)).bind fun _ => lifts_require

/-- An `if` statement fits under `f` if there is room for 7 nodes above each other. -/
private theorem lifts_ifStmt (h : 7 ≤ f) (terminated : Bool) : (ifStmt terminated).Lifts f f := by
  have hif : (deeper (call (.ifStmt false))).Lifts 5 5 :=
    lifts_deeper (lifts_call (.ifStmt false) (by decide)) (Nat.le_refl 5)
  have helse : (node .elseClause do
      bump
      if ← isAt .kwIf then
        let _ ← deeper (call (.ifStmt false))
      else call .body).Lifts 6 6 :=
    lifts_node (lifts_bump.bind fun _ => lifts_isAt.bind fun _ =>
      lifts_ite (hif.bind fun _ => lifts_pure ()) (lifts_call .body (Nat.le_refl 5)))
      (Nat.le_refl 6)
  have hend : (do
      if terminated then optionally .semiColon : Fragment Unit).Lifts 6 6 :=
    lifts_ite lifts_optionally (lifts_pure ())
  exact lifts_entered.bind fun _ => lifts_node (lifts_bump.bind fun _ =>
    (lifts_condition "if").bind fun _ => (lifts_call .body (by decide)).bind fun _ =>
      lifts_isAt.bind fun _ => lifts_ite (helse.bind fun _ => hend) hend) h

/-- A `while` statement fits under `f` if there is room for 6 nodes above each other. -/
private theorem lifts_whileStmt (h : 6 ≤ f) : whileStmt.Lifts f f :=
  lifts_node (lifts_bump.bind fun _ => (lifts_condition "while").bind fun _ =>
    (lifts_call .body (Nat.le_refl 5)).bind fun _ => lifts_optionally) h

/-- A `for` statement fits under `f` if there is room for 6 nodes above each other. -/
private theorem lifts_forStmt (h : 6 ≤ f) : forStmt.Lifts f f := by
  -- The parts from the back, since each needs what follows it.
  have hend : (do
      require .rParen "`)` to close the loop header"
      call .body
      optionally .semiColon : Fragment Unit).Lifts 5 5 :=
    lifts_require.bind fun _ => (lifts_call .body (Nat.le_refl 5)).bind fun _ => lifts_optionally
  have hupdate : (do
      if ← isAtAny .exprFirst then exprStmt false
      else missing .expectedExpression "a loop update"
      require .rParen "`)` to close the loop header"
      call .body
      optionally .semiColon : Fragment Unit).Lifts 5 5 :=
    lifts_isAtAny.bind fun _ => lifts_ite ((lifts_exprStmt (by decide) false).bind fun _ => hend)
      (lifts_missing.bind fun _ => hend)
  exact lifts_node (lifts_bump.bind fun _ => lifts_require.bind fun _ =>
    lifts_identifier.bind fun _ => lifts_require.bind fun _ =>
    (lifts_call .expr (by decide)).bind fun _ => lifts_require.bind fun _ =>
    (lifts_call .expr (by decide)).bind fun _ => lifts_require.bind fun _ => hupdate) h

/-- The recovery from a missing variable fits under `f` if there is room for 1 nodes above each
    other. -/
private theorem lifts_missingVariable (h : 1 ≤ f) : missingVariable.Lifts f f :=
  lifts_isAtAny.bind fun _ => lifts_ite lifts_missing (lifts_stopped.bind fun _ =>
    lifts_ite lifts_missing (lifts_node (lifts_missing.bind fun _ =>
      lifts_call (.skipTo .varNameRecovery) (Nat.zero_le 0)) h))

/-- A declaration of a variable fits under `f` if there is room for 2 nodes above each other. -/
private theorem lifts_varStmt (h : 2 ≤ f) : varStmt.Lifts f f := by
  -- The parts from the back.
  have hvalue : (do
      if ← isAt .eq then call .initializer
      optionally .semiColon : Fragment Unit).Lifts 1 1 :=
    lifts_isAt.bind fun _ => lifts_ite
      ((lifts_call .initializer (Nat.le_refl 1)).bind fun _ => lifts_optionally) lifts_optionally
  have htype : (do
      if ← eat .colon then call .typeList
      if ← isAt .eq then call .initializer
      optionally .semiColon : Fragment Unit).Lifts 1 1 :=
    lifts_eat.bind fun _ => lifts_ite
      ((lifts_call .typeList (Nat.le_refl 1)).bind fun _ => hvalue) hvalue
  exact lifts_node (lifts_bump.bind fun _ => lifts_eat.bind fun _ => lifts_ite htype
    ((lifts_missingVariable (Nat.le_refl 1)).bind fun _ => htype)) h

/-- A `return` statement fits under `f` if there is room for 1 nodes above each other. -/
private theorem lifts_returnStmt (h : 1 ≤ f) : returnStmt.Lifts f f :=
  lifts_node (lifts_bump.bind fun _ => (lifts_call .expr (Nat.zero_le 0)).bind fun _ =>
    lifts_optionally) h

/-- The look at whether a record begins makes no node. -/
private theorem lifts_atRecordBody : atRecordBody.Lifts f f := by
  refine (lifts_ahead 1).bind fun _ => lifts_ite ?_ (lifts_pure false)
  exact (lifts_ahead 2).bind fun _ => lifts_ite ((lifts_ahead 3).bind fun _ => lifts_pure _)
    (lifts_pure false)

/-- A statement makes nothing deeper than `f`, for its level has been paid for. -/
private theorem lifts_statement : statement.Lifts f f := by
  refine (lifts_deeper (b := f) ?_ (Nat.le_refl f)).bind fun _ => lifts_pure ()
  -- The level that is entered pays for whatever the statement is.
  have htoll {n : Nat} (hn : n ≤ toll) : n ≤ f + toll := Nat.le_add_left_of_le hn
  refine lifts_current.bind fun k => ?_
  split
  · exact lifts_atRecordBody.bind fun _ => lifts_ite (lifts_exprStmt (htoll (by decide)) true)
      (lifts_call .block (htoll (by decide)))
  · exact lifts_call (.ifStmt true) (htoll (by decide))
  · exact lifts_whileStmt (htoll (by decide))
  · exact lifts_forStmt (htoll (by decide))
  · exact lifts_varStmt (htoll (by decide))
  · exact lifts_returnStmt (htoll (by decide))
  · exact lifts_ite (lifts_exprStmt (htoll (by decide)) true)
      (lifts_recoverStatement (htoll (by decide)))

/-- The loop over statements fits under `f` if there is room for 4 nodes above each other. -/
private theorem lifts_statements (h : 4 ≤ f) (seen : Bool) : (statements seen).Lifts f f := by
  have hmore (seen : Bool) : (ask (.statements seen)).Lifts f f := lifts_ask (.statements seen) h
  refine lifts_stopped.bind fun _ => lifts_ite (lifts_pure seen) ?_
  refine lifts_current.bind fun k => ?_
  -- One case for each branch of the list.
  split
  · exact lifts_pure seen
  · exact lifts_remark.bind fun _ => lifts_bump.bind fun _ => hmore seen
  · exact lifts_complain.bind fun _ => (lifts_call .fnDecl (Nat.zero_le f)).bind fun _ => hmore true
  · exact lifts_complain.bind fun _ => (lifts_call .typeDecl h).bind fun _ => hmore true
  · exact lifts_complain.bind fun _ => (lifts_call .typeDecl h).bind fun _ => hmore true
  · exact lifts_complain.bind fun _ =>
      (lifts_call .importDecl (Nat.le_trans (by decide) h)).bind fun _ => hmore seen
  · exact lifts_ite ((lifts_call .statement (Nat.zero_le f)).bind fun _ => hmore true)
      ((lifts_recoverStatement (Nat.le_trans (by decide) h)).bind fun _ => hmore seen)

/-! ### Declarations -/

/-- The type behind a colon fits under `f` if there is room for 1 nodes above each other. -/
private theorem lifts_ascription (h : 1 ≤ f) {what : String} : (ascription what).Lifts f f :=
  lifts_expect.bind fun _ => lifts_ite (lifts_call .typeList h)
    (lifts_isAt.bind fun _ => lifts_ite (lifts_call .typeList h) (lifts_pure ()))

/-- A parameter fits under `f` if there is room for 2 nodes above each other. -/
private theorem lifts_param (h : 2 ≤ f) : param.Lifts f f :=
  lifts_node (lifts_bump.bind fun _ => lifts_ascription (Nat.le_refl 1)) h

/-- The tail of a declaration of a function fits under `f` if there is room for 5 nodes above each
    other. -/
private theorem lifts_fnTail (h : 5 ≤ f) : fnTail.Lifts f f := by
  have hend : (do
      if ← eat .colon then call .typeList
      call .body : Fragment Unit).Lifts f f :=
    lifts_eat.bind fun _ => lifts_ite ((lifts_call .typeList (Nat.le_trans (by decide) h)).bind
      fun _ => lifts_call .body h) (lifts_call .body h)
  have hparams : (node .paramList (delimited .params)).Lifts f f :=
    lifts_node (lifts_delimited (Nat.le_refl 2) .params) (Nat.le_trans (by decide) h)
  exact lifts_isAt.bind fun _ => lifts_ite (hparams.bind fun _ => hend)
    (lifts_require.bind fun _ => hend)

/-- The declaration of a function pays for itself. -/
private theorem lifts_fnDecl : fnDecl.Lifts f f :=
  lifts_entered.bind fun _ => lifts_node (lifts_bump.bind fun _ => lifts_identifier.bind fun _ =>
    lifts_call .fnTail (Nat.le_refl 5)) (Nat.zero_le f)

/-- A declaration of an attribute fits under `f` if there is room for 2 nodes above each other. -/
private theorem lifts_attrDecl (h : 2 ≤ f) : attrDecl.Lifts f f :=
  lifts_node (lifts_bump.bind fun _ => (lifts_ascription (Nat.le_refl 1)).bind fun _ =>
    lifts_isAt.bind fun _ => lifts_ite (lifts_call .initializer (Nat.le_refl 1)) (lifts_pure ())) h

/-- What a member declares, after its modifiers. -/
private theorem lifts_declaration :
    (current >>= fun k =>
      match k with
      | .kwFunction => call .fnDecl >>= fun _ => optionally .semiColon
      | .identifier => attrDecl >>= fun _ => optionally .semiColon
      | _ => missing .expectedIdentifier "an attribute or function declaration" >>= fun _ =>
          optionally .semiColon).Lifts 2 2 := by
  refine lifts_current.bind fun k => ?_
  split
  · exact (lifts_call .fnDecl (Nat.zero_le 2)).bind fun _ => lifts_optionally
  · exact (lifts_attrDecl (Nat.le_refl 2)).bind fun _ => lifts_optionally
  · exact lifts_missing.bind fun _ => lifts_optionally

/-- A member of a type fits under `f` if there is room for 3 nodes above each other. -/
private theorem lifts_typeMember (h : 3 ≤ f) : typeMember.Lifts f f := by
  refine lifts_node (n := 2) (lifts_current.bind fun k => ?_) h
  split
  · exact lifts_bump.bind fun _ => lifts_optionally.bind fun _ => lifts_declaration
  · exact lifts_bump.bind fun _ => lifts_optionally.bind fun _ => lifts_declaration
  · exact lifts_declaration

/-- The loop over the members of a type fits under `f` if there is room for 3 nodes above each
    other. -/
private theorem lifts_members (h : 3 ≤ f) : members.Lifts f f := by
  have hmore : (call .members).Lifts f f := lifts_call .members h
  refine lifts_stopped.bind fun _ => lifts_ite (lifts_pure ()) ?_
  refine lifts_current.bind fun k => ?_
  split
  · exact lifts_pure ()
  · exact lifts_remark.bind fun _ => lifts_bump.bind fun _ => hmore
  · exact lifts_ite ((lifts_call .member h).bind fun _ => hmore)
      ((lifts_setAside lifts_optionally (Nat.le_trans (by decide) h)).bind fun _ => hmore)

/-- A declaration of a type fits under `f` if there is room for 4 nodes above each other. -/
private theorem lifts_typeDecl (h : 4 ≤ f) : typeDecl.Lifts f f :=
  lifts_node (lifts_optionally.bind fun _ => lifts_require.bind fun _ =>
    lifts_identifier.bind fun _ => lifts_isAt.bind fun _ =>
      lifts_ite (lifts_enclosed (lifts_call .members (Nat.le_refl 3))) lifts_require) h

/-! ### Programs -/

/-- An import fits under `f` if there is room for 1 nodes above each other. -/
private theorem lifts_importDecl (h : 1 ≤ f) : importDecl.Lifts f f :=
  lifts_entered.bind fun _ => lifts_node (n := 0) (lifts_bump.bind fun _ =>
    lifts_isAtAny.bind fun _ => lifts_ite (lifts_bump.bind fun _ => lifts_optionally)
      (lifts_missing.bind fun _ => lifts_optionally)) h

/-- An item fits under `f` if there is room for 4 nodes above each other. -/
private theorem lifts_item (h : 4 ≤ f) : item.Lifts f f := by
  have hone : 1 ≤ f := Nat.le_trans (by decide) h
  refine lifts_current.bind fun k => ?_
  split
  · exact lifts_call .fnDecl (Nat.zero_le f)
  · exact lifts_call .typeDecl h
  · exact lifts_call .typeDecl h
  · exact lifts_complain.bind fun _ => lifts_call .importDecl hone
  · exact lifts_ite (lifts_call .statement (Nat.zero_le f)) (lifts_setAside (lifts_pure ()) hone)

/-- The loop over imports fits under `f` if there is room for 1 nodes above each other. -/
private theorem lifts_imports (h : 1 ≤ f) : imports.Lifts f f :=
  lifts_stopped.bind fun _ => lifts_ite (lifts_pure ()) (lifts_isAt.bind fun _ =>
    lifts_ite ((lifts_call .importDecl h).bind fun _ => lifts_call .imports h) (lifts_pure ()))

/-- The loop over items fits under `f` if there is room for 4 nodes above each other. -/
private theorem lifts_items (h : 4 ≤ f) : items.Lifts f f := by
  have hmore : (call .items).Lifts f f := lifts_call .items h
  exact lifts_stopped.bind fun _ => lifts_ite (lifts_pure ()) (lifts_isAt.bind fun _ =>
    lifts_ite (lifts_remark.bind fun _ => lifts_bump.bind fun _ => hmore)
      ((lifts_call .item h).bind fun _ => lifts_optionally.bind fun _ => hmore))

/-- The whole program fits under `f` if there is room for 4 nodes above each other. -/
private theorem lifts_program (h : 4 ≤ f) : program.Lifts f f :=
  (lifts_call .imports (Nat.le_trans (by decide) h)).bind fun _ =>
    (lifts_call .items h).bind fun _ => lifts_flush

/-- The loop that sets tokens aside makes no node of its own. -/
private theorem lifts_discard (stops : TokenSet) : (discard stops).Lifts f f :=
  lifts_stopped.bind fun _ => lifts_ite (lifts_pure ()) (lifts_isAtAny.bind fun _ =>
    lifts_ite (lifts_pure ()) (lifts_bump.bind fun _ =>
      lifts_call (.discard stops) (Nat.zero_le f)))

/-- The skipping up to a boundary makes no node of its own. -/
private theorem lifts_skipTo (stops : TokenSet) : (skipTo stops).Lifts f f :=
  lifts_isAtAny.bind fun _ => lifts_ite (lifts_pure ()) (lifts_stopped.bind fun _ =>
    lifts_ite (lifts_pure ()) (lifts_bump.bind fun _ =>
      lifts_call (.skipTo stops) (Nat.zero_le f)))

end Grammar

namespace Rule

open Grammar

/-- What a rule adds to a frame that may have trees of that depth. -/
theorem lifts (rule : Rule) {f : Nat} (h : rule.adds ≤ f) :
    rule.script.Lifts f (f + rule.wraps) := by
  -- One lemma for each rule.
  cases rule with
  | program => exact (lifts_program h).unit
  | imports => exact (lifts_imports h).unit
  | items => exact (lifts_items h).unit
  | item => exact (lifts_item h).unit
  | importDecl => exact (lifts_importDecl h).unit
  | fnDecl => exact lifts_fnDecl.unit
  | fnTail => exact (lifts_fnTail h).unit
  | param => exact (lifts_param h).unit
  | typeDecl => exact (lifts_typeDecl h).unit
  | members => exact (lifts_members h).unit
  | member => exact (lifts_typeMember h).unit
  | statements seen => exact (lifts_statements h seen).script
  | statement => exact lifts_statement.unit
  | block => exact (lifts_block h).unit
  | body => exact (lifts_body h).unit
  | ifStmt terminated => exact (lifts_ifStmt h terminated).unit
  | initializer => exact (lifts_initializer h).unit
  | expr => exact lifts_expr.unit
  | chain => exact (lifts_chain h).unit
  | prefixes count => exact (lifts_prefixes h count).unit
  | operand => exact (lifts_operand h).unit
  | accessors wrapped => exact (lifts_accessors h wrapped).unit
  | primary => exact (lifts_primary h).unit
  | elements form => exact (lifts_elements h form).unit
  | recordProp => exact (lifts_recordProp h).unit
  | typeList => exact (lifts_typeList h).unit
  | unionTail => exact lifts_unionTail.unit
  | typeName => exact lifts_typeName.unit
  | typeArgTail => exact (lifts_typeArgTail h).unit
  | discard stops => exact (lifts_discard stops).unit
  | skipTo stops => exact (lifts_skipTo stops).unit

end Rule

/-! ## Runs -/

namespace State

variable {g : Setting} {s s' : State} {n f : Nat}

/-- What the levels that are left under a limit of `n` pay for. -/
def allowance (n : Nat) (s : State) : Nat := toll * (n - s.depth)

/-- The trees of the frame have a depth of at most `f`, not counting what is paid for. -/
def Low (n f : Nat) (s : State) : Prop := ∀ t ∈ s.frame, t.Low (s.allowance n + f)

/-- What is low is so for any higher bound. -/
theorem Low.mono {f' : Nat} (h : s.Low n f) (hf : f ≤ f') : s.Low n f' :=
  fun t ht => (h t ht).mono (Nat.add_le_add_left hf _)

/-- Leaves are never too deep. -/
private theorem Low.of_leaves (h : s.Low n f) (hdepth : s'.depth = s.depth)
    (hframe : ∀ t ∈ s'.frame, t ∈ s.frame ∨ ∃ k text, t = .leaf k text) : s'.Low n f := by
  intro t ht
  obtain ht | ⟨k, text, rfl⟩ := hframe t ht
  · rw [allowance, hdepth]
    exact h t ht
  · exact Tree.low_leaf _ k text

/-- How low a frame is depends on its trees and on the levels that are left. -/
theorem Low.congr (h : s.Low n f) (hdepth : s'.depth = s.depth) (hframe : s'.frame = s.frame) :
    s'.Low n f := h.of_leaves hdepth fun _ ht => .inl (hframe ▸ ht)

/-- An empty frame is as low as can be. -/
theorem low_empty (n f : Nat) (hframe : s.frame = #[]) : s.Low n f := by
  intro t ht
  simp [hframe] at ht

theorem Low.drain (h : s.Low n f) : s.drain.Low n f := by
  refine h.of_leaves rfl fun t ht => ?_
  refine (Array.mem_append.mp ht).imp id fun ht => ?_
  obtain ⟨u, -, rfl⟩ := List.mem_map.mp (List.mem_toArray.mp ht)
  exact ⟨u.kind, u.text, rfl⟩

/-- An operation adds nothing but leaves. -/
private theorem low_stepwise :
    Stepwise g fun s s' => s.Low n f → s'.Low n f ∧ s'.depth = s.depth where
  refl _ h := ⟨h, rfl⟩
  trans h h' hs := by
    obtain ⟨hs', hdepth⟩ := h hs
    obtain ⟨hs'', hdepth'⟩ := h' hs'
    exact ⟨hs'', hdepth'.trans hdepth⟩
  skip _ h := ⟨h.congr skip_depth skip_frame, skip_depth⟩
  consume {s t ts} _ _ h := by
    refine ⟨h.of_leaves (consume_depth t ts) fun u hu => ?_, consume_depth t ts⟩
    rw [consume_frame, Array.mem_push, Array.mem_append] at hu
    -- A leaf has depth one, wherever it is put.
    obtain (hu | hu) | rfl := hu
    · exact .inl hu
    · obtain ⟨v, -, rfl⟩ := List.mem_map.mp (List.mem_toArray.mp hu)
      exact .inr ⟨v.kind, v.text, rfl⟩
    · exact .inr ⟨t.kind, t.text, rfl⟩
  reportAt _ o d h := ⟨h.congr (reportAt_depth o d) (reportAt_frame o d), reportAt_depth o d⟩
  withPatience _ _ h := ⟨h, rfl⟩

/-- A level that is entered pays for some nodes. -/
theorem Low.enter (h : s.Low n f) (hlimit : g.depthLimit = some n) {granted : Bool}
    (henter : s.enter g = (granted, s')) :
    granted = false ∧ s'.Low n f ∧ s'.depth = s.depth ∨
      granted = true ∧ s'.Low n (f + toll) ∧ s'.depth = s.depth + 1 ∧ s.depth < n := by
  -- With a level entered the bound for the frame moves up by the toll.
  cases granted with
  | false =>
    obtain ⟨-, rfl⟩ := enter_eq_false_iff.mp henter
    exact .inl ⟨rfl, h.congr rfl rfl, rfl⟩
  | true =>
    obtain ⟨hlevel, rfl⟩ := enter_eq_true_iff.mp henter
    have hlt : s.depth < n := by simpa [hlimit] using hlevel
    refine .inr ⟨rfl, fun t ht => (h t ht).mono ?_, rfl, hlt⟩
    simp only [allowance, toll]
    omega

/-- The level that is left paid for `toll` of the nodes that were made on it. -/
theorem Low.leave (h : s.Low n (f + toll)) {d : Nat} (hdepth : s.depth = d + 1) (hlt : d < n) :
    s.leave.Low n f ∧ s.leave.depth = d := by
  have hleft : s.leave.depth = d := by simp [State.leave, hdepth]
  refine ⟨fun t ht => (h t ht).mono ?_, hleft⟩
  simp only [allowance, hleft, hdepth, toll]
  omega

/-- A new node may be put behind what is low. -/
theorem Low.pushNode (h : s.Low n f) {m : Nat} (h' : s'.Low n m) (hdepth : s'.depth = s.depth)
    (k : Kind) :
    ({ s' with frame := s.drain.frame.push (.node k s'.frame.toList) } : State).Low n
      (max f (k.rise m)) := by
  intro t ht
  have hallowance : s'.allowance n = s.allowance n := by rw [allowance, allowance, hdepth]
  -- What was in the frame, or the new node.
  obtain ht | rfl := Array.mem_push.mp ht
  · have hold := (h.drain.mono (Nat.le_max_left f (k.rise m))) t ht
    exact hold.mono (Nat.add_le_add_right (Nat.le_of_eq hallowance.symm) _)
  · have hnode : (Tree.node k s'.frame.toList).Low (k.rise (s'.allowance n + m)) :=
      Tree.low_node fun t ht => h' t (Array.mem_toList_iff.mp ht)
    refine hnode.mono ?_
    show _ ≤ s'.allowance n + _
    unfold Kind.rise
    split <;> omega

/-- Two low frames are low together. -/
theorem Low.appendFrame (h : s.Low n f) {m : Nat} (h' : s'.Low n m) (hdepth : s'.depth = s.depth) :
    ({ s' with frame := s.drain.frame ++ s'.frame } : State).Low n (max f m) := by
  intro t ht
  have hallowance : s'.allowance n = s.allowance n := by rw [allowance, allowance, hdepth]
  obtain ht | ht := Array.mem_append.mp ht
  · have hold := (h.drain.mono (Nat.le_max_left f m)) t ht
    exact hold.mono (Nat.add_le_add_right (Nat.le_of_eq hallowance.symm) _)
  · exact (h'.mono (Nat.le_max_right f m)) t ht

/-- A node around a low frame is higher by one. -/
theorem Low.wrapped (h : s.Low n f) (k : Kind) :
    ({ s with frame := #[.node k s.frame.toList] } : State).Low n (f + 1) := by
  intro t ht
  obtain rfl : t = .node k s.frame.toList := by simpa using ht
  have hnode : (Tree.node k s.frame.toList).Low (k.rise (s.allowance n + f)) :=
    Tree.low_node fun t ht => h t (Array.mem_toList_iff.mp ht)
  refine hnode.mono ?_
  show _ ≤ s.allowance n + _
  unfold Kind.rise
  split <;> omega

end State

variable {g : Setting} {n : Nat}

/-! ### What scripts lift -/

/-- From the state the script raises trees no further than it says, and that it does so and comes
    back to its level shows what is claimed of the outcome. -/
def Script.KeepsHeight (n : Nat) (script : Script) (s : State) (goal : Bool → State → Prop) :
    Prop :=
  ∃ f b, script.Lifts f b ∧ s.Low n f ∧ ∀ a s', s'.Low n b → s'.depth = s.depth → goal a s'

namespace Script.KeepsHeight

variable {script next body : Script} {s s' s₁ : State} {goal goal' : Bool → State → Prop}
  {f b : Nat}

/-- The height may be kept for a weaker goal. -/
theorem mono (h : script.KeepsHeight n s goal) (hgoal : ∀ a s', goal a s' → goal' a s') :
    script.KeepsHeight n s goal' := by
  obtain ⟨f, b, hlifts, hs, hshown⟩ := h
  exact ⟨f, b, hlifts, hs, fun a s' hs' hdepth => hgoal a s' (hshown a s' hs' hdepth)⟩

/-- On the same level the claim is the same. -/
theorem after (hlifts : next.Lifts f b) (hdepth : s₁.depth = s.depth) (hs₁ : s₁.Low n f)
    (hgoal : ∀ a s', s'.Low n b → s'.depth = s.depth → goal a s') : next.KeepsHeight n s₁ goal :=
  ⟨f, b, hlifts, hs₁, fun a s' hs' hdepth' => hgoal a s' hs' (hdepth'.trans hdepth)⟩

/-- A step that consumes nothing keeps the height for what follows. -/
theorem step (hstep : Step g script s next s') (h : script.KeepsHeight n s goal) :
    next.KeepsHeight n s' goal := by
  obtain ⟨f, b, hlifts, hs, hgoal⟩ := h
  -- Each step keeps the depth of the state and adds leaves at most.
  cases hstep with
  | look hlook =>
    obtain ⟨hs', hdepth⟩ := State.low_stepwise.look hlook hs
    exact after (hlifts _) hdepth hs' hgoal
  | text | stopped =>
    obtain ⟨hs', hdepth⟩ := State.low_stepwise.skip s hs
    exact after (hlifts _) hdepth hs' hgoal
  | exhausted => exact after (hlifts _) rfl hs hgoal
  | flush =>
    have hskipped : (s.skip g).Low n f := hs.congr State.skip_depth State.skip_frame
    exact after hlifts State.skip_depth hskipped.drain hgoal
  | complain hcomplain =>
    obtain ⟨hs', hdepth⟩ := State.low_stepwise.complain hcomplain hs
    exact after hlifts hdepth hs' hgoal
  | remark problem =>
    obtain ⟨hs', hdepth⟩ := State.low_stepwise.remark problem hs
    exact after hlifts hdepth hs' hgoal

/-- A token that is consumed keeps the height for what follows. -/
theorem bump (hbump : s.bump g = .ok s') (h : (Script.bump next).KeepsHeight n s goal) :
    next.KeepsHeight n s' goal := by
  obtain ⟨f, b, hlifts, hs, hgoal⟩ := h
  obtain ⟨hs', hdepth⟩ := State.low_stepwise.bump hbump hs
  exact after hlifts hdepth hs' hgoal

/-- The frame is empty at the start of a node, so only its own children count. -/
theorem node {k : Kind} (h : (Script.node k body next).KeepsHeight n s goal) :
    body.KeepsHeight n { s.drain with frame := #[] } fun _ s₁ =>
      next.KeepsHeight n { s₁ with frame := s.drain.frame.push (.node k s₁.frame.toList) }
        goal := by
  obtain ⟨f, b, ⟨m, hbody, hnext⟩, hs, hgoal⟩ := h
  refine ⟨0, m, hbody, State.low_empty n 0 rfl, fun _ s₁ hs₁ hdepth => ?_⟩
  exact after hnext hdepth (hs.pushNode hs₁ hdepth k) hgoal

/-- The body of a group keeps the height from an empty frame on, and its frame then joins the one
    outside. -/
theorem group (h : (Script.group body next).KeepsHeight n s goal) :
    body.KeepsHeight n { s.drain with frame := #[] } fun _ s₁ =>
      next.KeepsHeight n { s₁ with frame := s.drain.frame ++ s₁.frame } goal := by
  obtain ⟨f, b, ⟨m, hbody, hnext⟩, hs, hgoal⟩ := h
  refine ⟨0, m, hbody, State.low_empty n 0 rfl, fun _ s₁ hs₁ hdepth => ?_⟩
  exact after hnext hdepth (hs.appendFrame hs₁ hdepth) hgoal

/-- The body of what wraps keeps the height in the same frame, which then is one node. -/
theorem wrap {k : Kind} (h : (Script.wrap k body next).KeepsHeight n s goal) :
    body.KeepsHeight n s fun _ s₁ =>
      next.KeepsHeight n { s₁ with frame := #[.node k s₁.frame.toList] } goal := by
  obtain ⟨f, b, ⟨m, hbody, hnext⟩, hs, hgoal⟩ := h
  refine ⟨f, m, hbody, hs, fun _ s₁ hs₁ hdepth => ?_⟩
  exact after hnext hdepth (hs₁.wrapped k) hgoal

/-- A level that is refused adds nothing. -/
theorem refused (hlimit : g.depthLimit = some n) {next : Bool → Script}
    (henter : s.enter g = (false, s₁)) (h : (Script.deeper body next).KeepsHeight n s goal) :
    (next false).KeepsHeight n s₁ goal := by
  obtain ⟨f, b, ⟨m, hle, -, hnext⟩, hs, hgoal⟩ := h
  obtain ⟨-, hs₁, hdepth⟩ | ⟨hgranted, -⟩ := hs.enter hlimit henter
  · exact after (hnext _) hdepth (hs₁.mono hle) hgoal
  · cases hgranted

/-- A level that is entered pays until it is left. -/
theorem granted (hlimit : g.depthLimit = some n) {next : Bool → Script}
    (henter : s.enter g = (true, s₁)) (h : (Script.deeper body next).KeepsHeight n s goal) :
    body.KeepsHeight n s₁ fun _ s₂ => (next true).KeepsHeight n s₂.leave goal := by
  obtain ⟨f, b, ⟨m, -, hbody, hnext⟩, hs, hgoal⟩ := h
  obtain ⟨hgranted, -⟩ | ⟨-, hs₁, hdepth₁, hlt⟩ := hs.enter hlimit henter
  · cases hgranted
  · refine ⟨f + toll, m + toll, hbody, hs₁, fun _ s₂ hs₂ hdepth₂ => ?_⟩
    obtain ⟨hleft, hdepth⟩ := hs₂.leave (hdepth₂.trans hdepth₁) hlt
    exact after (hnext _) hdepth hleft hgoal

/-- Between the delimiters the height is kept, and after the closer was read or found missing. -/
theorem enclosed {d : Delimiter} {construct : String} {ifEmpty : Option Problem}
    (hopen : s.openDelimiter g d = .ok s₁)
    (h : (Script.enclosed d construct ifEmpty body next).KeepsHeight n s goal) :
    body.KeepsHeight n s₁ fun b s₂ => ∀ s₃ s₄, s₂.closeDelimiter g d construct = .ok s₃ →
      s₃.closeEmpty g ifEmpty b ((s.skip g).frontSpan g) = .ok s₄ →
        next.KeepsHeight n s₄ goal := by
  obtain ⟨f, b, ⟨m, hbody, hnext⟩, hs, hgoal⟩ := h
  obtain ⟨hs₁, hdepth₁⟩ := State.low_stepwise.openDelimiter hopen
    (hs.congr State.skip_depth State.skip_frame)
  refine ⟨f, m, hbody, hs₁, fun _ s₂ hs₂ hdepth₂ s₃ s₄ hclose hempty => ?_⟩
  obtain ⟨hs₃, hdepth₃⟩ := State.low_stepwise.closeDelimiter hclose hs₂
  obtain ⟨hs₄, hdepth₄⟩ := State.low_stepwise.closeEmpty hempty hs₃
  have hdepth : s₄.depth = s.depth := by
    rw [hdepth₄, hdepth₃, hdepth₂, hdepth₁, State.skip_depth]
  exact after hnext hdepth hs₄ hgoal

/-- What a rule adds stands beside the trees of the frame, and what it wraps is raised. -/
theorem call {rules : Rule → State → Reply}
    (hrules : ∀ rule s a s' f, rules rule s = .ok (a, s') → s.Low n f → rule.adds ≤ f →
      s'.Low n (f + rule.wraps) ∧ s'.depth = s.depth)
    {rule : Rule} {next : Bool → Script} {a : Bool} (hcall : rules rule s = .ok (a, s₁))
    (h : (Script.call rule next).KeepsHeight n s goal) : (next a).KeepsHeight n s₁ goal := by
  obtain ⟨f, b, hnext, hs, hgoal⟩ := h
  obtain ⟨hs₁, hdepth⟩ := hrules rule s a s₁ _ hcall (hs.mono (Nat.le_max_left f rule.adds))
    (Nat.le_max_right f rule.adds)
  exact after (hnext a) hdepth hs₁ hgoal

end Script.KeepsHeight

/-- What a script lifts shows how high its trees are. -/
def Script.heightAnalysis (hlimit : g.depthLimit = some n) {rules : Rule → State → Reply}
    (hlater : ∀ rule s a s', rules rule s = .ok (a, s') → s.Later g s')
    (hrules : ∀ rule s a s' f, rules rule s = .ok (a, s') → s.Low n f → rule.adds ≤ f →
      s'.Low n (f + rule.wraps) ∧ s'.depth = s.depth) : Script.Analysis g rules where
  Fine := KeepsHeight n
  Last _ := True
  Before := State.Later g
  lasting := State.later_lasting
  before := hlater
  back _ _ := trivial
  outer _ := trivial
  done := fun ⟨_, _, hlifts, hs, hgoal⟩ => hgoal _ _ (hs.mono hlifts) rfl
  step hstep _ := .step hstep
  bump hbump _ := .bump hbump
  node h := h.node.mono fun _ _ hnext _ _ => hnext
  group h := h.group.mono fun _ _ hnext _ _ => hnext
  wrap h := h.wrap.mono fun _ _ hnext _ _ => hnext
  refused henter _ := .refused hlimit henter
  granted henter h := (h.granted hlimit henter).mono fun _ _ hnext _ _ => hnext
  enclosed hopen h := (h.enclosed hopen).mono fun _ _ hnext _ s₃ s₄ hclose hempty _ =>
    hnext s₃ s₄ hclose hempty
  call hcall _ := .call hrules hcall

/-- A script raises the trees of the frame no further than it says, and comes back to the level it
    started from. -/
theorem Script.run_low (hlimit : g.depthLimit = some n) {rules : Rule → State → Reply}
    (hlater : ∀ rule s a s', rules rule s = .ok (a, s') → s.Later g s')
    (hrules : ∀ rule s a s' f, rules rule s = .ok (a, s') → s.Low n f → rule.adds ≤ f →
      s'.Low n (f + rule.wraps) ∧ s'.depth = s.depth)
    {script : Script} {s s' : State} {a : Bool} {f b : Nat}
    (hrun : script.run g rules s = .ok (a, s')) (hs : s.Low n f) (hlifts : script.Lifts f b) :
    s'.Low n b ∧ s'.depth = s.depth := by
  have hkeeps : script.KeepsHeight n s fun _ s' => s'.Low n b ∧ s'.depth = s.depth :=
    ⟨f, b, hlifts, hs, fun _ _ hs' hdepth => ⟨hs', hdepth⟩⟩
  exact run_sound (heightAnalysis hlimit hlater hrules) hkeeps hrun trivial

/-- A rule makes nothing higher than it adds and wraps. -/
theorem Rule.run_low (hlimit : g.depthLimit = some n) {budget : Nat} {rule : Rule} {s s' : State}
    {a : Bool} {f : Nat} (hrun : rule.run g budget s = .ok (a, s')) (hs : s.Low n f)
    (hf : rule.adds ≤ f) : s'.Low n (f + rule.wraps) ∧ s'.depth = s.depth := by
  induction budget generalizing rule s s' a f with
  | zero => cases hrun
  | succ budget ih =>
    exact Script.run_low hlimit (fun _ _ _ _ => Rule.run_later)
      (fun _ _ _ _ _ hrun hs hf => ih hrun hs hf) hrun hs (rule.lifts hf)

/-- A limit on the nesting of rules bounds the depth of the tree, but for functions that are
    declared in functions. -/
theorem parse_depth_le {o : Options} {n : Nat} {source : String} {p : Parsed}
    (hlimit : o.depthLimit = some n) (h : parse o source = .ok (.ok p)) :
    p.tree.depth ≤ 9 * (n + 1 + p.tree.functionDepth) := by
  obtain ⟨a, s, hrun, hfinish⟩ := parseLexed_eq_ok_iff.mp h
  obtain ⟨-, -, htree, -⟩ := State.finish_eq_ok hfinish
  have hinitial : (State.initial (Token.lex source) o.stepLimit).Low n 4 :=
    State.low_empty n 4 rfl
  obtain ⟨hlow, hdepth⟩ := Rule.run_low hlimit hrun hinitial (Nat.le_refl 4)
  -- The root is one node more than the four that `Rule.program` adds.
  have hroot : (Tree.node .program s.frame.toList).Low (s.allowance n + 4 + 1) :=
    Tree.low_node fun t ht => hlow t (Array.mem_toList_iff.mp ht)
  have hallowance : s.allowance n = 9 * n := by
    rw [State.allowance, hdepth]
    rfl
  rw [← htree, Tree.Low, hallowance, toll] at hroot
  omega

/-- Three levels for an operator before a name. -/
theorem parse_depth_le_prefix : ∃ p, parse ⟨true, none, some 3⟩ "-a;" = .ok (.ok p) ∧
    p.tree.depth = 4 ∧ p.tree.depth ≤ 9 * (3 + 1 + p.tree.functionDepth) := by
  have hparse : parse ⟨true, none, some 3⟩ "-a;" = .ok (.ok ⟨.node .program [.node .exprStmt
      [.node .prefixExpr [.leaf .minus "-", .node .nameRef [.leaf .identifier "a"]],
        .leaf .semiColon ";"]], []⟩) := by decide +kernel
  exact ⟨_, hparse, rfl, parse_depth_le rfl hparse⟩

end ScriptTree
