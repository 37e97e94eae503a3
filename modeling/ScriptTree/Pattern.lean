import ScriptTree.Text.CharRanges

/-!
# Patterns of text

A `Pattern` is a regular expression over characters.  `Pattern.Matches` says which texts it
describes; matching goes one character at a time, by `Pattern.residual`: what has to follow once
the character has been read.

* `acceptsEmpty_iff`     `p.acceptsEmpty ↔ p.Matches []`
* `matches_residual_iff` `(p.residual c).Matches cs ↔ p.Matches (c :: cs)`

Residuals are simplified as they are built (`join`, `either`), so that they stay small however long
the text is.
-/

namespace ScriptTree

/-- A set of characters, or the complement of one. -/
structure CharClass where
  negated : Bool
  ranges : CharRanges
  deriving DecidableEq, Repr

namespace CharClass

/-- The characters in some of the ranges. -/
def among (rs : CharRanges) : CharClass := ⟨false, rs⟩

/-- The characters in none of the ranges. -/
def except (rs : CharRanges) : CharClass := ⟨true, rs⟩

/-- Is the character in the class? -/
def contains (k : CharClass) (c : Char) : Bool := k.negated ^^ k.ranges.contains c

/-- What is among some ranges is in one of them. -/
@[simp] theorem contains_among (rs : CharRanges) (c : Char) :
    (among rs).contains c = rs.contains c := by simp [among, contains]

/-- What is all but some ranges is in none of them. -/
@[simp] theorem contains_except (rs : CharRanges) (c : Char) :
    (except rs).contains c = !rs.contains c := by simp [except, contains]

end CharClass

/-- A regular expression over characters. -/
inductive Pattern where
  /-- No text at all. -/
  | never
  /-- The empty text only. -/
  | nothing
  /-- One character of a class. -/
  | one (k : CharClass)
  /-- The first pattern, then the second. -/
  | seq (p q : Pattern)
  /-- Either pattern. -/
  | alt (p q : Pattern)
  /-- The pattern any number of times. -/
  | many (p : Pattern)
  deriving DecidableEq, Repr

namespace Pattern

instance : Append Pattern := ⟨seq⟩

instance : OrOp Pattern := ⟨alt⟩

/-- One character of a set. -/
def oneOf (rs : CharRanges) : Pattern := one (.among rs)

/-- One character outside a set. -/
def noneOf (rs : CharRanges) : Pattern := one (.except rs)

/-- The pattern, or nothing. -/
def maybe (p : Pattern) : Pattern := p ||| nothing

/-- The pattern at least once. -/
def many1 (p : Pattern) : Pattern := p ++ many p

/-- Exactly this text. -/
def text (s : String) : Pattern :=
  s.toList.foldr (fun c p => oneOf [(c.toNat, c.toNat)] ++ p) nothing

/-! ## Meaning -/

/-- The texts that a pattern describes. -/
inductive Matches : Pattern → List Char → Prop
  | nothing : Matches nothing []
  | one {k : CharClass} {c : Char} (h : k.contains c = true) : Matches (one k) [c]
  | seq {p q : Pattern} {as bs : List Char} (hp : Matches p as) (hq : Matches q bs) :
      Matches (seq p q) (as ++ bs)
  | left {p q : Pattern} {as : List Char} (h : Matches p as) : Matches (alt p q) as
  | right {p q : Pattern} {as : List Char} (h : Matches q as) : Matches (alt p q) as
  | zero {p : Pattern} : Matches (many p) []
  | more {p : Pattern} {as bs : List Char} (h : Matches p as) (hs : Matches (many p) bs) :
      Matches (many p) (as ++ bs)

/-! ## Matching -/

/-- Does the pattern describe the empty text? -/
def acceptsEmpty : Pattern → Bool
  | never => false
  | nothing => true
  | one _ => false
  | seq p q => p.acceptsEmpty && q.acceptsEmpty
  | alt p q => p.acceptsEmpty || q.acceptsEmpty
  | many _ => true

/-- The pattern `seq p q`, simplified. -/
def join (p q : Pattern) : Pattern :=
  match p with
  | never => never
  | nothing => q
  | p => seq p q

/-- Is `q` one of the alternatives of `p`? -/
def hasAlternative (p q : Pattern) : Bool :=
  p == q ||
    match p with
    | alt p₁ p₂ => p₁.hasAlternative q || p₂.hasAlternative q
    | _ => false

/-- The pattern `alt p q`, simplified. -/
def either (p q : Pattern) : Pattern :=
  if p = never then q
  else if q = never || p.hasAlternative q then p
  else alt p q

/-- What has to follow the character `c` to make a text of the pattern. -/
def residual (c : Char) : Pattern → Pattern
  | never => never
  | nothing => never
  | one k => if k.contains c then nothing else never
  | seq p q =>
    -- The character may also be the first of what `q` makes.
    if p.acceptsEmpty then either (join (p.residual c) q) (q.residual c)
    else join (p.residual c) q
  | alt p q => either (p.residual c) (q.residual c)
  | many p => join (p.residual c) (many p)

/-! ## Matching agrees with the meaning -/

/-- Nothing matches `never`. -/
@[simp] theorem not_matches_never (cs : List Char) : ¬ never.Matches cs := nofun

/-- Only the empty text matches `nothing`. -/
@[simp] theorem matches_nothing_iff {cs : List Char} : nothing.Matches cs ↔ cs = [] :=
  ⟨fun h => by cases h; rfl, fun h => h ▸ .nothing⟩

/-- A single character of the class matches it. -/
@[simp] theorem matches_one_iff {k : CharClass} {cs : List Char} :
    (one k).Matches cs ↔ ∃ c, k.contains c = true ∧ cs = [c] :=
  ⟨fun h => by cases h with | one h => exact ⟨_, h, rfl⟩, fun ⟨_, h, e⟩ => e ▸ .one h⟩

/-- A sequence matches a text in two parts. -/
theorem matches_seq_iff {p q : Pattern} {cs : List Char} :
    (seq p q).Matches cs ↔ ∃ as bs, cs = as ++ bs ∧ p.Matches as ∧ q.Matches bs :=
  ⟨fun h => by cases h with | seq hp hq => exact ⟨_, _, rfl, hp, hq⟩,
   fun ⟨_, _, e, hp, hq⟩ => e ▸ .seq hp hq⟩

/-- An alternative matches what one of its sides matches. -/
@[simp] theorem matches_alt_iff {p q : Pattern} {cs : List Char} :
    (alt p q).Matches cs ↔ p.Matches cs ∨ q.Matches cs := by
  constructor
  · intro h
    cases h with
    | left h => exact .inl h
    | right h => exact .inr h
  · rintro (h | h)
    · exact .left h
    · exact .right h

/-- The test for the empty text is right. -/
theorem acceptsEmpty_iff (p : Pattern) : p.acceptsEmpty = true ↔ p.Matches [] := by
  induction p with
  | never => simp [acceptsEmpty]
  | nothing => simp [acceptsEmpty]
  | one k => simp [acceptsEmpty]
  | seq p q ihp ihq =>
    simp only [acceptsEmpty, Bool.and_eq_true, ihp, ihq, matches_seq_iff]
    constructor
    · rintro ⟨hp, hq⟩; exact ⟨[], [], rfl, hp, hq⟩
    · rintro ⟨as, bs, e, hp, hq⟩
      obtain ⟨rfl, rfl⟩ := List.append_eq_nil_iff.mp e.symm
      exact ⟨hp, hq⟩
  | alt p q ihp ihq => simp [acceptsEmpty, ihp, ihq]
  | many p _ => exact ⟨fun _ => .zero, fun _ => rfl⟩

/-- To join patterns is to put them in sequence, simplified. -/
private theorem matches_join_iff {p q : Pattern} {cs : List Char} :
    (join p q).Matches cs ↔ (seq p q).Matches cs := by
  unfold join
  split
  · simp [matches_seq_iff]
  · rw [matches_seq_iff]
    constructor
    · exact fun h => ⟨[], cs, rfl, .nothing, h⟩
    · rintro ⟨as, bs, rfl, h, hq⟩
      rw [matches_nothing_iff.mp h]
      exact hq
  · rfl

/-- A pattern matches what its alternatives match. -/
private theorem Matches.of_hasAlternative {p q : Pattern} {cs : List Char}
    (h : p.hasAlternative q = true) (hq : q.Matches cs) : p.Matches cs := by
  induction p with
  | alt p₁ p₂ ih₁ ih₂ =>
    unfold hasAlternative at h
    simp only [Bool.or_eq_true, beq_iff_eq] at h
    rcases h with rfl | h | h
    · exact hq
    · exact .left (ih₁ h)
    · exact .right (ih₂ h)
  | _ =>
    unfold hasAlternative at h
    simp only [Bool.or_false, beq_iff_eq] at h
    exact h ▸ hq

/-- To offer both patterns is to make an alternative of them, simplified. -/
private theorem matches_either_iff {p q : Pattern} {cs : List Char} :
    (either p q).Matches cs ↔ p.Matches cs ∨ q.Matches cs := by
  unfold either
  split
  · subst_vars; simp
  split
  case isTrue h =>
    simp only [Bool.or_eq_true, decide_eq_true_eq] at h
    rcases h with rfl | h
    · simp
    · exact ⟨.inl, fun h' => h'.elim id (.of_hasAlternative h)⟩
  case isFalse => exact matches_alt_iff

/-- A repetition that is not empty starts with a text of the pattern that is not empty. -/
theorem matches_many_cons_iff {p : Pattern} {c : Char} {cs : List Char} :
    (many p).Matches (c :: cs) ↔
      ∃ as bs, cs = as ++ bs ∧ p.Matches (c :: as) ∧ (many p).Matches bs := by
  constructor
  · intro h
    generalize hp : many p = r, hs : c :: cs = ds at h
    induction h with
    | zero => cases hs
    | @more q as bs ha hb _ ihb =>
      cases hp
      cases as with
      | nil => exact ihb rfl hs
      | cons a as =>
        cases hs
        exact ⟨as, bs, rfl, ha, hb⟩
    | _ => cases hp
  · rintro ⟨as, bs, rfl, ha, hb⟩
    exact .more ha hb

/-- The residual matches what may follow the character. -/
theorem matches_residual_iff {c : Char} {p : Pattern} {cs : List Char} :
    (p.residual c).Matches cs ↔ p.Matches (c :: cs) := by
  induction p generalizing cs with
  | never => simp [residual]
  | nothing => simp [residual]
  | one k =>
    unfold residual
    rw [matches_one_iff]
    split
    case isTrue h =>
      rw [matches_nothing_iff]
      constructor
      · rintro rfl; exact ⟨c, h, rfl⟩
      · rintro ⟨d, -, e⟩; exact (List.cons.inj e).2
    case isFalse h =>
      constructor
      · exact fun h' => absurd h' (not_matches_never cs)
      · rintro ⟨d, hd, e⟩; exact absurd ((List.cons.inj e).1 ▸ hd) h
  | alt p q ihp ihq => simp [residual, matches_either_iff, ihp, ihq]
  | many p ih =>
    rw [residual, matches_join_iff, matches_seq_iff, matches_many_cons_iff]
    simp only [ih]
  | seq p q ihp ihq =>
    have hjoin : (join (p.residual c) q).Matches cs ↔
        ∃ as bs, cs = as ++ bs ∧ p.Matches (c :: as) ∧ q.Matches bs := by
      simp only [matches_join_iff, matches_seq_iff, ihp]
    -- A text of a sequence begins in its first part, or that part is empty and it begins in the
    -- second.
    have hsplit : (seq p q).Matches (c :: cs) ↔
        (∃ as bs, cs = as ++ bs ∧ p.Matches (c :: as) ∧ q.Matches bs) ∨
          p.Matches [] ∧ q.Matches (c :: cs) := by
      rw [matches_seq_iff]
      constructor
      · rintro ⟨as, bs, e, hp, hq⟩
        cases as with
        | nil => exact .inr ⟨hp, by rw [e]; exact hq⟩
        | cons a as =>
          cases e
          exact .inl ⟨as, bs, rfl, hp, hq⟩
      · rintro (⟨as, bs, rfl, hp, hq⟩ | ⟨hp, hq⟩)
        · exact ⟨c :: as, bs, rfl, hp, hq⟩
        · exact ⟨[], c :: cs, rfl, hp, hq⟩
    unfold residual
    split
    case isTrue h => rw [matches_either_iff, hjoin, hsplit, ihq]; simp [(acceptsEmpty_iff p).mp h]
    case isFalse h =>
      rw [hjoin, hsplit]
      have : ¬ p.Matches [] := fun h' => h ((acceptsEmpty_iff p).mpr h')
      simp [this]

end Pattern

end ScriptTree
