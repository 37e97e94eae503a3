import Mathlib.Data.List.Pairwise
import ScriptTree.Proofs.Crossings

/-!
# Ties between patterns

A text may be described by several patterns of the lexicon, and then the one listed first decides.
That happens in three ways only (`Kind.outranks`): a word is no identifier if it is reserved, a
comment of three slashes is a documentation comment, and a complete literal is not a malformed one.

All other patterns have no text in common.  A fixed spelling can be tried out with each pattern; of
the rest, most texts differ in their first or second character (`Pattern.apart`).  What is left is
block comments: a complete one is closed, and one that is not is open.

## Key results

- `Lexicon.entries_ranked`: of two entries that describe one text, the first outranks the second
- `Lexicon.munch_ranked`: so what longest match finds outranks all that it could have found
-/

namespace ScriptTree

/-- Is a text that both kinds could have of the first kind? -/
def Kind.outranks (k k' : Kind) : Bool :=
  match k' with
  | .identifier => k != .identifier && TokenSet.identifierNames.contains k
  | .lineComment => k == .docComment
  | .malformedString => k == .singleQuoted || k == .doubleQuoted || k == .backQuoted
  | _ => false

/-- No character is in both classes, as can be seen from their ranges. -/
def CharClass.apart (x y : CharClass) : Bool :=
  !x.negated && !y.negated &&
    x.ranges.all fun r => y.ranges.all fun r' => r.2 < r'.1 || r'.2 < r.1

/-- Classes that are apart have no characters in common. -/
theorem CharClass.not_contains_of_apart {x y : CharClass} (h : x.apart y = true) {c : Char}
    (hx : x.contains c = true) : y.contains c = false := by
  obtain ⟨negated, ranges⟩ := x
  obtain ⟨negated', ranges'⟩ := y
  simp only [apart, Bool.and_eq_true, Bool.not_eq_true', List.all_eq_true, Bool.or_eq_true,
    decide_eq_true_eq] at h
  obtain ⟨⟨rfl, rfl⟩, hranges⟩ := h
  simp only [contains, CharRanges.contains, Bool.false_xor, List.any_eq_true, Bool.and_eq_true,
    decide_eq_true_eq, List.any_eq_false, not_and] at hx ⊢
  obtain ⟨r, hr, hlow, hhigh⟩ := hx
  intro r' hr' hlow'
  have := hranges r hr r' hr'
  omega

namespace Pattern

/-- Does the pattern describe the text? -/
def accepts (p : Pattern) (cs : List Char) : Bool :=
  (cs.foldl (fun p c => p.residual c) p).acceptsEmpty

/-- The test whether a pattern accepts a text is right. -/
private theorem accepts_iff {p : Pattern} {cs : List Char} :
    p.accepts cs = true ↔ p.Matches cs := by
  induction cs generalizing p with
  | nil => exact acceptsEmpty_iff p
  | cons c cs ih => rw [← matches_residual_iff, ← ih, accepts, List.foldl_cons, accepts]

/-- No text begins as both patterns require. -/
def apart (p q : Pattern) : Bool :=
  !(p.acceptsEmpty && q.acceptsEmpty) && p.firsts.all fun x => q.firsts.all x.apart

/-- Patterns that are apart match no text in common. -/
private theorem not_matches_of_apart {p q : Pattern} (h : p.apart q = true) {cs : List Char}
    (hp : p.Matches cs) : ¬ q.Matches cs := by
  intro hq
  simp only [apart, Bool.and_eq_true, List.all_eq_true] at h
  obtain ⟨hempty, hfirsts⟩ := h
  cases cs with
  | nil =>
    rw [(acceptsEmpty_iff p).mpr hp, (acceptsEmpty_iff q).mpr hq] at hempty
    cases hempty
  | cons c cs =>
    obtain ⟨x, hx, hcontains⟩ := hp.mem_firsts
    obtain ⟨y, hy, hcontains'⟩ := hq.mem_firsts
    rw [CharClass.not_contains_of_apart (hfirsts x hx y hy) hcontains] at hcontains'
    cases hcontains'

end Pattern

namespace Lexicon

open Pattern

/-! ## Entries -/

/-- No pattern describes the empty text. -/
theorem not_matches_nil : ∀ e ∈ entries, ¬ e.2.Matches [] := by
  have hrejects : ∀ e ∈ entries, e.2.acceptsEmpty = false := by decide
  intro e he hmatch
  have hempty := hrejects e he
  rw [(acceptsEmpty_iff e.2).mpr hmatch] at hempty
  cases hempty

/-- A fixed spelling is an identifier at most. -/
private theorem spellings_ranked :
    ∀ f ∈ fixedSpellings, ∀ e ∈ entries, e.2.accepts f.2.toList = true →
    f.1 = e.1 ∨ f.1.outranks e.1 = true := by decide +kernel

/-- Open patterns differ in the first character or, if that is a slash, in the second; and if they
    do not, the first outranks the second, or both are block comments. -/
private theorem openPatterns_apart : openPatterns.Pairwise fun e e' =>
    e.1 = e'.1 ∨ e.1.outranks e'.1 = true ∨ e.2.apart e'.2 = true ∨
      e.2.firsts = [.among [(0x2f, 0x2f)]] ∧ (e.2.residual '/').apart (e'.2.residual '/') = true ∨
      e = (.blockComment, blockCommentPattern) ∧
        e'= (.unterminatedComment, unterminatedCommentPattern) := by decide

/-- Where two entries describe one text, they are of one kind or the first outranks the second. -/
def Ranked (e e' : Kind × Pattern) : Prop :=
  ∀ cs, e.2.Matches cs → e'.2.Matches cs → e.1 = e'.1 ∨ e.1.outranks e'.1 = true

/-- The patterns that meet others are ranked by their order. -/
private theorem openPatterns_ranked : openPatterns.Pairwise Ranked := by
  refine openPatterns_apart.imp_of_mem fun {e e'} he _ hpair cs h h' => ?_
  -- Two patterns are the same, or one outranks the other, or their texts differ.
  obtain hsame | houtranks | hapart | ⟨hslash, hapart⟩ | ⟨rfl, rfl⟩ := hpair
  · exact .inl hsame
  · exact .inr houtranks
  · exact absurd h' (not_matches_of_apart hapart h)
  -- Both begin with a slash, and differ in the character behind it.
  · have hmem : e ∈ entries := List.mem_append_right _ he
    cases cs with
    | nil => exact absurd h (not_matches_nil e hmem)
    | cons c cs =>
      obtain ⟨x, hx, hcontains⟩ := h.mem_firsts
      rw [hslash, List.mem_singleton] at hx
      subst hx
      obtain rfl : c = '/' := CharClass.contains_single_iff.mp hcontains
      exact absurd (matches_residual_iff.mpr h')
        (not_matches_of_apart hapart (matches_residual_iff.mpr h))
  · -- The text would be open and closed.
    obtain ⟨as, rfl, -, hclosed⟩ := closed_of_comment h
    obtain ⟨bs, hbs, hopen⟩ := open_of_unterminated h'
    cases hbs
    rw [hopen] at hclosed
    cases hclosed

/-- All entries are ranked by their order. -/
theorem entries_ranked : entries.Pairwise Ranked := by
  have hspelling (f : Kind × String) (hf : f ∈ fixedSpellings) (e : Kind × Pattern)
      (he : e ∈ entries) : Ranked (f.1, text f.2) e := by
    intro cs h h'
    rw [matches_text_iff.mp h] at h'
    exact spellings_ranked f hf e he (accepts_iff.mpr h')
  refine List.pairwise_append.mpr ⟨?_, openPatterns_ranked, fun e he e' he' => ?_⟩
  · refine List.pairwise_of_forall_mem_list fun e he e' he' => ?_
    obtain ⟨f, hf, rfl⟩ := List.mem_map.mp he
    exact hspelling f hf e' (List.mem_append_left _ he')
  · obtain ⟨f, hf, rfl⟩ := List.mem_map.mp he
    exact hspelling f hf e' (List.mem_append_right _ he')

/-! ## Longest match -/

/-- The first piece of a text of this kind and length would be as long as possible, and of the kind
    that goes before all others with a text of this length. -/
structure Longest (k : Kind) (as rest : List Char) : Prop where
  /-- The kind has this text. -/
  described : ∃ e ∈ entries, e.1 = k ∧ e.2.Matches as
  /-- No kind has a longer one, and the others with the same text are outranked. -/
  best : ∀ e ∈ entries, ∀ bs, bs <+: as ++ rest → e.2.Matches bs →
    bs.length < as.length ∨ bs = as ∧ (k = e.1 ∨ k.outranks e.1 = true)

/-- What is munched is the longest match, of the highest rank. -/
theorem longest_of_munch {k : Kind} {as rest : List Char}
    (h : munch entries (as ++ rest) = some (k, as.length)) : Longest k as rest := by
  -- The entry that matched is the first that describes its text.
  obtain ⟨as', rest', heq, hlength, l₁, p, l₂, hentries, hp, hfirst⟩ := munch_first h
  obtain ⟨rfl, rfl⟩ := List.append_inj heq hlength
  have hmem : (k, p) ∈ entries := by simp [hentries]
  refine ⟨⟨(k, p), hmem, rfl, hp⟩, fun e he bs hbs hmatch => ?_⟩
  obtain ⟨tail, htail⟩ := hbs
  obtain ⟨k', n, hmunch, hle⟩ := munch_longest he hmatch (by
    rintro rfl
    exact not_matches_nil e he hmatch) tail
  rw [htail, h] at hmunch
  cases hmunch
  -- A match as long as the token is of the same text.
  obtain hlt | hsame := Nat.lt_or_eq_of_le hle
  · exact .inl hlt
  obtain ⟨rfl, -⟩ := List.append_inj htail hsame
  refine .inr ⟨rfl, ?_⟩
  -- Nothing before the entry describes the text, and all behind it are outranked.
  rw [hentries] at he
  obtain he | he := List.mem_append.mp he
  · exact absurd hmatch (hfirst e he)
  obtain rfl | he := List.mem_cons.mp he
  · exact .inl rfl
  have hpairs := entries_ranked
  rw [hentries, List.pairwise_append, List.pairwise_cons] at hpairs
  exact hpairs.2.1.1 e he bs hp hmatch

end Lexicon

end ScriptTree
