import ScriptTree.Proofs.Munching
import ScriptTree.Proofs.Seams

/-!
# Where signs are cut off

A `-` that stands right before a digit is a token of its own if and only if the last token before it
that the grammar sees ends an operand; else it begins a number.  Blanks, comments and errors in
between do not matter, and no other operator that begins with a minus comes into play: longest match
reads a minus and a digit as a number.

## Key results

- `Piece.splitSigns_eq_append`: where a piece comes from when signs have been cut off
- `Token.longest_of_lex`: a token that starts as no number does is the longest match
- `Token.lex_signs`: which tokens are signs
-/

namespace ScriptTree

namespace Lexicon

open Pattern

/-- The pattern of a digit is right. -/
private theorem matches_digit_iff {c : Char} : digit.Matches [c] ↔ c.isDigit = true := by
  simp only [digit, matches_oneOf_iff, CharRanges.contains, CharRanges.between, List.any_cons,
    List.any_nil, Bool.or_false, List.cons.injEq, and_true, exists_eq_right', Bool.and_eq_true,
    decide_eq_true_eq, Char.isDigit, ge_iff_le]
  exact Iff.rfl

/-- Only numbers begin with a minus and a digit. -/
private theorem entries_of_sign : ∀ e ∈ entries, e.1 = .number ∨
    (e.2.residual '-').firsts.all (·.apart (.among (.between '0' '9'))) = true := by
  decide

/-- Only a number begins with a minus and a digit. -/
private theorem number_of_sign {k : Kind} {p : Pattern} (hmem : (k, p) ∈ entries) {d : Char}
    (hdigit : digit.Matches [d]) {cs : List Char} (h : p.Matches ('-' :: d :: cs)) :
    k = .number := by
  obtain hkind | hfirsts := entries_of_sign _ hmem
  · exact hkind
  · obtain ⟨x, hx, hcontains⟩ := (matches_residual_iff.mpr h).mem_firsts
    obtain ⟨c, hc, hcs⟩ := matches_oneOf_iff.mp hdigit
    cases hcs
    have hnot := CharClass.not_contains_of_apart (List.all_eq_true.mp hfirsts x hx) hcontains
    rw [CharClass.contains_among, hc] at hnot
    cases hnot

/-- The start of a longer text is there without the last character, too. -/
theorem prefix_dropLast {as bs : List Char} (h : as <+: bs) (hlt : as.length < bs.length) :
    as <+: bs.dropLast := by
  rw [List.dropLast_eq_take, List.prefix_take_iff]
  exact ⟨h, Nat.le_sub_one_of_lt hlt⟩

end Lexicon

namespace Piece

/-- Longest match takes a minus and a digit for a number. -/
theorem MunchedBefore.number {p : Piece} {rest cs : List Char} {d : Char}
    (h : p.MunchedBefore rest) (hne : p.chars ≠ []) (hdigit : Lexicon.digit.Matches [d])
    (heq : p.chars ++ rest = '-' :: d :: cs) : p.isSigned = true := by
  -- The rule of numbers matches at least the sign and the digit.
  have hentry : (Kind.number, Lexicon.numberPattern) ∈ Lexicon.entries := by decide
  obtain ⟨k, n, hmunch, hle⟩ := Pattern.munch_longest hentry (matches_signed hdigit) (by simp) cs
  have hfound : Pattern.munch Lexicon.entries (p.chars ++ rest) = some (k, n) := by
    rw [heq]
    exact hmunch
  unfold MunchedBefore at h
  -- The piece is garbage, or its pattern won against that of numbers.
  split at h
  · rw [h [] p.chars rfl hne] at hfound
    cases hfound
  · rw [h] at hfound
    cases hfound
    obtain ⟨⟨⟨k, q⟩, hmem, rfl, hq⟩, -⟩ := Lexicon.longest_of_munch h
    -- A piece that starts with the sign and is no longer than it is the minus.
    cases hchars : p.chars with
    | nil => exact absurd hchars hne
    | cons c cs' =>
      cases cs' with
      | nil => simp [hchars] at hle
      | cons c' bs =>
        rw [hchars] at heq hq
        cases heq
        simp [isSigned, Lexicon.number_of_sign hmem hdigit hq, hchars]

/-- Is the sign of the piece cut off behind a piece of this kind? -/
def IsCut (last : Option Kind) (p : Piece) : Prop :=
  p.isSigned = true ∧ last.any TokenSet.operandEnd.contains = true

/-- Where signs have been cut off, a piece has been there before, or it is a sign or what is left of
    a number. -/
theorem splitSigns_eq_append {last : Option Kind} {ps qs rs : List Piece} {x : Piece}
    (h : splitSigns last ps = qs ++ x :: rs) : ∃ as p bs, ps = as ++ p :: bs ∧
      (x = p ∧ qs = splitSigns last as ∧ rs = splitSigns (lastKind last (as ++ [p])) bs ∧
          ¬ p.IsCut (lastKind last as) ∨
        p.IsCut (lastKind last as) ∧
          (x = ⟨.minus, ['-']⟩ ∧ qs = splitSigns last as ∨
            x = ⟨.number, p.chars.tail⟩ ∧ qs = splitSigns last as ++ [⟨.minus, ['-']⟩])) := by
  -- Induction on the pieces: the cut is in the first of them or behind it.
  induction ps generalizing last qs with
  | nil => simp [splitSigns] at h
  | cons p ps ih =>
    by_cases hcut : p.IsCut last
    · have hsplit (as : List Piece) : splitSigns last (p :: as) = ⟨.minus, ['-']⟩ ::
          ⟨.number, p.chars.tail⟩ ::
            splitSigns (if p.kind.isSkipped then last else some p.kind) as :=
        if_pos (Bool.and_eq_true _ _ ▸ hcut)
      rw [hsplit] at h
      -- The piece asked for is the sign, the number behind it, or something further on.
      rcases qs with _ | ⟨q, _ | ⟨q', qs⟩⟩
      · obtain ⟨rfl, -⟩ := List.cons.inj h
        exact ⟨[], p, ps, rfl, .inr ⟨hcut, .inl ⟨rfl, rfl⟩⟩⟩
      · rw [List.cons_append, List.cons.injEq] at h
        obtain ⟨rfl, h⟩ := h
        obtain ⟨rfl, -⟩ := List.cons.inj h
        exact ⟨[], p, ps, rfl, .inr ⟨hcut, .inr ⟨rfl, rfl⟩⟩⟩
      · rw [List.cons_append, List.cons_append, List.cons.injEq, List.cons.injEq] at h
        obtain ⟨rfl, rfl, h⟩ := h
        obtain ⟨as, p', bs, rfl, horigin⟩ := ih h
        refine ⟨p :: as, p', bs, rfl, ?_⟩
        simpa [hsplit, lastKind_cons] using horigin
    · have hsplit (as : List Piece) : splitSigns last (p :: as) =
          p :: splitSigns (if p.kind.isSkipped then last else some p.kind) as :=
        if_neg (Bool.and_eq_true _ _ ▸ hcut)
      rw [hsplit] at h
      -- Nothing is cut: the piece asked for is the first one, or something further on.
      cases qs with
      | nil =>
        obtain ⟨rfl, rfl⟩ := List.cons.inj h
        exact ⟨[], p, ps, rfl, .inl ⟨rfl, rfl, by rw [List.nil_append, lastKind_cons]; rfl, hcut⟩⟩
      | cons q qs =>
        rw [List.cons_append, List.cons.injEq] at h
        obtain ⟨rfl, h⟩ := h
        obtain ⟨as, p', bs, rfl, horigin⟩ := ih h
        refine ⟨p :: as, p', bs, rfl, ?_⟩
        simpa [hsplit, lastKind_cons] using horigin

end Piece

namespace Token

/-- Does the last token that the grammar sees end an operand? -/
def EndsOperand (ts : List Token) : Prop :=
  ∃ t ∈ (significant ts).getLast?, TokenSet.operandEnd.contains t.kind = true

/-- Tokens end an operand exactly if their last kind that is seen does. -/
private theorem endsOperand_place {start : Nat} {here : LineCol} {ps : List Piece} :
    EndsOperand (Piece.place start here ps) ↔
      (Piece.lastKind none ps).any TokenSet.operandEnd.contains = true := by
  have hlabels := congrArg (Option.map (·.1) ∘ List.getLast?)
    (Piece.significantLabels_place start here ps)
  simp only [Piece.significantLabels_eq, Function.comp_apply, List.getLast?_map,
    Option.map_map] at hlabels
  have hlast : (significant (Piece.place start here ps)).getLast?.map (·.kind) =
      (Piece.seen ps).getLast?.map (·.kind) := hlabels
  have hkind : Piece.lastKind none ps = (Piece.seen ps).getLast?.map (·.kind) := by
    unfold Piece.lastKind
    cases (Piece.seen ps).getLast? <;> rfl
  rw [hkind, ← hlast]
  unfold EndsOperand
  cases (significant (Piece.place start here ps)).getLast? <;> simp

/-- The token that starts with the end of another one is the next. -/
private theorem mem_head_of_start_eq {source : String} {before after : List Token} {t u : Token}
    (hsplit : lex source = before ++ t :: after) (hu : u ∈ lex source) (hne : u ≠ t)
    (hstart : u.start = t.stop) : u ∈ after.head? := by
  -- Tokens start in order, and each starts where the one before stops.
  obtain ⟨hsorted, -⟩ := lex_sorted source
  obtain ⟨-, -, qs, -, -, -, hafter⟩ := Piece.place_eq_append_cons hsplit
  rw [hsplit] at hsorted hu
  obtain ⟨-, hsorted, hbefore⟩ := List.pairwise_append.mp hsorted
  obtain ⟨-, hsorted⟩ := List.pairwise_cons.mp hsorted
  have hle : t.start ≤ t.stop := Nat.le_add_right _ _
  obtain hu | hu := List.mem_append.mp hu
  · have := hbefore u hu t List.mem_cons_self
    omega
  · have hu := (List.mem_cons.mp hu).resolve_left hne
    cases qs with
    | nil =>
      rw [hafter] at hu
      cases hu
    | cons q qs =>
      rw [Piece.place_cons] at hafter
      rw [hafter] at hu hsorted ⊢
      obtain rfl | hu := List.mem_cons.mp hu
      · exact rfl
      · have : t.stop < u.start := (List.pairwise_cons.mp hsorted).1 u hu
        omega

/-- A token is cut off by longest match, unless it is a sign or what is left of a number. -/
private theorem munched_of_lex {source : String} {before after : List Token} {t : Token}
    (hsplit : lex source = before ++ t :: after) :
    (⟨t.kind, t.text.toList⟩ : Piece).MunchedBefore (spelling after).toList ∨
      ∀ c ∈ t.text.toList, ∃ k ∈ Lexicon.numberPattern.classes, k.contains c = true := by
  have hmunched := Piece.munched_gather (Piece.munched_scan source.toList)
  obtain ⟨qs, x, rs, hpieces, -, ht, rfl⟩ := Piece.place_eq_append_cons hsplit
  have hkind : t.kind = x.kind := by rw [ht]
  have htext : t.text.toList = x.chars := by rw [ht, String.toList_ofList]
  rw [hkind, htext, Piece.spelling_place, String.toList_ofList]
  -- The token is a piece as it was scanned, or part of one that was cut.
  obtain ⟨as, p, bs, hps, ⟨rfl, -, rfl, -⟩ | ⟨hcut, hx⟩⟩ := Piece.splitSigns_eq_append hpieces
  · rw [hps] at hmunched
    rw [Piece.spell_splitSigns]
    exact .inl hmunched.of_append.1
  · -- The number had all the characters before its sign was cut off.
    right
    obtain ⟨hkind, hchars⟩ := Piece.eq_cons_of_isSigned hcut.1
    rw [hps] at hmunched
    have hp := hmunched.of_append.1
    unfold Piece.MunchedBefore at hp
    rw [if_neg (by rw [hkind]; decide)] at hp
    obtain ⟨⟨⟨k, y⟩, hmem, rfl, hy⟩, -⟩ := Lexicon.longest_of_munch hp
    obtain rfl := (Piece.entries_of_number _ hmem).2 hkind
    have hsub : ∀ c ∈ x.chars, c ∈ p.chars := by
      rw [hchars]
      obtain ⟨rfl, -⟩ | ⟨rfl, -⟩ := hx
      · simp
      · exact fun c hc => List.mem_cons_of_mem _ hc
    exact fun c hc => hy.mem_classes (hsub c hc)

/-- A token that starts as no number does is the longest match, if there is one. -/
theorem longest_of_lex {source : String} {before after : List Token} {t : Token}
    (hsplit : lex source = before ++ t :: after) {c : Char} {cs : List Char}
    (hchars : t.text.toList = c :: cs)
    (hnumber : Lexicon.numberPattern.classes.all (!·.contains c) = true)
    {e : Kind × Pattern} (he : e ∈ Lexicon.entries) {as : List Char}
    (hstart : as <+: t.text.toList ++ (spelling after).toList) (hmatch : e.2.Matches as) :
    Lexicon.Longest t.kind t.text.toList (spelling after).toList := by
  obtain hp | hall := munched_of_lex hsplit
  · unfold Piece.MunchedBefore at hp
    dsimp only at hp
    split at hp
    · -- Nothing would match.
      obtain ⟨tail, htail⟩ := hstart
      obtain ⟨k, n, hmunch, -⟩ := Pattern.munch_longest he hmatch (by
        rintro rfl
        exact Lexicon.not_matches_nil e he hmatch) tail
      rw [htail, hp [] t.text.toList rfl (by simp [hchars])] at hmunch
      cases hmunch
    · exact Lexicon.longest_of_munch hp
  -- A part of a number reads only what numbers read, and a character is none of it.
  · obtain ⟨k, hk, hcontains⟩ := hall c (by simp [hchars])
    have hnot := List.all_eq_true.mp hnumber k hk
    rw [hcontains] at hnot
    cases hnot

/-- Behind the end of an operand no number has a sign; a minus that stands right before a number
    stands there, and so does any that stands right before a digit and begins no number. -/
theorem lex_signs (source : String) (before : List Token) (t : Token) (after : List Token)
    (hsplit : lex source = before ++ t :: after) :
    (t.kind = .number → t.text.toList.head? = some '-' → ¬ EndsOperand before) ∧
    (t.kind = .minus → (∃ u ∈ lex source, u.kind = .number ∧ u.start = t.stop) →
      EndsOperand before) ∧
    ∀ d cs, d.isDigit = true → (spelling (t :: after)).toList = '-' :: d :: cs →
      (t.kind = .minus ↔ EndsOperand before) ∧ (t.kind = .number ↔ ¬ EndsOperand before) := by
  -- Where the token stops the next one starts, and no other token does.
  have hnext : ∀ u ∈ lex source, u ≠ t → u.start = t.stop → u ∈ after.head? :=
    fun u => mem_head_of_start_eq hsplit
  have hmunched := Piece.munched_gather (Piece.munched_scan source.toList)
  have hunglued := Piece.unglued_of_munched hmunched
  have hsolid := Piece.solid_gather (Piece.solid_scan source.toList)
  obtain ⟨qs, x, rs, hpieces, rfl, ht, rfl⟩ := Piece.place_eq_append_cons hsplit
  have hkind : t.kind = x.kind := by rw [ht]
  have htext : t.text = String.ofList x.chars := by rw [ht]
  rw [endsOperand_place, spelling_cons, Piece.spelling_place, htext, hkind, ← String.ofList_append,
    String.toList_ofList, String.toList_ofList]
  obtain ⟨as, p, bs, hps, ⟨rfl, rfl, rfl, hkept⟩ | ⟨hcut, ⟨rfl, rfl⟩ | ⟨rfl, rfl⟩⟩⟩ :=
    Piece.splitSigns_eq_append hpieces
  · -- The piece has been there before.
    rw [Piece.lastKind_splitSigns, Piece.spell_splitSigns]
    rw [hps] at hmunched hunglued hsolid
    obtain ⟨hx, -⟩ := hmunched.of_append
    refine ⟨fun hnumber hhead hends => hkept ⟨?_, hends⟩, ?_, fun d cs hdigit hspell => ?_⟩
    · simp [Piece.isSigned, hnumber, hhead]
    · rintro hminus ⟨u, hu, hnumber, hstart⟩
      have hne : u ≠ t := by
        rintro rfl
        rw [hkind, hminus] at hnumber
        cases hnumber
      obtain ⟨q, hq, hqkind⟩ := Piece.exists_of_mem_head_place (hnext u hu hne hstart)
      obtain ⟨r, hr, rfl⟩ := Piece.kind_head_splitSigns hq (by rw [hqkind, hnumber]; decide)
      -- Longest match would have read the minus and the number as one.
      have hchain := (List.isChain_append.mp hunglued).2.1
      exact absurd ⟨hminus, hqkind.trans hnumber⟩ ((List.isChain_cons.mp hchain).1 r hr)
    -- Before a digit a minus that ends no operand would have been read with it.
    · have hdigit := Lexicon.matches_digit_iff.mpr hdigit
      have hsigned := hx.number (hsolid x (by simp)).1 hdigit hspell
      have hends : ¬ (Piece.lastKind none as).any TokenSet.operandEnd.contains = true :=
        fun hends => hkept ⟨hsigned, hends⟩
      simp [hends, (Piece.eq_cons_of_isSigned hsigned).1]
  · -- It is a sign that has been cut off.
    rw [Piece.lastKind_splitSigns]
    exact ⟨fun hnumber => (by cases hnumber), fun _ _ => hcut.2, fun d cs _ _ => by simp [hcut.2]⟩
  · -- It is a number without its sign, and stands behind that.
    have hminus : Piece.lastKind none (Piece.splitSigns none as ++ [⟨.minus, ['-']⟩]) =
        some .minus := by
      rw [Piece.lastKind, Piece.seen_append, Piece.seen_cons, Piece.seen_nil,
        if_neg (by decide), List.getLast?_concat]
      rfl
    have hends : (some Kind.minus).any TokenSet.operandEnd.contains = false := by decide
    rw [hminus, hends]
    simp

/-- Behind `a` and an error, `-1` is a minus and a number; behind a parenthesis it is a number. -/
theorem lex_signs_difference :
    lex "a@-1" = [⟨.identifier, "a", 0, ⟨1, 1⟩⟩, ⟨.garbage, "@", 1, ⟨1, 2⟩⟩] ++
      ⟨.minus, "-", 2, ⟨1, 3⟩⟩ :: [⟨.number, "1", 3, ⟨1, 4⟩⟩] ∧
    EndsOperand [⟨.identifier, "a", 0, ⟨1, 1⟩⟩, ⟨.garbage, "@", 1, ⟨1, 2⟩⟩] ∧
    lex "(-1" = [⟨.lParen, "(", 0, ⟨1, 1⟩⟩] ++ ⟨.number, "-1", 1, ⟨1, 2⟩⟩ :: [] ∧
    ¬ EndsOperand [⟨.lParen, "(", 0, ⟨1, 1⟩⟩] := by
  have hminus : lex "a@-1" = [⟨.identifier, "a", 0, ⟨1, 1⟩⟩, ⟨.garbage, "@", 1, ⟨1, 2⟩⟩] ++
      ⟨.minus, "-", 2, ⟨1, 3⟩⟩ :: [⟨.number, "1", 3, ⟨1, 4⟩⟩] := by decide +kernel
  have hnumber : lex "(-1" = [⟨.lParen, "(", 0, ⟨1, 1⟩⟩] ++ ⟨.number, "-1", 1, ⟨1, 2⟩⟩ :: [] := by
    decide +kernel
  have hbefore := (lex_signs _ _ _ _ hminus).2.1 rfl
  have hexact := (lex_signs _ _ _ _ hnumber).2.2 '1' [] (by decide) (by decide)
  exact ⟨hminus, hbefore ⟨⟨.number, "1", 3, ⟨1, 4⟩⟩, by simp [hminus], rfl, by decide⟩, hnumber,
    hexact.2.mp rfl⟩

end Token

end ScriptTree
