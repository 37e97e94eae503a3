import ScriptTree.Proofs.SignSplit

/-!
# Block comments

A block comment ends with the first `*/` behind its opening, and what opens one that does not end is
an error and takes in all that is left.  Both patterns are written so that they do not run past that
place: the star of the opening is no part of an end, any number of stars may stand before the slash,
and stars that no slash follows do not end the comment.

## Key results

- `Lexicon.matches_comment_iff`, `Lexicon.matches_unterminated_iff`: what the patterns describe
- `Token.lex_comments`: which comments end, and where
-/

namespace ScriptTree

namespace Lexicon

open Pattern

/-- The end of a block comment. -/
def commentEnd : List Char := ['*', '/']

/-- The text ends with the first end of a comment in it. -/
structure EndsComment (cs : List Char) : Prop where
  ends : commentEnd <:+ cs
  first : ¬ commentEnd <:+: cs.dropLast

variable {as cs : List Char}

/-! ## Open and closed -/

/-- A comment is open as long as its end does not occur. -/
private theorem commentOpen_iff : commentOpen false cs = true ↔ ¬ commentEnd <:+: cs := by
  -- Induction on the text, with whether the last character was a star.
  have hall (starred : Bool) :
      commentOpen starred cs = true ↔ ¬ commentEnd <:+: if starred then '*' :: cs else cs := by
    induction cs generalizing starred with
    | nil => cases starred <;> decide
    | cons c cs ih =>
      have hrest : commentOpen (c == '*') cs = true ↔ ¬ commentEnd <:+: c :: cs := by
        rw [ih]
        by_cases hstar : c = '*'
        · simp [hstar]
        · simp [hstar, List.infix_cons_iff, commentEnd, Ne.symm hstar]
      rw [commentOpen, Bool.and_eq_true, hrest]
      cases starred with
      | false => simp
      | true =>
        have hsplit : commentEnd <:+: '*' :: c :: cs ↔
            commentEnd <+: '*' :: c :: cs ∨ commentEnd <:+: c :: cs := List.infix_cons_iff
        rw [if_pos rfl, hsplit]
        simp [commentEnd, eq_comm (a := '/') (b := c)]
  exact hall false

/-- A comment is closed exactly if its end occurs in what was read. -/
private theorem commentOpen_eq_false_iff : commentOpen false cs = false ↔ commentEnd <:+: cs := by
  rw [← Bool.not_eq_true, commentOpen_iff, not_not]

/-- The end of a comment closes it, and nothing before does. -/
private theorem endsComment_iff : EndsComment cs ↔
    commentOpen false cs.dropLast = true ∧ commentOpen false cs = false := by
  rw [commentOpen_iff, commentOpen_eq_false_iff]
  constructor
  · intro h
    exact ⟨h.first, h.ends.isInfix⟩
  · rintro ⟨hfirst, hinfix⟩
    refine ⟨?_, hfirst⟩
    obtain rfl | ⟨bs, c, rfl⟩ := List.eq_nil_or_concat cs
    · exact absurd hinfix (by decide)
    · rw [List.concat_eq_append] at hinfix hfirst ⊢
      rw [List.dropLast_concat] at hfirst
      exact (List.infix_concat_iff.mp hinfix).resolve_right hfirst

/-- If the end of a comment occurs in a text, then first somewhere. -/
private theorem exists_endsComment (h : commentEnd <:+: cs) : ∃ as, as <+: cs ∧ EndsComment as := by
  simp only [endsComment_iff]
  rw [← commentOpen_eq_false_iff] at h
  induction cs using List.reverseRecOn with
  | nil => cases h
  | append_singleton cs c ih =>
    cases hopen : commentOpen false cs with
    | true => exact ⟨cs ++ [c], List.prefix_rfl, by rw [List.dropLast_concat]; exact ⟨hopen, h⟩⟩
    | false =>
      obtain ⟨as, hstart, has⟩ := ih hopen
      exact ⟨as, hstart.trans (List.prefix_append cs [c]), has⟩

/-! ## The patterns of comments -/

/-- What comes after the stars in a block comment: another character, and text up to further
    stars. -/
def commentRound : Pattern :=
  noneOf (.ofString "/*") ++ many (noneOf (.ofString "*")) ++ many1 (text "*")

/-- A star matches itself. -/
private theorem matches_star : (text "*").Matches ['*'] := matches_text_iff.mpr rfl

/-- One more star may stand at the end of a run. -/
private theorem matches_stars_concat {ss : List Char} (h : (many1 (text "*")).Matches ss) :
    (many1 (text "*")).Matches (ss ++ ['*']) := by
  obtain ⟨as, bs, rfl, has, hbs⟩ := matches_append_iff.mp h
  have hone : (many (text "*")).Matches ['*'] := .more matches_star .zero
  have hmore : (many (text "*")).Matches (bs ++ ['*']) := by
    refine hbs.many_induct (P := fun cs => (many (text "*")).Matches (cs ++ ['*'])) hone ?_
    intro cs ds hcs hds
    rw [List.append_assoc]
    exact .more hcs hds
  rw [List.append_assoc]
  exact .seq has hmore

/-- A text that ends with a star and leaves a comment open consists of plain text, stars and
    rounds, and behind a star of stars and rounds. -/
private theorem rounds_of_open (bs : List Char) :
    (commentOpen false (bs ++ ['*']) = true → ∃ as ss rs, bs ++ ['*'] = as ++ ss ++ rs ∧
      (many (noneOf (.ofString "*"))).Matches as ∧ (many1 (text "*")).Matches ss ∧
        (many commentRound).Matches rs) ∧
    (commentOpen true (bs ++ ['*']) = true → ∃ ss rs, bs ++ ['*'] = ss ++ rs ∧
      (many (text "*")).Matches ss ∧ (many commentRound).Matches rs) := by
  -- Induction on the text, before its last star, with and without a star in front.
  induction bs with
  | nil =>
    exact ⟨fun _ => ⟨[], ['*'], [], rfl, .zero, .seq matches_star .zero, .zero⟩,
      fun _ => ⟨['*'], [], rfl, .more matches_star .zero, .zero⟩⟩
  | cons c bs ih =>
    obtain ⟨hplain, hstarred⟩ := ih
    by_cases hstar : c = '*'
    · subst hstar
      have hrest : commentOpen true (bs ++ ['*']) = true → ∃ ss rs,
          '*' :: bs ++ ['*'] = '*' :: ss ++ rs ∧ (many (text "*")).Matches ss ∧
            (many commentRound).Matches rs := by
        intro h
        obtain ⟨ss, rs, heq, hss, hrs⟩ := hstarred h
        exact ⟨ss, rs, by rw [List.cons_append, heq, List.cons_append], hss, hrs⟩
      -- A star joins the first stars, or those of the round before.
      constructor
      · intro h
        obtain ⟨ss, rs, heq, hss, hrs⟩ := hrest (by simpa [commentOpen] using h)
        exact ⟨[], '*' :: ss, rs, heq, .zero, .seq matches_star hss, hrs⟩
      · intro h
        obtain ⟨ss, rs, heq, hss, hrs⟩ := hrest (by simpa [commentOpen] using h)
        exact ⟨'*' :: ss, rs, heq, .more matches_star hss, hrs⟩
    -- Any other character is plain, or starts the next round.
    · have hc : (noneOf (.ofString "*")).Matches [c] :=
        matches_noneOf_iff.mpr ⟨c, by simpa using hstar, rfl⟩
      have hnot : (c == '*') = false := beq_eq_false_iff_ne.mpr hstar
      constructor
      · intro h
        obtain ⟨as, ss, rs, heq, has, hss, hrs⟩ := hplain (by simpa [commentOpen, hnot] using h)
        refine ⟨c :: as, ss, rs, by rw [List.cons_append, heq]; rfl, ?_, hss, hrs⟩
        exact .more hc has
      · intro h
        -- Behind a star there is no slash, or the comment would be closed.
        have hslash : c ≠ '/' := by
          rintro rfl
          simp [commentOpen] at h
        obtain ⟨as, ss, rs, heq, has, hss, hrs⟩ :=
          hplain (by simpa [commentOpen, hnot, hslash] using h)
        have hround : commentRound.Matches (c :: as ++ ss) := by
          have hfirst : (noneOf (.ofString "/*")).Matches [c] :=
            matches_noneOf_iff.mpr ⟨c, by simp [hstar, hslash], rfl⟩
          exact .seq (.seq hfirst has) hss
        refine ⟨[], c :: as ++ ss ++ rs, by rw [List.cons_append, heq]; rfl, .zero, ?_⟩
        exact .more hround hrs

/-- The pattern of a block comment describes the text up to its first end. -/
theorem matches_comment_iff : blockCommentPattern.Matches cs ↔
    ∃ as, cs = '/' :: '*' :: as ∧ EndsComment as := by
  simp only [endsComment_iff]
  constructor
  · exact closed_of_comment
  · rintro ⟨as, rfl, has⟩
    obtain ⟨⟨bs, rfl⟩, -⟩ := endsComment_iff.mpr has
    have hdrop : (bs ++ commentEnd).dropLast = bs ++ ['*'] :=
      List.dropLast_append_of_ne_nil (by decide)
    obtain ⟨as, ss, rs, heq, has, hss, hrs⟩ := (rounds_of_open bs).1 (hdrop ▸ has.1)
    have hopen : (text "/*").Matches ['/', '*'] := matches_text_iff.mpr rfl
    have hclose : (text "/").Matches ['/'] := matches_text_iff.mpr rfl
    have hall : bs ++ commentEnd = as ++ ss ++ rs ++ ['/'] := by
      rw [← heq, List.append_assoc]
      rfl
    rw [hall]
    have htext := Matches.seq (Matches.seq (Matches.seq hopen has) hss) hrs
    exact matches_append_iff.mpr ⟨_, _, rfl, htext, hclose⟩

/-- A text that leaves a comment open consists of plain characters, of stars with one behind them,
    and of stars at the end. -/
private theorem pieces_of_open (bs : List Char) :
    (commentOpen false bs = true → (many (noneOf (.ofString "*") |||
      (many1 (text "*") ++ noneOf (.ofString "*/"))) ++ many (text "*")).Matches bs) ∧
    (commentOpen true bs = true → ∀ ss, (many1 (text "*")).Matches ss →
      (many (noneOf (.ofString "*") ||| (many1 (text "*") ++ noneOf (.ofString "*/"))) ++
        many (text "*")).Matches (ss ++ bs)) := by
  -- Induction on the text, with and without stars in front.
  induction bs with
  | nil =>
    refine ⟨fun _ => .seq .zero .zero, fun _ ss hss => ?_⟩
    obtain ⟨_, ts, rfl, hstar, hts⟩ := matches_append_iff.mp hss
    rw [List.append_nil]
    exact matches_append_iff.mpr ⟨[], _, rfl, .zero, .more hstar hts⟩
  | cons c bs ih =>
    obtain ⟨hplain, hstarred⟩ := ih
    by_cases hstar : c = '*'
    · subst hstar
      -- A star joins the stars in front.
      constructor
      · intro h
        exact hstarred (by simpa [commentOpen] using h) ['*'] (.seq matches_star .zero)
      · intro h ss hss
        have hrest := hstarred (by simpa [commentOpen] using h) _ (matches_stars_concat hss)
        rwa [List.append_assoc] at hrest
    · have hnot : (c == '*') = false := beq_eq_false_iff_ne.mpr hstar
      -- Any other character is a piece of its own, or one with the stars in front of it.
      constructor
      · intro h
        have hc : (noneOf (.ofString "*")).Matches [c] :=
          matches_noneOf_iff.mpr ⟨c, by simpa using hstar, rfl⟩
        obtain ⟨as, ss, rfl, has, hss⟩ :=
          matches_append_iff.mp (hplain (by simpa [commentOpen, hnot] using h))
        exact matches_append_iff.mpr ⟨c :: as, ss, rfl, .more (.left hc) has, hss⟩
      · intro h ss hss
        have hslash : c ≠ '/' := by
          rintro rfl
          simp [commentOpen] at h
        have hc : (noneOf (.ofString "*/")).Matches [c] :=
          matches_noneOf_iff.mpr ⟨c, by simp [hstar, hslash], rfl⟩
        obtain ⟨as, ts, rfl, has, hts⟩ :=
          matches_append_iff.mp (hplain (by simpa [commentOpen, hnot, hslash] using h))
        have hall : ss ++ c :: (as ++ ts) = (ss ++ [c] ++ as) ++ ts := by simp
        rw [hall]
        exact .seq (.more (.right (.seq hss hc)) has) hts

/-- The pattern of an unterminated comment describes a text without an end. -/
theorem matches_unterminated_iff : unterminatedCommentPattern.Matches cs ↔
    ∃ as, cs = '/' :: '*' :: as ∧ ¬ commentEnd <:+: as := by
  simp only [← commentOpen_iff]
  constructor
  · exact open_of_unterminated
  · rintro ⟨as, rfl, has⟩
    have hopen : (text "/*").Matches ['/', '*'] := matches_text_iff.mpr rfl
    obtain ⟨bs, ss, rfl, hbs, hss⟩ := matches_append_iff.mp ((pieces_of_open as).1 has)
    exact matches_append_iff.mpr ⟨'/' :: '*' :: bs, ss, rfl, .seq hopen hbs, hss⟩

/-- No text that begins with a block comment that ends is a longer token. -/
theorem EndsComment.length_le {bs : List Char} (h : EndsComment as) {k : Kind} {p : Pattern}
    (hmem : (k, p) ∈ entries) (hmatch : p.Matches ('/' :: '*' :: bs)) (hstart : as <+: bs) :
    bs.length ≤ as.length := by
  by_contra hlt
  have hopen := (comment_of_slash hmem hmatch).1
  have hbefore : as <+: bs.dropLast := prefix_dropLast hstart (Nat.lt_of_not_le hlt)
  exact commentOpen_iff.mp (commentOpen_mono hopen hbefore) h.ends.isInfix

end Lexicon

namespace Token

open Lexicon

/-- The tokens of a source stand side by side and spell it. -/
private theorem tiles_lex (source : String) : Tiles source (lex source) := by
  have htiles := tiles_place (Piece.ne_nil_of_mem_ofText source.toList) .origin
  rwa [Piece.spell_ofText, String.ofList_toList] at htiles

/-- A token that begins with the opening of a block comment ends with the first end of a comment
    behind that, and if there is none, it takes in all that is left and is an error. -/
theorem lex_comments (source : String) (before : List Token) (t : Token) (after : List Token)
    (hsplit : lex source = before ++ t :: after) (hopening : ['/', '*'] <+: t.text.toList) :
    ∃ cs, t.text.toList = '/' :: '*' :: cs ∧
      (commentEnd <:+: cs ++ (spelling after).toList →
        t.kind = .blockComment ∧ EndsComment cs) ∧
      (¬ commentEnd <:+: cs ++ (spelling after).toList →
        t.kind = .unterminatedComment ∧ after = [] ∧
          t.stop = Text.byteLength source.toList) := by
  obtain ⟨cs, hchars⟩ := hopening
  have hchars : t.text.toList = '/' :: '*' :: cs := hchars.symm
  -- The token is the longest match, and the comment that is not terminated always matches.
  have hunterminated : unterminatedCommentPattern.Matches ['/', '*'] :=
    matches_unterminated_iff.mpr ⟨[], rfl, by decide⟩
  have hlongest := longest_of_lex hsplit hchars (by decide)
    (e := (.unterminatedComment, unterminatedCommentPattern)) (by decide)
    (by simp [hchars]) hunterminated
  rw [hchars] at hlongest
  obtain ⟨⟨k, p⟩, hmem, hkind, hp⟩ := hlongest.described
  obtain rfl : k = t.kind := hkind
  refine ⟨cs, hchars, fun hcloses => ?_, fun hnone => ?_⟩
  -- The comment closes: the longest match ends with its first closer.
  · obtain ⟨as, hfirst, has⟩ := exists_endsComment hcloses
    have hstart : '/' :: '*' :: as <+: '/' :: '*' :: cs ++ (spelling after).toList :=
      List.cons_prefix_cons.mpr ⟨rfl, List.cons_prefix_cons.mpr ⟨rfl, hfirst⟩⟩
    obtain hlt | ⟨heq, hsame | houtranks⟩ :=
      hlongest.best (.blockComment, blockCommentPattern) (by decide) _ hstart
        (matches_comment_iff.mpr ⟨as, rfl, has⟩)
    · -- A longer token would still be open where the comment ends.
      simp only [List.length_cons] at hlt
      have hbefore : as <+: cs :=
        List.prefix_of_prefix_length_le hfirst (List.prefix_append _ _) (by omega)
      have := has.length_le hmem hp hbefore
      omega
    · cases heq
      exact ⟨hsame, has⟩
    · cases houtranks
  -- It does not close, so the longest match is all that is left.
  · obtain hlt | ⟨heq, hsame | houtranks⟩ :=
      hlongest.best (.unterminatedComment, unterminatedCommentPattern) (by decide) _
        List.prefix_rfl (matches_unterminated_iff.mpr ⟨_, rfl, hnone⟩)
    · simp at hlt
    · have htiles := tiles_lex source
      have hnil : (spelling after).toList = [] := by simpa using heq
      -- No token is empty, so none follows.
      have hafter : after = [] := by
        cases after with
        | nil => rfl
        | cons u us =>
          rw [spelling_cons, String.toList_append, List.append_eq_nil_iff,
            String.toList_eq_nil_iff] at hnil
          exact absurd hnil.1 (htiles.ne_empty u (by simp [hsplit]))
      refine ⟨hsame, hafter, ?_⟩
      have hspelled := htiles.spelling_eq
      rw [hsplit, hafter] at hspelled
      rw [← hspelled, stop, htiles.start_eq _ _ _ hsplit]
      simp [width, spelling, Text.byteLength_append]
    · cases houtranks

/-- The star that opens a comment does not close it; stars before the slash that does are its. -/
theorem lex_comments_stars :
    lex "/*/**/a/**" = [] ++ ⟨.blockComment, "/*/**/", 0, ⟨1, 1⟩⟩ ::
      [⟨.identifier, "a", 6, ⟨1, 7⟩⟩, ⟨.unterminatedComment, "/**", 7, ⟨1, 8⟩⟩] ∧
    EndsComment ['/', '*', '*', '/'] ∧
    (⟨.unterminatedComment, "/**", 7, ⟨1, 8⟩⟩ : Token).stop =
      Text.byteLength "/*/**/a/**".toList := by
  have hlex : lex "/*/**/a/**" = [] ++ ⟨.blockComment, "/*/**/", 0, ⟨1, 1⟩⟩ ::
      [⟨.identifier, "a", 6, ⟨1, 7⟩⟩, ⟨.unterminatedComment, "/**", 7, ⟨1, 8⟩⟩] := by
    decide +kernel
  obtain ⟨cs, hcs, hclosed, -⟩ := lex_comments _ [] _ _ hlex (by decide)
  obtain ⟨ds, hds, -, hopen⟩ := lex_comments _ [_, _] _ [] hlex (by decide)
  cases hcs
  cases hds
  exact ⟨hlex, (hclosed (by decide)).2, (hopen (by decide)).2.2⟩

end Token

end ScriptTree
