import ScriptTree.Proofs.LongestMatch

/-!
# What runs on across a blank

Where a text ends without lexical errors and a blank follows, no token reaches across the blank, but
for white space and for a comment up to the end of the line.  Literals and block comments may have
blanks in them, but only as long as they are open (`Lexicon.literalOpen`, `Lexicon.commentOpen`),
and one that is open at the end of a text is a lexical error of the text.

## Key results

- `Lexicon.literal_of_quote`, `Lexicon.comment_of_slash`: what is closed cannot go on
- `Lexicon.blank_of_crossing`: only white space runs on across a line break
-/

namespace ScriptTree

namespace Pattern

/-- A sequence matches a text in two parts. -/
theorem matches_append_iff {p q : Pattern} {cs : List Char} :
    (p ++ q).Matches cs ↔ ∃ as bs, cs = as ++ bs ∧ p.Matches as ∧ q.Matches bs := matches_seq_iff

/-- An alternative matches what one of its sides matches. -/
theorem matches_or_iff {p q : Pattern} {cs : List Char} :
    (p ||| q).Matches cs ↔ p.Matches cs ∨ q.Matches cs := matches_alt_iff

/-- A single character in the ranges matches them. -/
theorem matches_oneOf_iff {rs : CharRanges} {cs : List Char} :
    (oneOf rs).Matches cs ↔ ∃ c, rs.contains c = true ∧ cs = [c] := by
  simp [oneOf]

/-- A single character outside of the ranges matches their complement. -/
theorem matches_noneOf_iff {rs : CharRanges} {cs : List Char} :
    (noneOf rs).Matches cs ↔ ∃ c, rs.contains c = false ∧ cs = [c] := by
  simp [noneOf]

end Pattern

namespace Lexicon

open Pattern

/-! ## Literals -/

/-- The characters between which literals stand. -/
def IsQuote (q : Char) : Prop := q = '\x27' ∨ q = '\x22' ∨ q = '\x60'

/-- Is a literal still open after this text?  `escaped` if a backslash stands before it. -/
def literalOpen (quote : Char) : (escaped : Bool) → List Char → Bool
  | _, [] => true
  | true, _ :: cs => literalOpen quote false cs
  | false, c :: cs =>
    if c = '\\' then literalOpen quote true cs else c != quote && literalOpen quote false cs

/-- A literal that is open was open before. -/
theorem literalOpen_mono {quote : Char} {escaped : Bool} {as cs : List Char}
    (h : literalOpen quote escaped cs = true) (hstart : as <+: cs) :
    literalOpen quote escaped as = true := by
  obtain ⟨bs, rfl⟩ := hstart
  -- Induction on the prefix, with the escape of its last character.
  induction as generalizing escaped with
  | nil => cases escaped <;> rfl
  | cons c as ih =>
    rw [List.cons_append] at h
    cases escaped with
    | true => exact ih h
    | false =>
      unfold literalOpen at h ⊢
      by_cases hslash : c = '\\'
      · rw [if_pos hslash] at h ⊢
        exact ih h
      · rw [if_neg hslash, Bool.and_eq_true] at h ⊢
        exact ⟨h.1, ih h.2⟩

/-- A plain character leaves a literal open. -/
private theorem literalOpen_cons {quote c : Char} (hslash : c ≠ '\\') (hquote : c ≠ quote)
    (cs : List Char) : literalOpen quote false (c :: cs) = literalOpen quote false cs := by
  simp [literalOpen, hslash, hquote]

/-- An escaped character leaves a literal open. -/
private theorem literalOpen_escape (quote c : Char) (cs : List Char) :
    literalOpen quote false ('\\' :: c :: cs) = literalOpen quote false cs := by
  simp [literalOpen]

section

variable {quote : String} {q : Char} {barred : CharRanges} {as cs : List Char}

/-- What may stand between quotes leaves the literal open. -/
private theorem literalOpen_of_plain (hquote : quote.toList = [q])
    (h : (noneOf (.ofString quote ++ .ofString "\\" ++ barred)).Matches as) (cs : List Char) :
    literalOpen q false (as ++ cs) = literalOpen q false cs := by
  obtain ⟨c, hc, rfl⟩ := matches_noneOf_iff.mp h
  simp only [CharRanges.contains_append, CharRanges.contains_ofString, hquote, Bool.or_eq_false_iff,
    List.contains_eq_mem, decide_eq_false_iff_not, List.mem_singleton] at hc
  obtain ⟨⟨hne, hslash⟩, -⟩ := hc
  exact literalOpen_cons (by simpa using hslash) hne cs

/-- A hexadecimal digit leaves a literal open. -/
private theorem literalOpen_of_hexDigit (hq : IsQuote q) (h : hexDigit.Matches as)
    (cs : List Char) : literalOpen q false (as ++ cs) = literalOpen q false cs := by
  obtain ⟨c, hc, rfl⟩ := matches_oneOf_iff.mp h
  have hne (d : Char) (hd : CharRanges.contains
      (.between '0' '9' ++ .between 'a' 'f' ++ .between 'A' 'F') d = false) : c ≠ d := by
    intro heq
    rw [heq, hd] at hc
    cases hc
  apply literalOpen_cons
  · exact hne _ (by decide)
  · obtain rfl | rfl | rfl := hq <;> exact hne _ (by decide)

/-- An escape leaves a literal open. -/
private theorem literalOpen_of_escape (hq : IsQuote q)
    (h : (text "\\" ++ (oneOf (.ofString "bfnrtv\\/" ++ .ofString quote) |||
      (text "u" ++ hexDigit ++ hexDigit ++ hexDigit ++ hexDigit))).Matches as) (cs : List Char) :
    literalOpen q false (as ++ cs) = literalOpen q false cs := by
  obtain ⟨_, es, rfl, hslash, h⟩ := matches_append_iff.mp h
  rw [matches_text_iff.mp hslash]
  obtain h | h := matches_or_iff.mp h
  · obtain ⟨c, -, rfl⟩ := matches_oneOf_iff.mp h
    exact literalOpen_escape q c cs
  · obtain ⟨es₄, d₄, rfl, h, h₄⟩ := matches_append_iff.mp h
    obtain ⟨es₃, d₃, rfl, h, h₃⟩ := matches_append_iff.mp h
    obtain ⟨es₂, d₂, rfl, h, h₂⟩ := matches_append_iff.mp h
    obtain ⟨es₁, d₁, rfl, h, h₁⟩ := matches_append_iff.mp h
    rw [matches_text_iff.mp h]
    -- The letter is escaped, and no digit is a quote or a backslash.
    show literalOpen q false ('\\' :: 'u' :: (d₁ ++ d₂ ++ d₃ ++ d₄ ++ cs)) = _
    rw [literalOpen_escape, List.append_assoc, List.append_assoc, List.append_assoc,
      literalOpen_of_hexDigit hq h₁, literalOpen_of_hexDigit hq h₂, literalOpen_of_hexDigit hq h₃,
      literalOpen_of_hexDigit hq h₄]

/-- What leaves a literal open does so any number of times. -/
private theorem literalOpen_of_many {p : Pattern}
    (hp : ∀ as cs, p.Matches as → literalOpen q false (as ++ cs) = literalOpen q false cs)
    (h : (many p).Matches as) (cs : List Char) :
    literalOpen q false (as ++ cs) = literalOpen q false cs := by
  apply h.many_induct (P := fun as => literalOpen q false (as ++ cs) = literalOpen q false cs)
  · rfl
  · intro as bs ha hbs
    rw [List.append_assoc, hp as _ ha, hbs]

/-- A complete literal is closed by its last character, and not before. -/
private theorem closed_of_string (hq : IsQuote q) (hquote : quote.toList = [q])
    (h : (stringPattern quote barred).Matches cs) : ∃ as, cs = q :: as ∧
      literalOpen q false as.dropLast = true ∧ literalOpen q false as = false := by
  obtain ⟨bs, ds, rfl, h, hclose⟩ := matches_append_iff.mp h
  obtain ⟨es, as, rfl, hopen, has⟩ := matches_append_iff.mp h
  -- The parts between the quotes leave the literal open.
  have hbody (cs : List Char) : literalOpen q false (as ++ cs) = literalOpen q false cs := by
    refine literalOpen_of_many (fun bs cs hb => ?_) has cs
    obtain hb | hb := matches_or_iff.mp hb
    · exact literalOpen_of_plain hquote hb cs
    · exact literalOpen_of_escape hq hb cs
  rw [matches_text_iff.mp hopen, matches_text_iff.mp hclose, hquote]
  refine ⟨as ++ [q], rfl, ?_, ?_⟩
  · rw [List.dropLast_concat]
    simpa [literalOpen] using hbody []
  · rw [hbody]
    obtain rfl | rfl | rfl := hq <;> decide

/-- A malformed literal is open up to its last character. -/
private theorem open_of_malformed (hquote : quote.toList = [q])
    (h : (malformedPattern quote barred).Matches cs) :
    ∃ as, cs = q :: as ∧ literalOpen q false as.dropLast = true := by
  obtain ⟨bs, ds, rfl, h, hclose⟩ := matches_append_iff.mp h
  obtain ⟨es, as, rfl, hopen, has⟩ := matches_append_iff.mp h
  have hbody (cs : List Char) : literalOpen q false (as ++ cs) = literalOpen q false cs := by
    refine literalOpen_of_many (fun bs cs hb => ?_) has cs
    obtain hb | hb := matches_or_iff.mp hb
    · exact literalOpen_of_plain hquote hb cs
    · obtain ⟨_, _, rfl, hslash, hb⟩ := matches_append_iff.mp hb
      obtain ⟨c, -, rfl⟩ := matches_noneOf_iff.mp hb
      rw [matches_text_iff.mp hslash]
      exact literalOpen_escape q c cs
  have hall : literalOpen q false as = true := by simpa [literalOpen] using hbody []
  rw [matches_text_iff.mp hopen, hquote]
  -- The line ends the literal, or the source does.
  obtain hclose | hclose := matches_or_iff.mp hclose
  · rw [matches_text_iff.mp hclose, hquote]
    exact ⟨as ++ [q], rfl, by rwa [List.dropLast_concat]⟩
  · obtain rfl := matches_nothing_iff.mp hclose
    rw [List.append_nil]
    exact ⟨as, rfl, literalOpen_mono hall (List.dropLast_prefix as)⟩

end

/-! ## Comments -/

/-- Is a block comment still open after this text?  `starred` if a star stands before it. -/
def commentOpen : (starred : Bool) → List Char → Bool
  | _, [] => true
  | starred, c :: cs => !(starred && c == '/') && commentOpen (c == '*') cs

/-- A comment that is open was open before. -/
theorem commentOpen_mono {starred : Bool} {as cs : List Char}
    (h : commentOpen starred cs = true) (hstart : as <+: cs) : commentOpen starred as = true := by
  obtain ⟨bs, rfl⟩ := hstart
  induction as generalizing starred with
  | nil => cases starred <;> rfl
  | cons c as ih =>
    rw [List.cons_append] at h
    unfold commentOpen at h ⊢
    rw [Bool.and_eq_true] at h ⊢
    exact ⟨h.1, ih h.2⟩

section

variable {as cs : List Char}

/-- A character that does not end a comment leaves it open. -/
private theorem commentOpen_cons {starred : Bool} {c : Char} (hstar : c ≠ '*')
    (hslash : starred = true → c ≠ '/') (cs : List Char) :
    commentOpen starred (c :: cs) = commentOpen false cs := by
  have hstar : (c == '*') = false := beq_eq_false_iff_ne.mpr hstar
  cases starred with
  | false => simp [commentOpen, hstar]
  | true => simp [commentOpen, hstar, beq_eq_false_iff_ne.mpr (hslash rfl)]

/-- Stars behind a star change nothing. -/
private theorem commentOpen_of_stars (h : (many (text "*")).Matches as) (cs : List Char) :
    commentOpen true (as ++ cs) = commentOpen true cs := by
  apply h.many_induct (P := fun as => commentOpen true (as ++ cs) = commentOpen true cs)
  · rfl
  · intro as bs ha hbs
    rw [matches_text_iff.mp ha, List.append_assoc]
    simpa [commentOpen] using hbs

/-- Behind a run of stars a slash would end the comment. -/
private theorem commentOpen_of_stars1 {starred : Bool} (h : (many1 (text "*")).Matches as)
    (cs : List Char) : commentOpen starred (as ++ cs) = commentOpen true cs := by
  obtain ⟨bs, ds, rfl, hb, hd⟩ := matches_append_iff.mp h
  rw [matches_text_iff.mp hb, List.append_assoc]
  show commentOpen starred ('*' :: (ds ++ cs)) = _
  simpa [commentOpen] using commentOpen_of_stars hd cs

/-- What the ranges do not have is none of their characters. -/
private theorem ne_of_noneOf {c d : Char} {rs : CharRanges} (hc : rs.contains c = false)
    (hd : rs.contains d = true) : c ≠ d := by
  intro heq
  rw [heq, hd] at hc
  cases hc

/-- Characters other than stars leave a comment open. -/
private theorem commentOpen_of_plain (h : (many (noneOf (.ofString "*"))).Matches as)
    (cs : List Char) : commentOpen false (as ++ cs) = commentOpen false cs := by
  apply h.many_induct (P := fun as => commentOpen false (as ++ cs) = commentOpen false cs)
  · rfl
  · intro as bs ha hbs
    obtain ⟨c, hc, rfl⟩ := matches_noneOf_iff.mp ha
    show commentOpen false (c :: (bs ++ cs)) = _
    rw [commentOpen_cons (ne_of_noneOf hc (by decide)) (by simp), hbs]

/-- A block comment is closed by its last character, and not before. -/
theorem closed_of_comment (h : blockCommentPattern.Matches cs) : ∃ as, cs = '/' :: '*' :: as ∧
    commentOpen false as.dropLast = true ∧ commentOpen false as = false := by
  -- The two characters in front, the body up to its first stars, the rounds, and the closer.
  obtain ⟨_, _, rfl, h, hclose⟩ := matches_append_iff.mp h
  obtain ⟨_, rs, rfl, h, hrounds⟩ := matches_append_iff.mp h
  obtain ⟨_, ss, rfl, h, hstars⟩ := matches_append_iff.mp h
  obtain ⟨_, as, rfl, hopen, hplain⟩ := matches_append_iff.mp h
  -- After the first stars there is always one before what comes next.
  have hrounds (cs : List Char) : commentOpen true (rs ++ cs) = commentOpen true cs := by
    apply hrounds.many_induct (P := fun rs => commentOpen true (rs ++ cs) = commentOpen true cs)
    · rfl
    · intro ds es hd hes
      obtain ⟨_, ts, rfl, hd, ht⟩ := matches_append_iff.mp hd
      obtain ⟨_, bs, rfl, hone, hb⟩ := matches_append_iff.mp hd
      obtain ⟨c, hc, rfl⟩ := matches_noneOf_iff.mp hone
      rw [List.append_assoc, List.append_assoc, List.append_assoc]
      show commentOpen true (c :: (bs ++ (ts ++ (es ++ cs)))) = _
      rw [commentOpen_cons (ne_of_noneOf hc (by decide)) fun _ => ne_of_noneOf hc (by decide),
        commentOpen_of_plain hb, commentOpen_of_stars1 ht, hes]
  have hbody (cs : List Char) :
      commentOpen false (as ++ ss ++ rs ++ cs) = commentOpen true cs := by
    rw [List.append_assoc, List.append_assoc, commentOpen_of_plain hplain,
      commentOpen_of_stars1 hstars, hrounds]
  -- What is open without the last slash is closed with it.
  rw [matches_text_iff.mp hopen, matches_text_iff.mp hclose]
  refine ⟨as ++ ss ++ rs ++ ['/'], by simp, ?_, ?_⟩
  · rw [List.dropLast_concat, ← List.append_nil (as ++ ss ++ rs), hbody]
    rfl
  · rw [hbody]
    rfl

/-- A comment that does not end is open. -/
theorem open_of_unterminated (h : unterminatedCommentPattern.Matches cs) :
    ∃ as, cs = '/' :: '*' :: as ∧ commentOpen false as = true := by
  obtain ⟨_, ss, rfl, h, hstars⟩ := matches_append_iff.mp h
  obtain ⟨_, as, rfl, hopen, hrounds⟩ := matches_append_iff.mp h
  -- A round ends with a character that no slash closes.
  have hrounds (cs : List Char) : commentOpen false (as ++ cs) = commentOpen false cs := by
    apply hrounds.many_induct (P := fun as => commentOpen false (as ++ cs) = commentOpen false cs)
    · rfl
    · intro ds es hd hes
      -- A round is a character other than a star, or stars and then one that is no slash.
      obtain hd | hd := matches_or_iff.mp hd
      · obtain ⟨c, hc, rfl⟩ := matches_noneOf_iff.mp hd
        show commentOpen false (c :: (es ++ cs)) = _
        rw [commentOpen_cons (ne_of_noneOf hc (by decide)) (by simp), hes]
      · obtain ⟨ts, _, rfl, ht, hone⟩ := matches_append_iff.mp hd
        obtain ⟨c, hc, rfl⟩ := matches_noneOf_iff.mp hone
        rw [List.append_assoc, List.append_assoc, commentOpen_of_stars1 ht]
        show commentOpen true (c :: (es ++ cs)) = _
        rw [commentOpen_cons (ne_of_noneOf hc (by decide)) fun _ => ne_of_noneOf hc (by decide),
          hes]
  rw [matches_text_iff.mp hopen]
  refine ⟨as ++ ss, by simp, ?_⟩
  -- The stars at the end do not close it either.
  have hlast : commentOpen true ss = true := by
    have hsame := commentOpen_of_stars hstars []
    rw [List.append_nil] at hsame
    rw [hsame]
    rfl
  rw [hrounds]
  cases ss with
  | nil => rfl
  | cons c ss =>
    unfold commentOpen at hlast ⊢
    rw [Bool.and_eq_true] at hlast
    simpa using hlast.2

end

/-! ## Entries -/

/-- With a quote begin the literals that stand between two of them, complete or not. -/
theorem entries_of_quote : ∀ e ∈ entries,
    (e.2.firsts.any (·.contains '\x27') = true →
      e = (.singleQuoted, stringPattern "\x27" lineBreaks) ∨
        e = (.malformedString, malformedPattern "\x27" lineBreaks)) ∧
    (e.2.firsts.any (·.contains '\x22') = true →
      e = (.doubleQuoted, stringPattern "\"" lineBreaks) ∨
        e = (.malformedString, malformedPattern "\"" lineBreaks)) ∧
    (e.2.firsts.any (·.contains '\x60') = true →
      e = (.backQuoted, stringPattern "\x60" []) ∨
        e = (.malformedString, malformedPattern "\x60" [])) := by decide

/-- With `/*` begin block comments, complete or not, and with `//` comments that end with the
    line. -/
theorem entries_of_slash : ∀ e ∈ entries,
    ((e.2.residual '/').firsts.any (·.contains '*') = true →
      e = (.blockComment, blockCommentPattern) ∨
        e = (.unterminatedComment, unterminatedCommentPattern)) ∧
    ((e.2.residual '/').firsts.any (·.contains '/') = true →
      (e.1 = .docComment ∨ e.1 = .lineComment) ∧ e.2.classes.all (!·.contains '\n') = true) := by
  decide

/-- Among the texts with blanks are white space, literals and comments. -/
private theorem entries_of_blank : ∀ e ∈ entries,
    e.2.classes.any (fun k => k.contains ' ' || k.contains '\n') = true →
      e.1 = .whitespace ∨
      e.2.firsts = [.among [(0x27, 0x27)]] ∨ e.2.firsts = [.among [(0x22, 0x22)]] ∨
      e.2.firsts = [.among [(0x60, 0x60)]] ∨
      e.2.firsts = [.among [(0x2f, 0x2f)]] ∧ ((e.2.residual '/').firsts = [.among [(0x2f, 0x2f)]] ∨
        (e.2.residual '/').firsts = [.among [(0x2a, 0x2a)]]) := by decide

/-- Only white space begins with a blank. -/
private theorem entries_of_whitespace : ∀ e ∈ entries,
    (e.1 = .whitespace → e.2 = many1 (oneOf Text.blankRanges)) ∧
    (e.1 ≠ .whitespace → e.2.firsts.all
      (fun k => !k.negated && k.ranges.all fun r => 33 ≤ r.1 && r.2 ≤ 126) = true) := by
  decide

section

variable {k : Kind} {p : Pattern} {as cs : List Char}

/-- A text that matches begins with one of the first characters. -/
theorem any_firsts {c : Char} (h : p.Matches (c :: cs)) :
    p.firsts.any (·.contains c) = true := by
  obtain ⟨x, hx, hcontains⟩ := h.mem_firsts
  exact List.any_eq_true.mpr ⟨x, hx, hcontains⟩

/-- What begins with a quote is open up to its last character, and if it is no error then closed by
    that. -/
theorem literal_of_quote {q : Char} (hq : IsQuote q) (hmem : (k, p) ∈ entries)
    (h : p.Matches (q :: as)) : literalOpen q false as.dropLast = true ∧
      (k.isLexError = false → literalOpen q false as = false) := by
  have hfirst := any_firsts h
  obtain ⟨hsingle, hdouble, hback⟩ := entries_of_quote _ hmem
  -- Each quote has one entry for the literal and one for the malformed one.
  have hentry : ∃ kind quote barred, quote.toList = [q] ∧
      ((k, p) = (kind, stringPattern quote barred) ∨
        (k, p) = (.malformedString, malformedPattern quote barred)) := by
    obtain rfl | rfl | rfl := hq
    · exact ⟨_, _, _, rfl, hsingle hfirst⟩
    · exact ⟨_, _, _, rfl, hdouble hfirst⟩
    · exact ⟨_, _, _, rfl, hback hfirst⟩
  obtain ⟨kind, quote, barred, hquote, heq | heq⟩ := hentry
  · cases heq
    obtain ⟨bs, hbs, hopen, hclosed⟩ := closed_of_string hq hquote h
    cases hbs
    exact ⟨hopen, fun _ => hclosed⟩
  · cases heq
    obtain ⟨bs, hbs, hopen⟩ := open_of_malformed hquote h
    cases hbs
    exact ⟨hopen, fun hclean => by cases hclean⟩

/-- A block comment is open up to its last character, and if it is no error then closed by that. -/
theorem comment_of_slash (hmem : (k, p) ∈ entries) (h : p.Matches ('/' :: '*' :: as)) :
    commentOpen false as.dropLast = true ∧
      (k.isLexError = false → commentOpen false as = false) := by
  have hfirst := any_firsts (matches_residual_iff.mpr h)
  obtain heq | heq := (entries_of_slash _ hmem).1 hfirst
  · cases heq
    obtain ⟨bs, hbs, hopen, hclosed⟩ := closed_of_comment h
    cases hbs
    exact ⟨hopen, fun _ => hclosed⟩
  · cases heq
    obtain ⟨bs, hbs, hopen⟩ := open_of_unterminated h
    cases hbs
    exact ⟨commentOpen_mono hopen (List.dropLast_prefix _), fun hclean => by cases hclean⟩

/-- What begins with two slashes is a comment, and does not reach beyond its line. -/
theorem comment_of_line (hmem : (k, p) ∈ entries) (h : p.Matches ('/' :: '/' :: as)) :
    (k = .docComment ∨ k = .lineComment) ∧ '\n' ∉ '/' :: '/' :: as := by
  have hfirst := any_firsts (matches_residual_iff.mpr h)
  obtain ⟨hkind, hclasses⟩ := (entries_of_slash _ hmem).2 hfirst
  refine ⟨hkind, fun hbreak => ?_⟩
  obtain ⟨x, hx, hcontains⟩ := h.mem_classes hbreak
  have hnot := List.all_eq_true.mp hclasses x hx
  rw [hcontains] at hnot
  cases hnot

/-- A text with a blank in it is white space, a literal or a comment. -/
private theorem starts_of_blank (hmem : (k, p) ∈ entries) (h : p.Matches cs) {b : Char}
    (hb : b = ' ' ∨ b = '\n') (hin : b ∈ cs) :
    k = .whitespace ∨ (∃ q as, IsQuote q ∧ cs = q :: as) ∨ (∃ as, cs = '/' :: '/' :: as) ∨
      ∃ as, cs = '/' :: '*' :: as := by
  -- The pattern can read the blank.
  have hclasses : p.classes.any (fun k => k.contains ' ' || k.contains '\n') = true := by
    obtain ⟨x, hx, hcontains⟩ := h.mem_classes hin
    refine List.any_eq_true.mpr ⟨x, hx, ?_⟩
    obtain rfl | rfl := hb <;> simp [hcontains]
  cases cs with
  | nil => cases hin
  | cons c as =>
    obtain ⟨x, hx, hcontains⟩ := h.mem_firsts
    -- Of the patterns that can, each tells how its texts begin.
    obtain hkind | hfirsts | hfirsts | hfirsts | ⟨hfirsts, hsecond⟩ :=
      entries_of_blank _ hmem hclasses
    -- White space, a literal in one of the three quotes, or a comment.
    · exact .inl hkind
    all_goals
      simp only at hfirsts
      rw [hfirsts, List.mem_singleton] at hx
      subst hx
    · exact .inr (.inl ⟨c, as, .inl (CharClass.contains_single_iff.mp hcontains), rfl⟩)
    · exact .inr (.inl ⟨c, as, .inr (.inl (CharClass.contains_single_iff.mp hcontains)), rfl⟩)
    · exact .inr (.inl ⟨c, as, .inr (.inr (CharClass.contains_single_iff.mp hcontains)), rfl⟩)
    · obtain rfl : c = '/' := CharClass.contains_single_iff.mp hcontains
      cases as with
      | nil =>
        -- A slash alone is no blank.
        obtain rfl := List.mem_singleton.mp hin
        obtain hb | hb := hb <;> cases hb
      | cons d as =>
        obtain ⟨y, hy, hcontains⟩ := (matches_residual_iff.mpr h).mem_firsts
        simp only at hsecond
        obtain hsecond | hsecond := hsecond <;>
          rw [hsecond, List.mem_singleton] at hy <;> subst hy
        · obtain rfl : d = '/' := CharClass.contains_single_iff.mp hcontains
          exact .inr (.inr (.inl ⟨as, rfl⟩))
        · obtain rfl : d = '*' := CharClass.contains_single_iff.mp hcontains
          exact .inr (.inr (.inr ⟨as, rfl⟩))

end

/-! ## What runs on -/

/-- The kind of entry that longest match found, with the text it found. -/
theorem exists_text {cs rest : List Char} {k : Kind} {n : Nat}
    (h : munch entries (cs ++ rest) = some (k, n)) (hlong : cs.length < n) :
    ∃ p r rs, (k, p) ∈ entries ∧ p.Matches (cs ++ r :: rs) ∧ r :: rs <+: rest := by
  obtain ⟨p, as, bs, hmem, hp, heq, rfl⟩ := munch_matches h
  obtain ⟨ts, hts⟩ : cs <+: as := by
    apply List.prefix_of_prefix_length_le (List.prefix_append cs rest)
    · exact heq ▸ List.prefix_append as bs
    · omega
  subst hts
  rw [List.append_assoc] at heq
  -- The match is no shorter than the prefix, so it goes on behind it.
  have hrest := List.append_cancel_left heq
  cases ts with
  | nil =>
    rw [List.append_nil] at hlong
    omega
  | cons r rs => exact ⟨p, r, rs, hmem, hp, bs, hrest.symm⟩

/-- All characters of white space are blank. -/
theorem isBlank_of_whitespace {p : Pattern} (hmem : (.whitespace, p) ∈ entries) {cs : List Char}
    (h : p.Matches cs) {c : Char} (hc : c ∈ cs) : Text.isBlank c = true := by
  obtain rfl : p = many1 (oneOf Text.blankRanges) := (entries_of_whitespace _ hmem).1 rfl
  obtain ⟨k, hk, hcontains⟩ := h.mem_classes hc
  have hblank : k ∈ [CharClass.among Text.blankRanges, .among Text.blankRanges] := hk
  obtain rfl : k = .among Text.blankRanges := by simpa using hblank
  rwa [CharClass.contains_among] at hcontains

/-- Only white space begins with a blank. -/
theorem whitespace_of_blank {k : Kind} {p : Pattern} (hmem : (k, p) ∈ entries) {c : Char}
    {cs : List Char} (h : p.Matches (c :: cs)) (hc : Text.isBlank c = true) : k = .whitespace := by
  apply Classical.byContradiction
  intro hkind
  obtain ⟨x, hx, hcontains⟩ := h.mem_firsts
  have hbounds := List.all_eq_true.mp ((entries_of_whitespace _ hmem).2 hkind) x hx
  obtain ⟨negated, ranges⟩ := x
  simp only [Bool.and_eq_true, Bool.not_eq_true', List.all_eq_true, decide_eq_true_eq] at hbounds
  obtain ⟨rfl, hranges⟩ := hbounds
  obtain ⟨r, hr, hin⟩ : ∃ r ∈ ranges, r.1 ≤ c.toNat ∧ c.toNat ≤ r.2 := by
    simpa [CharClass.contains, CharRanges.contains] using hcontains
  have hle := hranges r hr
  -- All other entries begin with a visible character of the first 128.
  simp only [Text.isBlank, Text.blankRanges, CharRanges.contains, List.any_cons, List.any_nil,
    Bool.or_false, Bool.or_eq_true, Bool.and_eq_true, decide_eq_true_eq] at hc
  omega

/-- Blank characters are white space. -/
theorem matches_whitespace {cs : List Char} (hne : cs ≠ [])
    (h : ∀ c ∈ cs, Text.isBlank c = true) : (many1 (oneOf Text.blankRanges)).Matches cs := by
  -- One blank at least, then any number.
  have hmany (cs : List Char) (h : ∀ c ∈ cs, Text.isBlank c = true) :
      (many (oneOf Text.blankRanges)).Matches cs := by
    induction cs with
    | nil => exact .zero
    | cons c cs ih =>
      have hc : (oneOf Text.blankRanges).Matches [c] :=
        matches_oneOf_iff.mpr ⟨c, h c List.mem_cons_self, rfl⟩
      exact .more hc (ih fun d hd => h d (List.mem_cons_of_mem c hd))
  cases cs with
  | nil => exact absurd rfl hne
  | cons c cs =>
    have hc : (oneOf Text.blankRanges).Matches [c] :=
      matches_oneOf_iff.mpr ⟨c, h c List.mem_cons_self, rfl⟩
    exact .seq hc (hmany cs fun d hd => h d (List.mem_cons_of_mem c hd))

/-- The two characters that open a comment are not cut apart, and no blank stands between them. -/
private theorem opens_of_longest {piece : Piece} {tail as rs : List Char} {b d : Char}
    (hb : b = ' ' ∨ b = '\n') (hleads : piece.Leads tail) {e : Kind × Pattern} (he : e ∈ entries)
    (hopen : e.2.Matches ['/', d]) (hd : d ≠ b)
    (heq : piece.chars ++ tail ++ b :: rs = '/' :: d :: as) :
    ∃ bs, piece.chars = '/' :: d :: bs ∧ as = bs ++ (tail ++ b :: rs) := by
  -- The text shows two characters, else `b` or `rest` would have to stand in for one of them.
  obtain ⟨ds, hds⟩ : ∃ ds, piece.chars ++ tail = '/' :: d :: ds := by
    match hcs : piece.chars ++ tail with
    | [] =>
      rw [hcs] at heq
      have hslash : b = '/' := (List.cons.inj heq).1
      obtain rfl | rfl := hb <;> cases hslash
    | [c] =>
      rw [hcs] at heq
      exact absurd (List.cons.inj (List.cons.inj heq).2).1.symm hd
    | c :: c' :: ds =>
      rw [hcs] at heq
      cases heq
      exact ⟨ds, rfl⟩
  -- Longest match finds at least the two characters.
  obtain ⟨k, n, hmunch, hle⟩ := munch_longest he hopen (by simp) ds
  have hn : n = piece.chars.length := by
    unfold Piece.Leads at hleads
    rw [hds] at hleads
    obtain hleads | ⟨hnone, -, -⟩ := hleads
    · have hsame : some (k, n) = some (piece.kind, piece.chars.length) := hmunch.symm.trans hleads
      cases hsame
      rfl
    · have hsome : some (k, n) = none := hmunch.symm.trans hnone
      cases hsome
  -- So the piece has both of them.
  match hchars : piece.chars with
  | [] => simp [hn, hchars] at hle
  | [c] => simp [hn, hchars] at hle
  | c :: c' :: bs =>
    rw [hchars] at heq
    cases heq
    exact ⟨bs, rfl, by simp⟩

/-- A piece without errors that is no comment up to the end of the line is the start of no longer
    text across a blank: only white space goes on. -/
theorem blank_of_crossing {piece : Piece} {tail rest : List Char} {b : Char} {k : Kind} {n : Nat}
    (hb : b = ' ' ∨ b = '\n') (hleads : piece.Leads tail) (hclean : piece.kind.isLexError = false)
    (hcomment : b = '\n' ∨ piece.kind ≠ .docComment ∧ piece.kind ≠ .lineComment)
    (h : munch entries (piece.chars ++ tail ++ b :: rest) = some (k, n))
    (hlong : (piece.chars ++ tail).length < n) :
    ∀ c ∈ piece.chars ++ tail, Text.isBlank c = true := by
  -- The longer match reads on over the blank.
  obtain ⟨p, r, rs, hmem, hp, hstart⟩ := exists_text h hlong
  obtain rfl : r = b := (List.cons_prefix_cons.mp hstart).1
  have hgarbage : piece.kind ≠ .garbage := by
    intro heq
    rw [heq] at hclean
    cases hclean
  obtain ⟨q, hmem', hq⟩ := hleads.matches hgarbage
  obtain hkind | ⟨c, as, hquote, heq⟩ | ⟨as, heq⟩ | ⟨as, heq⟩ :=
    starts_of_blank hmem hp hb (by simp)
  -- White space reads blanks only.
  · subst hkind
    intro c hc
    exact isBlank_of_whitespace hmem hp (List.mem_append_left _ hc)
  · -- The literal was closed within the piece, so no longer text begins with it.
    exfalso
    obtain ⟨bs, hbs⟩ : ∃ bs, piece.chars = c :: bs := by
      cases hchars : piece.chars with
      | nil =>
        have hpos := hleads.length_pos
        rw [hchars] at hpos
        cases hpos
      | cons d bs =>
        rw [hchars] at heq
        cases heq
        exact ⟨bs, rfl⟩
    rw [hbs] at hq hp
    have hclosed := (literal_of_quote hquote hmem' hq).2 hclean
    rw [List.cons_append, List.cons_append] at hp
    have hopen := (literal_of_quote hquote hmem hp).1
    rw [List.append_assoc, List.dropLast_append_of_ne_nil (by simp)] at hopen
    rw [literalOpen_mono hopen (List.prefix_append _ _)] at hclosed
    cases hclosed
  -- A line comment goes on behind a blank, but it was to be none.
  · exfalso
    have hopening : (linePattern "//").Matches ['/', '/'] := .seq (matches_text_iff.mpr rfl) .zero
    obtain ⟨bs, hbs, rfl⟩ := opens_of_longest hb hleads (e := (.lineComment, linePattern "//"))
      (by decide) hopening (by obtain rfl | rfl := hb <;> decide) heq
    rw [hbs] at hq
    obtain ⟨hkind, -⟩ := comment_of_line hmem' hq
    obtain rfl | ⟨hdoc, hline⟩ := hcomment
    · rw [heq] at hp
      exact (comment_of_line hmem hp).2 (by simp)
    · exact hkind.elim hdoc hline
  -- A comment between stars was closed within the piece, so none reads on.
  · exfalso
    have hopening : unterminatedCommentPattern.Matches ['/', '*'] :=
      .seq (.seq (matches_text_iff.mpr rfl) .zero) .zero
    obtain ⟨bs, hbs, rfl⟩ := opens_of_longest hb hleads
      (e := (.unterminatedComment, unterminatedCommentPattern)) (by decide) hopening
      (by obtain rfl | rfl := hb <;> decide) heq
    rw [hbs] at hq
    have hclosed := (comment_of_slash hmem' hq).2 hclean
    rw [heq] at hp
    have hopen := (comment_of_slash hmem hp).1
    rw [List.dropLast_append_of_ne_nil (by simp)] at hopen
    rw [commentOpen_mono hopen (List.prefix_append _ _)] at hclosed
    cases hclosed

end Lexicon

end ScriptTree
