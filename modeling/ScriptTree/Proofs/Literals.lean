import ScriptTree.Proofs.SignSplit

/-!
# Literals

Where a quote begins a token, the text decides what the token is: if some start of it is a complete
literal, with escapes that exist and the same quote at its end, the token is that literal, and there
is only one; if there is none, the literal is malformed.  The patterns overlap, but a longer token
than the complete literal would still be open where that one is closed.

## Key results

- `Lexicon.matches_string_iff`: the pattern of literals describes the complete literals
- `Token.lex_literals`: which tokens that begin with a quote are complete
-/

namespace ScriptTree

namespace Lexicon

open Pattern

/-! ## Complete literals -/

/-- Is the character a hexadecimal digit? -/
def IsHexDigit (c : Char) : Prop :=
  c.isDigit = true ∨ ('a' ≤ c ∧ c ≤ 'f') ∨ ('A' ≤ c ∧ c ≤ 'F')

instance (c : Char) : Decidable (IsHexDigit c) := inferInstanceAs (Decidable (_ ∨ _ ∨ _))

/-- What a literal between two quotes `q` may have after a backslash. -/
inductive Escape (q : Char) : List Char → Prop where
  | letter {c : Char} (h : c = q ∨ c ∈ "bfnrtv\\/".toList) : Escape q [c]
  | code {a b c d : Char} (ha : IsHexDigit a) (hb : IsHexDigit b) (hc : IsHexDigit c)
      (hd : IsHexDigit d) : Escape q ['u', a, b, c, d]

/-- What may stand between two quotes `q`.  Only back quotes may have line breaks between them. -/
inductive LiteralBody (q : Char) : List Char → Prop where
  | nil : LiteralBody q []
  | plain {c : Char} {cs : List Char} (hquote : c ≠ q) (hslash : c ≠ '\\')
      (hbreak : q ≠ '\x60' → c ≠ '\n' ∧ c ≠ '\r') (h : LiteralBody q cs) : LiteralBody q (c :: cs)
  | escape {es cs : List Char} (he : Escape q es) (h : LiteralBody q cs) :
      LiteralBody q ('\\' :: (es ++ cs))

/-- A complete literal between two quotes `q`. -/
def IsLiteral (q : Char) (cs : List Char) : Prop :=
  ∃ body, LiteralBody q body ∧ cs = q :: (body ++ [q])

/-- The kind of a complete literal. -/
def literalKind (q : Char) : Kind :=
  if q = '\x27' then .singleQuoted else if q = '\x22' then .doubleQuoted else .backQuoted

/-- A literal is no lexical error. -/
private theorem isLexError_literalKind (q : Char) : (literalKind q).isLexError = false := by
  unfold literalKind
  split
  · rfl
  · split <;> rfl

/-- Nothing is preferred to a literal of the same length. -/
private theorem not_outranks_literalKind (k : Kind) (q : Char) :
    k.outranks (literalKind q) = false := by
  unfold literalKind
  split
  · rfl
  · split <;> rfl

/-- The characters that a literal may not have. -/
def barredIn (q : Char) : CharRanges := if q = '\x60' then [] else lineBreaks

/-! ## The patterns of literals -/

/-- The pattern of a hexadecimal digit is right. -/
private theorem matches_hexDigit_iff {cs : List Char} :
    hexDigit.Matches cs ↔ ∃ c, IsHexDigit c ∧ cs = [c] := by
  have hbounds (lo hi c : Char) :
      (CharRanges.between lo hi).contains c = true ↔ lo ≤ c ∧ c ≤ hi := by
    simp [CharRanges.between, CharRanges.contains, Char.le_def, UInt32.le_iff_toNat_le]
  simp only [hexDigit, matches_oneOf_iff, CharRanges.contains_append, Bool.or_eq_true, hbounds,
    IsHexDigit, Char.isDigit, Bool.and_eq_true, decide_eq_true_eq, or_assoc, ge_iff_le]
  rfl

/-- The pattern of an escape is right. -/
private theorem matches_escape_iff {quote : String} {q : Char} (hquote : quote.toList = [q])
    {cs : List Char} :
    (oneOf (.ofString "bfnrtv\\/" ++ .ofString quote) |||
      (text "u" ++ hexDigit ++ hexDigit ++ hexDigit ++ hexDigit)).Matches cs ↔ Escape q cs := by
  -- An escape is one of the letters, or `u` and four hexadecimal digits.
  constructor
  · intro h
    obtain h | h := matches_or_iff.mp h
    · obtain ⟨c, hc, rfl⟩ := matches_oneOf_iff.mp h
      simp only [CharRanges.contains_append, CharRanges.contains_ofString, hquote,
        Bool.or_eq_true, List.contains_eq_mem, decide_eq_true_eq, List.mem_singleton] at hc
      exact .letter hc.symm
    · obtain ⟨_, _, rfl, hthree, h₄⟩ := matches_append_iff.mp h
      obtain ⟨_, _, rfl, htwo, h₃⟩ := matches_append_iff.mp hthree
      obtain ⟨_, _, rfl, hone, h₂⟩ := matches_append_iff.mp htwo
      obtain ⟨_, _, rfl, hu, h₁⟩ := matches_append_iff.mp hone
      obtain ⟨a, ha, rfl⟩ := matches_hexDigit_iff.mp h₁
      obtain ⟨b, hb, rfl⟩ := matches_hexDigit_iff.mp h₂
      obtain ⟨c, hc, rfl⟩ := matches_hexDigit_iff.mp h₃
      obtain ⟨d, hd, rfl⟩ := matches_hexDigit_iff.mp h₄
      rw [matches_text_iff.mp hu]
      exact .code ha hb hc hd
  · intro h
    cases h with
    | @letter c hc =>
      refine matches_or_iff.mpr (.inl (matches_oneOf_iff.mpr ⟨c, ?_, rfl⟩))
      simp only [CharRanges.contains_append, CharRanges.contains_ofString, hquote,
        Bool.or_eq_true, List.contains_eq_mem, decide_eq_true_eq, List.mem_singleton]
      exact hc.symm
    | @code a b c d ha hb hc hd =>
      have hdigit {c : Char} (hc : IsHexDigit c) : hexDigit.Matches [c] :=
        matches_hexDigit_iff.mpr ⟨c, hc, rfl⟩
      have hu : (text "u").Matches ['u'] := matches_text_iff.mpr rfl
      exact .right (.seq (.seq (.seq (.seq hu (hdigit ha)) (hdigit hb)) (hdigit hc)) (hdigit hd))

/-- What may stand in a literal as it is. -/
private theorem contains_barred_iff {quote : String} {q : Char} (hquote : quote.toList = [q])
    {c : Char} : CharRanges.contains (.ofString quote ++ .ofString "\\" ++ barredIn q) c = false ↔
      c ≠ q ∧ c ≠ '\\' ∧ (q ≠ '\x60' → c ≠ '\n' ∧ c ≠ '\r') := by
  have hbarred : (barredIn q).contains c = false ↔ (q ≠ '\x60' → c ≠ '\n' ∧ c ≠ '\r') := by
    unfold barredIn
    split
    · simp [CharRanges.contains, *]
    · simp [lineBreaks, and_comm, *]
  simp only [CharRanges.contains_append, CharRanges.contains_ofString, hquote,
    Bool.or_eq_false_iff, hbarred, and_assoc]
  simp

/-- The pattern of literals describes the complete literals. -/
theorem matches_string_iff {quote : String} {q : Char} (hquote : quote.toList = [q])
    {cs : List Char} : (stringPattern quote (barredIn q)).Matches cs ↔ IsLiteral q cs := by
  constructor
  -- The body is matched part by part: plain characters and escapes.
  · intro h
    obtain ⟨_, _, rfl, h, hclose⟩ := matches_append_iff.mp h
    obtain ⟨_, body, rfl, hopen, hbody⟩ := matches_append_iff.mp h
    rw [matches_text_iff.mp hopen, matches_text_iff.mp hclose, hquote]
    refine ⟨body, hbody.many_induct .nil fun as bs ha hbs => ?_, rfl⟩
    obtain ha | ha := matches_or_iff.mp ha
    · obtain ⟨c, hc, rfl⟩ := matches_noneOf_iff.mp ha
      obtain ⟨hne, hslash, hbreak⟩ := (contains_barred_iff hquote).mp hc
      exact .plain hne hslash hbreak hbs
    · obtain ⟨_, es, rfl, hslash, hes⟩ := matches_append_iff.mp ha
      rw [matches_text_iff.mp hslash]
      exact .escape ((matches_escape_iff hquote).mp hes) hbs
  -- Conversely, induction on the body.
  · rintro ⟨body, hbody, rfl⟩
    have hone : (text quote).Matches [q] := matches_text_iff.mpr hquote.symm
    refine matches_append_iff.mpr ⟨q :: body, [q], rfl, ?_, hone⟩
    refine matches_append_iff.mpr ⟨[q], body, rfl, hone, ?_⟩
    induction hbody with
    | nil => exact .zero
    | @plain c cs hne hslash hbreak _ ih =>
      have hc := matches_noneOf_iff.mpr
        ⟨c, (contains_barred_iff hquote).mpr ⟨hne, hslash, hbreak⟩, rfl⟩
      exact .more (.left hc) ih
    | @escape es cs hes _ ih =>
      have hslash : (text "\\").Matches ['\\'] := matches_text_iff.mpr rfl
      have hescape := Matches.seq hslash ((matches_escape_iff hquote).mpr hes)
      exact .more (.right hescape) ih

section

variable {q : Char}

/-- The pattern of the complete literals between two quotes `q`. -/
def literalPattern (q : Char) : Pattern := stringPattern (.singleton q) (barredIn q)

/-- The pattern of those that need not be complete. -/
def brokenPattern (q : Char) : Pattern := malformedPattern (.singleton q) (barredIn q)

/-- There is an entry for literals of each quote. -/
private theorem literalPattern_mem (hq : IsQuote q) :
    (literalKind q, literalPattern q) ∈ entries := by
  obtain rfl | rfl | rfl := hq <;> decide

/-- There is an entry for malformed literals of each quote. -/
private theorem brokenPattern_mem (hq : IsQuote q) :
    (.malformedString, brokenPattern q) ∈ entries := by
  obtain rfl | rfl | rfl := hq <;> decide

/-- Only literals begin with a quote. -/
private theorem eq_of_quote (hq : IsQuote q) {e : Kind × Pattern} (he : e ∈ entries)
    {cs : List Char} (h : e.2.Matches (q :: cs)) :
    e = (literalKind q, literalPattern q) ∨ e = (.malformedString, brokenPattern q) := by
  obtain ⟨hsingle, hdouble, hback⟩ := entries_of_quote e he
  have hfirst := any_firsts h
  obtain rfl | rfl | rfl := hq
  · exact hsingle hfirst
  · exact hdouble hfirst
  · exact hback hfirst

/-- A quote is a literal that does not end. -/
private theorem matches_broken_quote (q : Char) : (brokenPattern q).Matches [q] := by
  have hopen : (text (.singleton q)).Matches [q] := matches_text_iff.mpr (by simp)
  have hbody : (text (.singleton q) ++ many (noneOf (.ofString (.singleton q) ++ .ofString "\\" ++
      barredIn q) ||| (text "\\" ++ noneOf lineBreaks))).Matches [q] :=
    matches_append_iff.mpr ⟨[q], [], rfl, hopen, .zero⟩
  exact matches_append_iff.mpr ⟨[q], [], rfl, hbody, .right .nothing⟩

/-- No number has a quote. -/
private theorem number_of_quote (hq : IsQuote q) :
    numberPattern.classes.all (!·.contains q) = true := by
  obtain rfl | rfl | rfl := hq <;> decide

/-- Between single or double quotes there is no line break, even if the literal is malformed. -/
private theorem not_mem_of_broken (hq : IsQuote q) (hback : q ≠ '\x60') {cs : List Char}
    (h : (brokenPattern q).Matches cs) {c : Char} (hc : c = '\n' ∨ c = '\r') : c ∉ cs := by
  have hclasses : (brokenPattern q).classes.all
      (fun k => !k.contains '\n' && !k.contains '\r') = true := by
    obtain rfl | rfl | rfl := hq
    · decide
    · decide
    · exact absurd rfl hback
  intro hmem
  obtain ⟨k, hk, hcontains⟩ := h.mem_classes hmem
  have hnot := List.all_eq_true.mp hclasses k hk
  obtain rfl | rfl := hc <;> simp [hcontains] at hnot

/-- No text that begins with a complete literal is a longer token. -/
theorem IsLiteral.length_le {as bs : List Char} (h : IsLiteral q as) (hq : IsQuote q) {k : Kind}
    {p : Pattern} (hmem : (k, p) ∈ entries) (hmatch : p.Matches bs) (hstart : as <+: bs) :
    bs.length ≤ as.length := by
  by_contra hlt
  have hcomplete : (literalPattern q).Matches as := (matches_string_iff (by simp)).mpr h
  obtain ⟨body, -, rfl⟩ := h
  obtain ⟨tail, rfl⟩ := hstart
  have hclosed := (literal_of_quote hq (literalPattern_mem hq) hcomplete).2
    (isLexError_literalKind q)
  have hopen := (literal_of_quote hq hmem hmatch).1
  have hbefore : body ++ [q] <+: (body ++ [q] ++ tail).dropLast := by
    apply prefix_dropLast (List.prefix_append _ _)
    simp only [List.cons_append, List.length_cons] at hlt
    omega
  rw [literalOpen_mono hopen hbefore] at hclosed
  cases hclosed

end

end Lexicon

namespace Token

open Lexicon

/-- A token that begins with a quote is the complete literal that begins there, if there is one; no
    other start of the rest of the text is a complete literal.  If there is none, the token is a
    malformed literal, and on one line unless it stands between back quotes. -/
theorem lex_literals (source : String) (before : List Token) (t : Token) (after : List Token)
    (hsplit : lex source = before ++ t :: after) (q : Char) (hq : IsQuote q)
    (hfirst : t.text.toList.head? = some q) :
    (∀ cs, cs <+: (spelling (t :: after)).toList → IsLiteral q cs →
      t.text.toList = cs ∧ t.kind = literalKind q) ∧
    ((¬ ∃ cs, cs <+: (spelling (t :: after)).toList ∧ IsLiteral q cs) →
      t.kind = .malformedString ∧
        (q ≠ '\x60' → '\n' ∉ t.text.toList ∧ '\r' ∉ t.text.toList)) := by
  obtain ⟨as, hchars⟩ : ∃ as, t.text.toList = q :: as := List.head?_eq_some_iff.mp hfirst
  have hliteral {cs : List Char} : (literalPattern q).Matches cs ↔ IsLiteral q cs :=
    matches_string_iff (by simp)
  have hstart : [q] <+: t.text.toList ++ (spelling after).toList := by simp [hchars]
  -- The broken literal matches the quote alone, so the longest match starts with it.
  have hlongest := longest_of_lex hsplit hchars (number_of_quote hq) (brokenPattern_mem hq) hstart
    (matches_broken_quote q)
  rw [spelling_cons, String.toList_append, hchars]
  rw [hchars] at hlongest
  obtain ⟨⟨k, p⟩, hmem, hkind, hp⟩ := hlongest.described
  obtain rfl : k = t.kind := hkind
  constructor
  · intro cs hcs hcomplete
    have hmatch := hliteral.mpr hcomplete
    obtain hlt | ⟨rfl, hsame | houtranks⟩ :=
      hlongest.best _ (literalPattern_mem hq) cs hcs hmatch
    · -- A longer token would still be open where the literal is closed.
      have hbefore := List.prefix_of_prefix_length_le hcs (List.prefix_append _ _) hlt.le
      have := hcomplete.length_le hq hmem hp hbefore
      omega
    · exact ⟨rfl, hsame⟩
    · rw [not_outranks_literalKind] at houtranks
      cases houtranks
  · intro hnone
    -- Without a complete literal the token is the broken one.
    obtain heq | heq := eq_of_quote hq hmem hp
    · obtain ⟨-, rfl⟩ := Prod.mk.inj heq
      exact absurd ⟨_, List.prefix_append _ _, hliteral.mp hp⟩ hnone
    · obtain ⟨hkind, rfl⟩ := Prod.mk.inj heq
      exact ⟨hkind, fun hback => ⟨not_mem_of_broken hq hback hp (.inl rfl),
        not_mem_of_broken hq hback hp (.inr rfl)⟩⟩

/-- An escape that is none makes a literal malformed; a line break between back quotes does not. -/
theorem lex_literals_escape :
    lex "\x60\n\\u00e9\x60'\\x'" = [] ++ ⟨.backQuoted, "\x60\n\\u00e9\x60", 0, ⟨1, 1⟩⟩ ::
      [⟨.malformedString, "'\\x'", 9, ⟨2, 8⟩⟩] ∧
    (IsLiteral '\x60' "\x60\n\\u00e9\x60".toList ∧
      ∀ cs, cs <+: "\x60\n\\u00e9\x60'\\x'".toList → IsLiteral '\x60' cs →
        cs = "\x60\n\\u00e9\x60".toList) ∧
    ((¬ ∃ cs, cs <+: "'\\x'".toList ∧ IsLiteral '\x27' cs) ∧ '\n' ∉ "'\\x'".toList) := by
  have hlex : lex "\x60\n\\u00e9\x60'\\x'" =
      [] ++ ⟨.backQuoted, "\x60\n\\u00e9\x60", 0, ⟨1, 1⟩⟩ ::
        [⟨.malformedString, "'\\x'", 9, ⟨2, 8⟩⟩] := by
    decide +kernel
  -- The first literal has a line break and an escape with digits.
  have hcomplete : IsLiteral '\x60' "\x60\n\\u00e9\x60".toList := by
    refine ⟨['\n', '\\', 'u', '0', '0', 'e', '9'], .plain ?_ ?_ ?_ ?_, rfl⟩
    · decide
    · decide
    · decide
    · have hcode : Escape '\x60' ['u', '0', '0', 'e', '9'] :=
        .code (by decide) (by decide) (by decide) (by decide)
      exact .escape hcode .nil
  -- `x` is no letter of an escape, so the second literal is never closed.
  have hnone : ¬ ∃ cs, cs <+: "'\\x'".toList ∧ IsLiteral '\x27' cs := by
    rintro ⟨_, hcs, body, hbody, rfl⟩
    obtain ⟨-, hcs⟩ := List.cons_prefix_cons.mp hcs
    cases hbody with
    | nil => exact absurd hcs (by decide)
    | plain _ hslash _ _ => exact hslash (List.cons_prefix_cons.mp hcs).1
    | escape he _ =>
      obtain ⟨-, hcs⟩ := List.cons_prefix_cons.mp hcs
      cases he with
      | @letter c hc =>
        obtain ⟨rfl, -⟩ := List.cons_prefix_cons.mp hcs
        exact absurd hc (by decide)
      | code => exact absurd (List.cons_prefix_cons.mp hcs).1 (by decide)
  have hfirst := lex_literals _ [] _ _ hlex '\x60' (.inr (.inr rfl)) (by decide)
  have hsecond := lex_literals _ [_] _ [] hlex '\x27' (.inl rfl) (by decide)
  have hspelled : spelling [⟨.malformedString, "'\\x'", 9, ⟨2, 8⟩⟩] = "'\\x'" := by decide +kernel
  refine ⟨hlex, ⟨hcomplete, fun cs hcs hliteral => ?_⟩, hnone, ?_⟩
  · exact (hfirst.1 cs hcs hliteral).1.symm
  · rw [hspelled] at hsecond
    exact ((hsecond.2 hnone).2 (by decide)).1

end Token

end ScriptTree
