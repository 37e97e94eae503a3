import ScriptTree.Proofs.Comments

/-!
# Texts without a token

A text has no token that the grammar sees, and no lexical error, if and only if it consists of white
space, of comments up to the end of their line and of block comments that end.  Longest match cuts
such a text just between them: white space may be more than one character, but no comment runs on,
neither across the end of its line nor behind the first `*/`.

## Key results

- `Piece.exists_leads`: a text of an entry that no entry has a longer one than is a piece
- `Token.tokenize_eq_nil_iff`: which texts have no tokens
-/

namespace ScriptTree

namespace Lexicon

open Pattern

/-- White space, comments up to the end of their line and block comments that end, one after the
    other. -/
inductive IsTrivia : List Char → Prop where
  | nil : IsTrivia []
  | blank {c : Char} {cs : List Char} (hc : Text.isBlank c = true) (h : IsTrivia cs) :
      IsTrivia (c :: cs)
  | line {as cs : List Char} (has : '\n' ∉ as) (hend : cs = [] ∨ cs.head? = some '\n')
      (h : IsTrivia cs) : IsTrivia ('/' :: '/' :: (as ++ cs))
  | block {as cs : List Char} (has : EndsComment as) (h : IsTrivia cs) :
      IsTrivia ('/' :: '*' :: (as ++ cs))

/-- Blanks in front of trivia are trivia. -/
private theorem IsTrivia.blanks {bs cs : List Char} (hbs : ∀ c ∈ bs, Text.isBlank c = true)
    (h : IsTrivia cs) : IsTrivia (bs ++ cs) := by
  induction bs with
  | nil => exact h
  | cons b bs ih =>
    obtain ⟨hb, hbs⟩ := List.forall_mem_cons.mp hbs
    exact .blank hb (ih hbs)

/-- The entries that the grammar never sees and that are no errors. -/
private theorem entries_of_trivia : ∀ e ∈ entries, e.1.isTrivia = true →
    e = (.whitespace, many1 (oneOf Text.blankRanges)) ∨ e = (.docComment, linePattern "///") ∨
      e = (.lineComment, linePattern "//") ∨ e = (.blockComment, blockCommentPattern) := by
  decide

/-- The pattern of a line describes what begins it and all up to its end. -/
private theorem matches_line_iff {opening : String} {cs : List Char} :
    (linePattern opening).Matches cs ↔ ∃ as, cs = opening.toList ++ as ∧ '\n' ∉ as := by
  constructor
  -- The characters behind the opening are matched one by one.
  · intro h
    obtain ⟨_, as, rfl, hopening, has⟩ := matches_append_iff.mp h
    rw [matches_text_iff.mp hopening]
    refine ⟨as, rfl, has.many_induct (P := ('\n' ∉ ·)) List.not_mem_nil ?_⟩
    intro bs cs hbs hcs
    obtain ⟨c, hc, rfl⟩ := matches_noneOf_iff.mp hbs
    rw [List.singleton_append, List.mem_cons, not_or]
    refine ⟨?_, hcs⟩
    rintro rfl
    exact absurd hc (by decide)
  · rintro ⟨as, rfl, has⟩
    refine .seq (matches_text_iff.mpr rfl) ?_
    -- Conversely, each character is none that ends a line.
    induction as with
    | nil => exact .zero
    | cons c as ih =>
      rw [List.mem_cons, not_or] at has
      obtain ⟨hc, has⟩ := has
      have hone : (noneOf (.ofString "\n")).Matches [c] :=
        matches_noneOf_iff.mpr ⟨c, by simpa using Ne.symm hc, rfl⟩
      exact .more hone (ih has)

end Lexicon

namespace Piece

open Lexicon

/-- A piece that leads a text is the longest match. -/
theorem Leads.longest {p : Piece} {rest : List Char} (h : p.Leads rest)
    (hkind : p.kind ≠ .garbage) : Longest p.kind p.chars rest := by
  obtain h | ⟨-, hgarbage, -⟩ := h
  · exact longest_of_munch h
  · exact absurd hgarbage hkind

/-- If no entry has a longer text here than this one, the text is a piece. -/
theorem exists_leads {e : Kind × Pattern} (he : e ∈ entries) {as rest : List Char}
    (hmatch : e.2.Matches as) (hbest : ∀ e' ∈ entries, ∀ r rs, r :: rs <+: rest →
      ¬ e'.2.Matches (as ++ r :: rs)) :
    ∃ k p, (k, p) ∈ entries ∧ p.Matches as ∧ (⟨k, as⟩ : Piece).Leads rest := by
  have hne : as ≠ [] := by
    rintro rfl
    exact not_matches_nil e he hmatch
  obtain ⟨k, n, hmunch, hle⟩ := Pattern.munch_longest he hmatch hne rest
  obtain hlt | rfl := Nat.lt_or_eq_of_le hle
  · obtain ⟨p, r, rs, hmem, hp, hrest⟩ := exists_text hmunch hlt
    exact absurd hp (hbest _ hmem r rs hrest)
  · obtain ⟨p, bs, tail, hmem, hp, heq, hlength⟩ := Pattern.munch_matches hmunch
    obtain ⟨rfl, -⟩ := List.append_inj heq hlength
    exact ⟨k, p, hmem, hp, .inl hmunch⟩

/-- The grammar sees nothing of the pieces, and none is an error. -/
def AllTrivia (ps : List Piece) : Prop := ∀ p ∈ ps, p.kind.isTrivia = true

/-- Pieces are trivia if they are clean and none of them is seen. -/
private theorem allTrivia_iff {ps : List Piece} : AllTrivia ps ↔ Clean ps ∧ seen ps = [] := by
  simp only [AllTrivia, Clean, seen, List.filter_eq_nil_iff, Kind.isSkipped, Bool.not_eq_true',
    Bool.not_eq_false, Bool.or_eq_true]
  constructor
  · intro h
    refine ⟨fun p hp => ?_, fun p hp => .inl (h p hp)⟩
    have hp := h p hp
    revert hp
    cases p.kind <;> decide
  · rintro ⟨hclean, hskipped⟩ p hp
    exact (hskipped p hp).resolve_right (by simp [hclean p hp])

/-- Pieces are trivia one by one. -/
private theorem allTrivia_cons {p : Piece} {ps : List Piece} :
    AllTrivia (p :: ps) ↔ p.kind.isTrivia = true ∧ AllTrivia ps := List.forall_mem_cons

/-- A text of which the grammar sees nothing consists of white space and comments. -/
private theorem isTrivia_of_scan {cs : List Char} (h : AllTrivia (scan cs)) : IsTrivia cs := by
  generalize hps : scan cs = ps at h
  -- Induction on the pieces: the first one is trivia, and so is what follows.
  induction ps generalizing cs with
  | nil =>
    obtain rfl : cs = [] := by rw [← spell_scan cs, hps]; rfl
    exact .nil
  | cons p ps ih =>
    obtain ⟨tail, rfl, hleads, htail⟩ := scan_eq_cons hps
    obtain ⟨hp, hall⟩ := allTrivia_cons.mp h
    have hrest := ih htail hall
    have hgarbage : p.kind ≠ .garbage := by
      intro hkind
      rw [hkind] at hp
      cases hp
    obtain ⟨q, hmem, hq⟩ := hleads.matches hgarbage
    -- A comment that ends with its line ends there only, or it would be longer.
    have hline (hq : (linePattern "//").Matches p.chars) : IsTrivia (p.chars ++ tail) := by
      obtain ⟨as, hchars, has⟩ := matches_line_iff.mp hq
      have hend : tail = [] ∨ tail.head? = some '\n' := by
        cases tail with
        | nil => exact .inl rfl
        | cons c cs =>
          by_contra hne
          have hc : '\n' ≠ c := by
            rintro rfl
            exact hne (.inr rfl)
          obtain hlt | ⟨heq, -⟩ := (hleads.longest hgarbage).best (.lineComment, linePattern "//")
            (by decide) (p.chars ++ [c]) (by simp)
            (matches_line_iff.mpr ⟨as ++ [c], by rw [hchars, List.append_assoc], by simp [has, hc]⟩)
          · simp at hlt
          · simp at heq
      rw [hchars]
      exact .line has hend hrest
    -- White space, a comment for documentation, one to the end of its line, or one between stars.
    obtain heq | heq | heq | heq := entries_of_trivia _ hmem hp
    · obtain ⟨hkind, rfl⟩ := Prod.mk.inj heq
      rw [hkind] at hmem
      exact hrest.blanks fun c hc => isBlank_of_whitespace hmem hq hc
    · obtain ⟨-, rfl⟩ := Prod.mk.inj heq
      obtain ⟨as, hchars, has⟩ := matches_line_iff.mp hq
      exact hline (matches_line_iff.mpr ⟨'/' :: as, hchars, by simp [has]⟩)
    · obtain ⟨-, rfl⟩ := Prod.mk.inj heq
      exact hline hq
    · obtain ⟨-, rfl⟩ := Prod.mk.inj heq
      obtain ⟨as, hchars, has⟩ := matches_comment_iff.mp hq
      rw [hchars]
      exact .block has hrest

/-- The grammar sees nothing of white space and comments. -/
private theorem allTrivia_scan {cs : List Char} (h : IsTrivia cs) : AllTrivia (scan cs) := by
  -- Induction on the trivia: each part is scanned as one piece, of the blanks as many as there are.
  induction h with
  | nil =>
    rw [scan]
    intro p hp
    cases hp
  -- Blanks in front are scanned along with those that follow.
  | @blank c cs hc h ih =>
    have hdrop := scan_dropWhile (c :: cs)
    have hdrop' := scan_dropWhile cs
    rw [allTrivia_iff] at ih ⊢
    rw [List.dropWhile_cons_of_pos hc] at hdrop
    rw [hdrop.1, hdrop.2, ← hdrop'.1, ← hdrop'.2]
    exact ih
  -- A line comment ends with its line.
  | @line as cs has hend h ih =>
    have hmatch : (linePattern "//").Matches ('/' :: '/' :: as) :=
      matches_line_iff.mpr ⟨as, rfl, has⟩
    have hbest : ∀ e ∈ entries, ∀ r rs, r :: rs <+: cs →
        ¬ e.2.Matches ('/' :: '/' :: as ++ r :: rs) := by
      rintro ⟨k, p⟩ hmem r rs hrest hp
      obtain rfl | hhead := hend
      · cases List.prefix_nil.mp hrest
      · obtain ⟨tail, rfl⟩ := hrest
        cases hhead
        exact (comment_of_line hmem hp).2 (by simp)
    obtain ⟨k, p, hmem, hp, hleads⟩ :=
      exists_leads (e := (.lineComment, linePattern "//")) (by decide) hmatch hbest
    have hscan := scan_chars_append hleads
    rw [List.cons_append, List.cons_append] at hscan
    rw [hscan, allTrivia_cons]
    refine ⟨?_, ih⟩
    obtain rfl | rfl := (comment_of_line hmem hp).1
    · rfl
    · rfl
  -- A comment between stars ends with the first closer.
  | @block as cs has h ih =>
    have hmatch : blockCommentPattern.Matches ('/' :: '*' :: as) :=
      matches_comment_iff.mpr ⟨as, rfl, has⟩
    have hbest : ∀ e ∈ entries, ∀ r rs, r :: rs <+: cs →
        ¬ e.2.Matches ('/' :: '*' :: as ++ r :: rs) := by
      rintro ⟨k, p⟩ hmem r rs - hp
      have hle := has.length_le hmem hp (List.prefix_append as (r :: rs))
      simp at hle
    obtain ⟨k, p, hmem, hp, hleads⟩ :=
      exists_leads (e := (.blockComment, blockCommentPattern)) (by decide) hmatch hbest
    have hscan := scan_chars_append hleads
    rw [List.cons_append, List.cons_append] at hscan
    rw [hscan, allTrivia_cons]
    refine ⟨?_, ih⟩
    -- The longest match is the comment, or one that is not terminated.
    obtain heq | heq :=
      (entries_of_slash _ hmem).1 (any_firsts (Pattern.matches_residual_iff.mpr hp))
    · cases heq
      rfl
    · -- One that does not end has no end in it.
      cases heq
      obtain ⟨bs, hbs, hnone⟩ := matches_unterminated_iff.mp hp
      cases hbs
      exact absurd has.ends.isInfix hnone

end Piece

namespace Token

open Lexicon

/-- A text has no tokens and no lexical errors if and only if it is white space and comments. -/
theorem tokenize_eq_nil_iff (source : String) :
    tokenize source = ([], []) ↔ IsTrivia source.toList := by
  have htrivia : IsTrivia source.toList ↔ Piece.AllTrivia (Piece.scan source.toList) :=
    ⟨Piece.allTrivia_scan, Piece.isTrivia_of_scan⟩
  -- Nothing is reported just when no piece has an error.
  have hdiagnostics : lexDiagnostics (lex source) = [] ↔ Clean (lex source) := by
    simp [lexDiagnostics, Clean, List.filter_eq_nil_iff]
  rw [htrivia, Piece.allTrivia_iff, ← clean_lex_iff]
  unfold tokenize
  rw [Prod.mk.injEq, hdiagnostics, and_comm]
  refine and_congr_right fun hclean => ?_
  have hlabels := sourceLabels_eq hclean
  unfold sourceLabels at hlabels
  -- No token is significant just when no piece is.
  have hnil : significant (lex source) = [] ↔
      (significant (lex source)).map Token.label = [] := List.map_eq_nil_iff.symm
  rw [hnil, hlabels, List.map_eq_nil_iff]
  cases Piece.seen (Piece.scan source.toList) with
  | nil => exact iff_of_true rfl rfl
  -- A significant piece leaves a significant token, cut or not.
  | cons p ps =>
    refine iff_of_false ?_ (by simp)
    unfold Piece.splitSigns
    dsimp only
    split
    · simp
    · simp

end Token

end ScriptTree
