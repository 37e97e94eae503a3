import ScriptTree.Proofs.Crossings
import ScriptTree.Proofs.Signs

/-!
# Texts that are put together

A text without lexical errors, a line break and another such text have the tokens of the one and
then those of the other, as far as the grammar sees them.  The lexer knows one thing about what came
before: whether it ends an operand, since a `-` after that is no sign.  So the first text has to end
with something else.

## Key results

- `Piece.seen_scan_append`: the pieces of two texts with a blank in between
- `sourceLabels_append`: the significant tokens of two texts with a line break in between
-/

namespace ScriptTree

namespace Piece

/-- No piece is a lexical error. -/
def Clean (ps : List Piece) : Prop := ∀ p ∈ ps, p.kind.isLexError = false

/-- The pieces that the grammar sees. -/
def seen (ps : List Piece) : List Piece := ps.filter (!·.kind.isSkipped)

/-- Without pieces there are no errors. -/
@[simp] theorem clean_nil : Clean [] := fun _ h => nomatch h

/-- Pieces are clean one by one. -/
@[simp] theorem clean_cons {p : Piece} {ps : List Piece} :
    Clean (p :: ps) ↔ p.kind.isLexError = false ∧ Clean ps := List.forall_mem_cons

/-- Two lists of pieces are clean if each is. -/
@[simp] theorem clean_append {ps qs : List Piece} : Clean (ps ++ qs) ↔ Clean ps ∧ Clean qs :=
  List.forall_mem_append

@[simp] theorem seen_nil : seen [] = [] := rfl

/-- What is seen of some pieces is what is seen of each in turn. -/
@[simp] theorem seen_append (ps qs : List Piece) : seen (ps ++ qs) = seen ps ++ seen qs :=
  List.filter_append ..

/-- A piece is seen unless the grammar skips its kind. -/
theorem seen_cons (p : Piece) (ps : List Piece) :
    seen (p :: ps) = if p.kind.isSkipped then seen ps else p :: seen ps := by
  rw [seen, List.filter_cons]
  cases p.kind.isSkipped <;> rfl

/-! ## White space -/

/-- White space is one piece. -/
private theorem scan_blanks (bs cs : List Char) (hne : bs ≠ [])
    (hblank : ∀ c ∈ bs, Text.isBlank c = true) :
    scan (bs ++ cs) = ⟨.whitespace, bs ++ cs.takeWhile Text.isBlank⟩ ::
      scan (cs.dropWhile Text.isBlank) := by
  have hall : ∀ c ∈ bs ++ cs.takeWhile Text.isBlank, Text.isBlank c = true := by
    intro c hc
    obtain hc | hc := List.mem_append.mp hc
    · exact hblank c hc
    · exact List.all_eq_true.mp List.all_takeWhile c hc
  have hsplit : bs ++ cs = (bs ++ cs.takeWhile Text.isBlank) ++ cs.dropWhile Text.isBlank := by
    rw [List.append_assoc, List.takeWhile_append_dropWhile]
  rw [hsplit]
  apply scan_chars_append (p := ⟨.whitespace, bs ++ cs.takeWhile Text.isBlank⟩)
  have hnonempty : bs ++ cs.takeWhile Text.isBlank ≠ [] := by simp [hne]
  have hentry : (Kind.whitespace, Pattern.many1 (Pattern.oneOf Text.blankRanges)) ∈
      Lexicon.entries := by decide
  -- The rule of white space matches at least as much.
  obtain ⟨k, n, hmunch, hle⟩ := Pattern.munch_longest hentry
    (Lexicon.matches_whitespace hnonempty hall) hnonempty (cs.dropWhile Text.isBlank)
  obtain ⟨p, as, rest, hmem, hp, heq, rfl⟩ := Pattern.munch_matches hmunch
  -- The match begins with the blanks, and so it has blanks only.
  obtain ⟨ts, hts⟩ : bs ++ cs.takeWhile Text.isBlank <+: as := by
    apply List.prefix_of_prefix_length_le (List.prefix_append _ (cs.dropWhile Text.isBlank))
    · exact heq ▸ List.prefix_append as rest
    · exact hle
  -- A match that begins with a blank is one of white space: no other pattern does.
  have hkind : k = .whitespace := by
    cases has : as with
    | nil =>
      rw [has] at hts
      exact absurd (List.append_eq_nil_iff.mp hts).1 hnonempty
    | cons c cs' =>
      rw [has] at hp
      apply Lexicon.whitespace_of_blank hmem hp
      apply hall
      have hhead : (bs ++ cs.takeWhile Text.isBlank ++ ts).head? = some c := by rw [hts, has]; rfl
      rw [List.head?_append_of_ne_nil _ hnonempty] at hhead
      exact List.mem_of_mem_head? hhead
  subst hkind
  -- Nothing follows the blanks in it, since the next character is none.
  have hts : ts = [] := by
    cases ts with
    | nil => rfl
    | cons t ts =>
      rw [← hts, List.append_assoc _ (t :: ts) rest] at heq
      have hrest := List.append_cancel_left heq
      have hnot := List.head?_dropWhile_not Text.isBlank cs
      rw [hrest, List.cons_append, List.head?_cons] at hnot
      have hblank := Lexicon.isBlank_of_whitespace hmem hp
        (hts ▸ List.mem_append_right _ List.mem_cons_self)
      simp [hblank] at hnot
  subst hts
  rw [List.append_nil] at hts
  exact .inl (by rw [hmunch, ← hts])

/-- Blanks at the start of a text do not count. -/
theorem scan_dropWhile (cs : List Char) :
    seen (scan cs) = seen (scan (cs.dropWhile Text.isBlank)) ∧
      (Clean (scan cs) ↔ Clean (scan (cs.dropWhile Text.isBlank))) := by
  cases cs with
  | nil => exact ⟨rfl, Iff.rfl⟩
  | cons c cs =>
    cases hc : Text.isBlank c with
    | false =>
      rw [List.dropWhile_cons_of_neg (by simp [hc])]
      exact ⟨rfl, Iff.rfl⟩
    | true =>
      have hscan := scan_blanks [c] cs (by simp) (by simp [hc])
      rw [List.singleton_append] at hscan
      rw [List.dropWhile_cons_of_pos hc, hscan, seen_cons, clean_cons]
      exact ⟨rfl, and_iff_right rfl⟩

/-! ## A blank in between -/

/-- Behind a text without errors and a blank, a text is cut into the same pieces as by itself, up to
    the blanks it begins with.  The blank has to be a line break if there may be a comment that only
    ends with the line. -/
private theorem scan_append_blank {as : List Char} {b : Char} (bs : List Char)
    (hb : b = ' ' ∨ b = '\n') (hclean : Clean (scan as)) (hcomment : b = '\n' ∨
      ∀ p ∈ scan as, p.kind ≠ .docComment ∧ p.kind ≠ .lineComment) :
    ∃ ps, scan (as ++ b :: bs) = ps ++ scan (bs.dropWhile Text.isBlank) ∧
      seen ps = seen (scan as) ∧ Clean ps := by
  have hblank : Text.isBlank b = true := by obtain rfl | rfl := hb <;> decide
  generalize hps : scan as = ps at *
  -- Induction on the pieces: each is read as before, up to the one that the blank joins.
  induction ps generalizing as with
  | nil =>
    obtain rfl : as = [] := by rw [← spell_scan as, hps]; rfl
    have hscan := scan_blanks [b] bs (by simp) (by simp [hblank])
    rw [List.singleton_append] at hscan
    rw [List.nil_append, hscan]
    exact ⟨[_], rfl, rfl, clean_cons.mpr ⟨rfl, clean_nil⟩⟩
  | cons p ps ih =>
    obtain ⟨tail, rfl, hleads, htail⟩ := scan_eq_cons hps
    obtain ⟨hp, hclean⟩ := clean_cons.mp hclean
    have hcomment' : b = '\n' ∨ p.kind ≠ .docComment ∧ p.kind ≠ .lineComment :=
      hcomment.imp_right fun h => h p List.mem_cons_self
    obtain hsame | ⟨k, n, hmunch, hlong⟩ :=
      Pattern.munchFrom_append Lexicon.entries 0 none (p.chars ++ tail) (b :: bs)
    · -- The piece ends where it did.
      have hleads' : p.Leads (tail ++ b :: bs) := by
        unfold Leads Pattern.munch at hleads ⊢
        rwa [← List.append_assoc, hsame]
      obtain ⟨qs, hscan, hseen, hqs⟩ := ih htail hclean
        (hcomment.imp_right fun h q hq => h q (List.mem_cons_of_mem p hq))
      rw [List.append_assoc, scan_chars_append hleads', hscan]
      refine ⟨p :: qs, rfl, ?_, clean_cons.mpr ⟨hp, hqs⟩⟩
      rw [seen_cons, seen_cons, hseen]
    · -- All that is left are blanks, and they are one piece with those that follow.
      have hall := Lexicon.blank_of_crossing hb hleads hp hcomment' hmunch (by omega)
      have hne : p.chars ++ tail ≠ [] := by
        have hpos := hleads.length_pos
        intro hnil
        rw [(List.append_eq_nil_iff.mp hnil).1] at hpos
        cases hpos
      have hbefore := scan_blanks _ [] hne hall
      rw [List.append_nil, hps, List.takeWhile_nil, List.dropWhile_nil, scan] at hbefore
      have hscan := scan_blanks (p.chars ++ tail ++ [b]) bs (by simp) (by
        intro c hc
        obtain hc | hc := List.mem_append.mp hc
        · exact hall c hc
        · rwa [List.mem_singleton.mp hc])
      rw [List.append_assoc, List.singleton_append] at hscan
      rw [hbefore, hscan]
      exact ⟨[_], rfl, rfl, clean_cons.mpr ⟨rfl, clean_nil⟩⟩

/-- The same, as far as the grammar sees the pieces. -/
theorem seen_scan_append {as : List Char} {b : Char} (bs : List Char) (hb : b = ' ' ∨ b = '\n')
    (hclean : Clean (scan as)) (hcomment : b = '\n' ∨
      ∀ p ∈ scan as, p.kind ≠ .docComment ∧ p.kind ≠ .lineComment) :
    seen (scan (as ++ b :: bs)) = seen (scan as) ++ seen (scan bs) ∧
      (Clean (scan bs) → Clean (scan (as ++ b :: bs))) := by
  obtain ⟨ps, hscan, hseen, hps⟩ := scan_append_blank bs hb hclean hcomment
  obtain ⟨hdrop, hdropClean⟩ := scan_dropWhile bs
  rw [hscan, seen_append, hseen, hdrop, clean_append, hdropClean]
  exact ⟨rfl, fun h => ⟨hps, h⟩⟩

/-! ## Signs -/

/-- The kind of the last piece that the grammar sees, or the one of before. -/
def lastKind (last : Option Kind) (ps : List Piece) : Option Kind :=
  (seen ps).getLast?.map (·.kind) <|> last

/-- The last kind that is seen is the one behind, or else the one before. -/
theorem lastKind_cons (last : Option Kind) (p : Piece) (ps : List Piece) :
    lastKind last (p :: ps) = lastKind (if p.kind.isSkipped then last else some p.kind) ps := by
  unfold lastKind
  rw [seen_cons]
  cases p.kind.isSkipped with
  | true => rfl
  | false =>
    rw [if_neg Bool.false_ne_true, if_neg Bool.false_ne_true, List.getLast?_cons]
    cases (seen ps).getLast? <;> rfl

/-- Signs are split part by part, with the last kind seen before. -/
private theorem splitSigns_append_lastKind (last : Option Kind) (ps qs : List Piece) :
    splitSigns last (ps ++ qs) = splitSigns last ps ++ splitSigns (lastKind last ps) qs := by
  induction ps generalizing last with
  | nil => rfl
  | cons p ps ih =>
    rw [List.cons_append, splitSigns, splitSigns, ih, lastKind_cons]
    split
    · rfl
    · rfl

/-- What the lexer remembers matters only if it is the end of an operand. -/
private theorem splitSigns_congr {last last' : Option Kind}
    (h : last.any TokenSet.operandEnd.contains = false)
    (h' : last'.any TokenSet.operandEnd.contains = false) (ps : List Piece) :
    splitSigns last ps = splitSigns last' ps := by
  induction ps with
  | nil => rfl
  | cons p ps ih =>
    rw [splitSigns, splitSigns, h, h']
    cases p.kind.isSkipped with
    | true => simp [ih]
    | false => simp

/-- What is skipped plays no part in the splitting of signs. -/
private theorem seen_splitSigns (last : Option Kind) (ps : List Piece) :
    seen (splitSigns last ps) = splitSigns last (seen ps) := by
  induction ps generalizing last with
  | nil => rfl
  | cons p ps ih =>
    rw [splitSigns, seen_cons]
    cases hskipped : p.kind.isSkipped with
    | true =>
      -- A skipped piece is no number.
      have hsigned : p.isSigned = false := by
        rw [← Bool.not_eq_true]
        intro hsigned
        rw [(eq_cons_of_isSigned hsigned).1] at hskipped
        cases hskipped
      rw [hsigned, Bool.false_and, if_neg Bool.false_ne_true, if_pos rfl, if_pos rfl, seen_cons,
        hskipped, if_pos rfl, ih]
    | false =>
      rw [if_neg Bool.false_ne_true, if_neg Bool.false_ne_true, splitSigns, hskipped,
        if_neg Bool.false_ne_true]
      -- Whether a sign is split off depends on the significant piece before, which is the same.
      split
      · rw [seen_cons, seen_cons, ih]
        rfl
      · rw [seen_cons, hskipped, if_neg Bool.false_ne_true, ih]

/-- To split signs makes no errors and mends none. -/
private theorem clean_splitSigns (last : Option Kind) (ps : List Piece) :
    Clean (splitSigns last ps) ↔ Clean ps := by
  induction ps generalizing last with
  | nil => rfl
  | cons p ps ih =>
    rw [splitSigns]
    split
    · next hsplit =>
      rw [Bool.and_eq_true] at hsplit
      have hnumber : p.kind.isLexError = false := by rw [(eq_cons_of_isSigned hsplit.1).1]; rfl
      rw [clean_cons, clean_cons, clean_cons, ih]
      exact ⟨fun h => ⟨hnumber, h.2.2⟩, fun h => ⟨rfl, rfl, h.2⟩⟩
    · rw [clean_cons, clean_cons, ih]

/-- Signs are split off inside a list, and not at its end. -/
theorem lastKind_splitSigns (last before : Option Kind) (ps : List Piece) :
    lastKind last (splitSigns before ps) = lastKind last ps := by
  induction ps generalizing last before with
  | nil => rfl
  | cons p ps ih =>
    rw [splitSigns]
    split
    · next hsplit =>
      rw [Bool.and_eq_true] at hsplit
      rw [lastKind_cons, lastKind_cons, lastKind_cons, ih, (eq_cons_of_isSigned hsplit.1).1]
      rfl
    · rw [lastKind_cons, lastKind_cons, ih]

/-! ## Texts -/

/-- A clean scan has no garbage to gather. -/
private theorem ofText_of_clean {cs : List Char} (h : Clean (scan cs)) :
    ofText cs = splitSigns none (scan cs) := by
  rw [ofText, gather_eq_self fun p hp heq => ?_]
  have herror := h p hp
  rw [heq] at herror
  cases herror

/-- Where nothing is wrong after gathering, nothing was wrong before. -/
private theorem clean_of_gather {ps : List Piece} (h : Clean (gather ps)) : Clean ps := by
  fun_induction gather ps with
  | case1 => exact clean_nil
  | case2 p ps cs qs _ hkind _ =>
    have hgarbage : Kind.garbage.isLexError = false := (clean_cons.mp h).1
    cases hgarbage
  | case3 p ps _ ih =>
    obtain ⟨hp, hps⟩ := clean_cons.mp h
    exact clean_cons.mpr ⟨hp, ih hps⟩

/-- A text has no lexical errors exactly if its scan has none. -/
private theorem clean_ofText_iff {cs : List Char} : Clean (ofText cs) ↔ Clean (scan cs) := by
  constructor
  · intro h
    exact clean_of_gather ((clean_splitSigns none _).mp h)
  · intro h
    rw [ofText_of_clean h]
    exact (clean_splitSigns none _).mpr h

/-- The labels that the grammar sees are those of the pieces that are seen. -/
theorem significantLabels_eq (ps : List Piece) : significantLabels ps = (seen ps).map label := rfl

end Piece

namespace Token

/-- No token is a lexical error. -/
def Clean (ts : List Token) : Prop := ∀ t ∈ ts, t.kind.isLexError = false

/-- Tokens are clean exactly if their pieces are. -/
private theorem clean_place_iff (start : Nat) (here : LineCol) (ps : List Piece) :
    Clean (Piece.place start here ps) ↔ Piece.Clean ps := by
  have hkinds := Piece.kinds_place start here ps
  have hplaced : Clean (Piece.place start here ps) ↔
      ∀ k ∈ (Piece.place start here ps).map (·.kind), k.isLexError = false := by simp [Clean]
  have hpieces : Piece.Clean ps ↔ ∀ k ∈ ps.map (·.kind), k.isLexError = false := by
    simp [Piece.Clean]
  rw [hplaced, hpieces, hkinds]

/-- A source is clean exactly if its scan is. -/
theorem clean_lex_iff {source : String} :
    Clean (lex source) ↔ Piece.Clean (Piece.scan source.toList) := by
  rw [lex, clean_place_iff, Piece.clean_ofText_iff]

end Token

/-- The significant tokens, when there are no errors. -/
theorem sourceLabels_eq {source : String} (h : Token.Clean (Token.lex source)) :
    sourceLabels source =
      (Piece.splitSigns none (Piece.seen (Piece.scan source.toList))).map Piece.label := by
  rw [sourceLabels, Token.lex, Piece.significantLabels_place, Piece.significantLabels_eq,
    Piece.ofText_of_clean (Token.clean_lex_iff.mp h), Piece.seen_splitSigns]

/-- What the lexer remembers of a text is the kind of the last significant token. -/
private theorem lastKind_scan {source : String} (h : Token.Clean (Token.lex source)) :
    Piece.lastKind none (Piece.seen (Piece.scan source.toList)) =
      (sourceLabels source).getLast?.map (·.1) := by
  have hseen (ps : List Piece) : Piece.lastKind none (Piece.seen ps) = Piece.lastKind none ps := by
    simp [Piece.lastKind, Piece.seen]
  have hsplit := Piece.lastKind_splitSigns none none (Piece.seen (Piece.scan source.toList))
  rw [← Piece.seen_splitSigns, hseen] at hsplit
  rw [← hsplit, sourceLabels_eq h, ← Piece.seen_splitSigns, Piece.lastKind, List.getLast?_map]
  cases (Piece.seen (Piece.splitSigns none (Piece.scan source.toList))).getLast? <;> rfl

section

variable {source rest : String}

/-- Two sources and a line break between them, as characters. -/
theorem toList_append_break : (source ++ "\n" ++ rest).toList =
    source.toList ++ '\n' :: rest.toList := by
  simp

/-- Two texts without lexical errors, with a line break in between, have the significant tokens of
    the first and then those of the second, and no lexical errors either. -/
theorem sourceLabels_append (h : Token.Clean (Token.lex source)) (h' : Token.Clean (Token.lex rest))
    (hlast : ∀ label ∈ (sourceLabels source).getLast?,
      TokenSet.operandEnd.contains label.1 = false) :
    sourceLabels (source ++ "\n" ++ rest) = sourceLabels source ++ sourceLabels rest ∧
      Token.Clean (Token.lex (source ++ "\n" ++ rest)) := by
  obtain ⟨hseen, hclean⟩ := Piece.seen_scan_append rest.toList (.inr rfl)
    (Token.clean_lex_iff.mp h) (.inl rfl)
  have hboth : Token.Clean (Token.lex (source ++ "\n" ++ rest)) := by
    rw [Token.clean_lex_iff, toList_append_break]
    exact hclean (Token.clean_lex_iff.mp h')
  refine ⟨?_, hboth⟩
  -- No sign at the seam is split, since nothing in front of it ends an operand.
  have hquiet : (Piece.lastKind none (Piece.seen (Piece.scan source.toList))).any
      TokenSet.operandEnd.contains = false := by
    rw [lastKind_scan h]
    cases hlabel : (sourceLabels source).getLast? with
    | none => rfl
    | some label => exact hlast label hlabel
  have hnone : (none : Option Kind).any TokenSet.operandEnd.contains = false := rfl
  rw [sourceLabels_eq hboth, sourceLabels_eq h, sourceLabels_eq h', toList_append_break, hseen,
    Piece.splitSigns_append_lastKind, Piece.splitSigns_congr hquiet hnone, List.map_append]

/-- Where the second text begins in the tokens of the whole. -/
theorem lex_append {p : Piece} {qs : List Piece} (h : Token.Clean (Token.lex source))
    (h' : Token.Clean (Token.lex rest)) (hfirst : Piece.scan rest.toList = p :: qs)
    (hseen : p.kind.isSkipped = false) (hnumber : p.kind ≠ .number) :
    ∃ before t after, Token.lex (source ++ "\n" ++ rest) = before ++ t :: after ∧
      (Token.significant before).map Token.label = sourceLabels source ∧ t.kind = p.kind ∧
        t.start = Text.byteLength (source ++ "\n").toList := by
  obtain ⟨ps, hscan, hsame, hps⟩ := Piece.scan_append_blank rest.toList (.inr rfl)
    (Token.clean_lex_iff.mp h) (.inl rfl)
  -- The second text does not begin with blanks, so nothing of it joins the line break.
  have hdrop : rest.toList.dropWhile Text.isBlank = rest.toList := by
    cases hrest : rest.toList with
    | nil => rfl
    | cons c cs =>
      refine List.dropWhile_cons_of_neg fun hblank => ?_
      -- Blanks at the start would be white space.
      have hspace := Piece.scan_blanks [c] cs (by simp) (by simpa using hblank)
      rw [List.singleton_append, ← hrest, hfirst] at hspace
      rw [(List.cons.inj hspace).1] at hseen
      cases hseen
  rw [hdrop] at hscan
  -- The pieces before it spell the first text and the break.
  have hspell : Piece.spell ps = (source ++ "\n").toList := by
    have hall := congrArg Piece.spell hscan
    rw [Piece.spell_scan, Piece.spell_append, Piece.spell_scan] at hall
    have hboth : Piece.spell ps ++ rest.toList = (source ++ "\n").toList ++ rest.toList := by
      rw [← hall]
      simp
    exact List.append_cancel_right hboth
  have hclean : Piece.Clean (Piece.scan (source ++ "\n" ++ rest).toList) := by
    rw [toList_append_break, hscan, Piece.clean_append]
    exact ⟨hps, Token.clean_lex_iff.mp h'⟩
  -- Nothing is split off the first piece behind the seam.
  have hsigned : p.isSigned = false := by
    rw [← Bool.not_eq_true]
    exact fun hsigned => hnumber (Piece.eq_cons_of_isSigned hsigned).1
  have hplace := Piece.place_append 0 .origin (Piece.splitSigns none ps)
    (Piece.splitSigns (Piece.lastKind none ps) (Piece.scan rest.toList))
  rw [← Piece.splitSigns_append_lastKind, ← hscan, ← toList_append_break,
    ← Piece.ofText_of_clean hclean, hfirst, Piece.splitSigns, hsigned, Bool.false_and,
    if_neg Bool.false_ne_true, Piece.spell_splitSigns, hspell, Nat.zero_add] at hplace
  refine ⟨_, _, _, hplace, ?_, rfl, rfl⟩
  rw [Piece.significantLabels_place, Piece.significantLabels_eq, Piece.seen_splitSigns, hsame,
    sourceLabels_eq h]

end

/-! ## Words -/

/-- A significant token that is all there is in its text is one piece. -/
private theorem Piece.scan_of_lex {t : Token} (h : Token.lex t.text = [t])
    (hseen : t.kind.isSkipped = false) : scan t.text.toList = [⟨t.kind, t.text.toList⟩] := by
  have hgarbage : t.kind ≠ .garbage := by
    intro heq
    rw [heq] at hseen
    cases hseen
  rw [Token.lex, ofText] at h
  cases hps : gather (scan t.text.toList) with
  | nil =>
    rw [hps] at h
    cases h
  | cons p ps =>
    -- Nothing stands before the first piece, so no sign is split off it.
    rw [hps, splitSigns] at h
    simp only [Option.any_none, Bool.and_false, Bool.false_eq_true, ↓reduceIte] at h
    obtain ⟨ht, hrest⟩ := List.cons.inj h
    have hkind : p.kind = t.kind := by rw [← ht]
    have htext : String.ofList p.chars = t.text := by rw [← ht]
    -- Splitting off signs never makes fewer pieces, so there was one only.
    have hps' : ps = [] := by
      generalize (if p.kind.isSkipped = true then none else some p.kind) = last at hrest
      cases hsplit : splitSigns last ps with
      | cons q qs =>
        rw [hsplit] at hrest
        cases hrest
      | nil =>
        cases ps with
        | nil => rfl
        | cons q qs =>
          rw [splitSigns] at hsplit
          split at hsplit <;> cases hsplit
    -- The piece is no garbage and thus was scanned as it is.
    obtain ⟨qs, hscan, hqs⟩ := gather_eq_cons hps (by rw [hkind]; exact hgarbage)
    have hqs' : qs = [] := by
      cases qs with
      | nil => rfl
      | cons q qs =>
        rw [hps', gather] at hqs
        split at hqs <;> cases hqs
    rw [hscan, hqs', ← hkind, ← htext, String.toList_ofList]

/-- It is one piece before a blank, too. -/
theorem Piece.scan_word {t : Token} (hlex : Token.lex t.text = [t])
    (hseen : t.kind.isSkipped = false) (cs : List Char) :
    scan (t.text.toList ++ ' ' :: cs) = ⟨t.kind, t.text.toList⟩ :: scan (' ' :: cs) := by
  have hscan := scan_of_lex hlex hseen
  have hskipped (k : Kind) (hk : k.isSkipped = true) : t.kind ≠ k := by
    intro heq
    rw [heq, hk] at hseen
    cases hseen
  have herror : t.kind.isLexError = false := by
    simp only [Kind.isSkipped, Bool.or_eq_false_iff] at hseen
    exact hseen.2
  obtain ⟨tail, htext, hleads, htail⟩ := scan_eq_cons hscan
  obtain rfl : tail = [] := by rw [← spell_scan tail, htail]; rfl
  -- The scan ends where it did, or some pattern goes on over the blank.
  obtain hsame | ⟨k, n, hmunch, hlong⟩ :=
    Pattern.munchFrom_append Lexicon.entries 0 none t.text.toList (' ' :: cs)
  · refine scan_chars_append (p := ⟨t.kind, t.text.toList⟩) ?_
    unfold Leads Pattern.munch at hleads ⊢
    rw [List.append_nil] at hleads
    rwa [hsame]
  · -- Only white space goes on with a blank.
    exfalso
    have hall := Lexicon.blank_of_crossing (.inl rfl) hleads
      herror (.inr ⟨hskipped _ rfl, hskipped _ rfl⟩) (by rwa [List.append_nil])
      (by rw [List.append_nil, ← Nat.zero_add (List.length _)]; exact hlong)
    rw [List.append_nil] at hall
    have hne : t.text.toList ≠ [] := by
      intro hnil
      rw [hnil, scan] at hscan
      cases hscan
    have hspace := scan_blanks t.text.toList [] hne hall
    rw [List.append_nil, hscan] at hspace
    exact hskipped .whitespace rfl (congrArg Piece.kind (List.cons.inj hspace).1)

/-- Words with a blank after each. -/
private theorem Piece.seen_scan_words {words : List Token}
    (h : ∀ t ∈ words, Token.lex t.text = [t] ∧ t.kind.isSkipped = false) (cs : List Char) :
    seen (scan ((words.flatMap fun t => t.text.toList ++ [' ']) ++ cs)) =
        (words.map fun t => ⟨t.kind, t.text.toList⟩) ++ seen (scan cs) ∧
      (Clean (scan cs) →
        Clean (scan ((words.flatMap fun t => t.text.toList ++ [' ']) ++ cs))) := by
  -- Induction on the words, each of which is scanned by itself.
  induction words with
  | nil => exact ⟨rfl, id⟩
  | cons t words ih =>
    obtain ⟨hlex, hseen⟩ := h t List.mem_cons_self
    obtain ⟨hwords, hclean⟩ := ih fun u hu => h u (List.mem_cons_of_mem t hu)
    have herror : t.kind.isLexError = false := by
      simp only [Kind.isSkipped, Bool.or_eq_false_iff] at hseen
      exact hseen.2
    generalize hrest : (words.flatMap fun t => t.text.toList ++ [' ']) ++ cs = rest at hwords hclean
    have hblank := scan_dropWhile (' ' :: rest)
    rw [List.dropWhile_cons_of_pos (by decide), ← (scan_dropWhile rest).1,
      ← (scan_dropWhile rest).2] at hblank
    rw [List.flatMap_cons, List.append_assoc, List.append_assoc, List.singleton_append, hrest,
      scan_word hlex hseen, seen_cons, hseen, clean_cons, hblank.1, hblank.2, hwords]
    exact ⟨rfl, fun h => ⟨herror, hclean h⟩⟩

/-- Words with blanks between them, as characters. -/
theorem toList_words {words : List Token} (hne : words ≠ []) :
    (" ".intercalate (words.map (·.text)) ++ " ;").toList =
      (words.flatMap fun t => t.text.toList ++ [' ']) ++ [';'] := by
  have hjoin : [' '].intercalate (words.map (·.text.toList)) ++ [' '] =
      words.flatMap fun t => t.text.toList ++ [' '] := by
    induction words with
    | nil => exact absurd rfl hne
    | cons t words ih =>
      cases words with
      | nil => simp [List.intercalate]
      | cons u words =>
        rw [List.flatMap_cons, ← ih (by simp)]
        simp [List.intercalate]
  have hlast : " ;".toList = [' '] ++ [';'] := rfl
  rw [String.toList_append, String.toList_intercalate, List.map_map, hlast, ← List.append_assoc,
    ← hjoin]
  rfl

/-- Words that are no numbers, with blanks in between, and a semicolon at the end. -/
theorem sourceLabels_words {words : List Token} (hne : words ≠ [])
    (h : ∀ t ∈ words, Token.lex t.text = [t] ∧ t.kind.isSkipped = false)
    (hnumber : ∀ t ∈ words, t.kind ≠ .number) :
    sourceLabels (" ".intercalate (words.map (·.text)) ++ " ;") =
        words.map Token.label ++ [(.semiColon, ";")] ∧
      Token.Clean (Token.lex (" ".intercalate (words.map (·.text)) ++ " ;")) := by
  -- The closing semicolon is a piece of its own.
  have hsemicolon : Piece.scan [';'] = [⟨.semiColon, [';']⟩] := by
    have hmunch : Pattern.munch Lexicon.entries [';'] = some (.semiColon, 1) := by decide
    rw [Piece.scan_of_munch hmunch]
    simp [Piece.scan]
  obtain ⟨hseen, hclean⟩ := Piece.seen_scan_words h [';']
  rw [hsemicolon] at hseen hclean
  have hlex : Token.Clean (Token.lex (" ".intercalate (words.map (·.text)) ++ " ;")) := by
    rw [Token.clean_lex_iff, toList_words hne]
    exact hclean (Piece.clean_cons.mpr ⟨rfl, Piece.clean_nil⟩)
  refine ⟨?_, hlex⟩
  rw [sourceLabels_eq hlex, toList_words hne, hseen, Piece.splitSigns_eq_self]
  · simp [Piece.seen_cons, Piece.label, Token.label, Function.comp_def, Kind.isSkipped,
      Kind.isTrivia, Kind.isLexError]
  -- Neither the words nor the semicolon are numbers.
  · intro p hp
    obtain hp | hp := List.mem_append.mp hp
    · obtain ⟨t, ht, rfl⟩ := List.mem_map.mp hp
      exact hnumber t ht
    · obtain rfl := List.mem_singleton.mp hp
      decide

end ScriptTree
