import ScriptTree.Token.Lexer

/-!
# Cutting a text into pieces

Longest match looks at the text after a piece only to find out that the piece does not go on.  So
the text of some of the pieces, cut out at both ends, has just these pieces again.

## Key results

- `Pattern.munch_of_append`: longest match on a text that is cut behind the match
- `Piece.scan_append`: the pieces of a part of a text that starts and ends between two pieces
- `Piece.spell_ofText`: the pieces of a text spell it out
- `Token.spelling_lex`: so do its tokens
- `Token.lex_sorted`: the tokens of a text start one after the other, and before its end
-/

namespace ScriptTree

/-- Only the empty text has no bytes. -/
theorem Text.eq_nil_of_byteLength {cs : List Char} (h : byteLength cs = 0) : cs = [] := by
  cases cs with
  | nil => rfl
  | cons c cs =>
    have := c.utf8Size_pos
    rw [byteLength_cons] at h
    omega

namespace Pattern

variable {α : Type}

/-! ## Longest match -/

/-- Going on either finds nothing new or a longer match. -/
theorem munchFrom_cases (live : List (α × Pattern)) (length : Nat) (best : Option (α × Nat))
    (cs : List Char) :
    munchFrom live length best cs = best ∨
      ∃ a n, munchFrom live length best cs = some (a, n) ∧ length < n ∧
        n ≤ length + cs.length := by
  -- Induction on the text.
  induction cs generalizing live length best with
  | nil => exact .inl rfl
  | cons c cs ih =>
    unfold munchFrom
    split
    · exact .inl rfl
    · obtain h | ⟨a, n, h, hlt, hle⟩ :=
        ih (survivors c live) (length + 1)
          ((satisfied (survivors c live)).map (·, length + 1) <|> best)
      -- Nothing longer matches, so the match ends with this character or before it.
      · cases hs : satisfied (survivors c live) with
        | none =>
          rw [hs] at h
          exact .inl h
        | some a =>
          rw [hs] at h
          refine .inr ⟨a, length + 1, h, by omega, ?_⟩
          simp only [List.length_cons]
          omega
      · refine .inr ⟨a, n, h, by omega, ?_⟩
        simp only [List.length_cons]
        omega

/-- What follows a text matters only if the match reaches into it. -/
theorem munchFrom_append (live : List (α × Pattern)) (length : Nat) (best : Option (α × Nat))
    (as bs : List Char) :
    munchFrom live length best (as ++ bs) = munchFrom live length best as ∨
      ∃ a n, munchFrom live length best (as ++ bs) = some (a, n) ∧ length + as.length < n := by
  -- Induction on the prefix: the match ends in it, or the scan has not stopped yet.
  induction as generalizing live length best with
  | nil =>
    obtain h | ⟨a, n, h, hlt, -⟩ := munchFrom_cases live length best bs
    · exact .inl h
    · exact .inr ⟨a, n, h, hlt⟩
  | cons c as ih =>
    rw [List.cons_append]
    unfold munchFrom
    split
    · exact .inl rfl
    · obtain h | ⟨a, n, h, hlt⟩ := ih (survivors c live) (length + 1)
        ((satisfied (survivors c live)).map (·, length + 1) <|> best)
      · exact .inl h
      · refine .inr ⟨a, n, h, ?_⟩
        simp only [List.length_cons]
        omega

/-- A match is not empty, and no longer than the text. -/
private theorem munch_bounds {lexicon : List (α × Pattern)} {cs : List Char} {a : α} {n : Nat}
    (h : munch lexicon cs = some (a, n)) : 0 < n ∧ n ≤ cs.length := by
  obtain h' | ⟨b, m, h', hlt, hle⟩ := munchFrom_cases lexicon 0 none cs
  · rw [munch, h'] at h
    cases h
  · rw [munch, h'] at h
    cases h
    exact ⟨hlt, by omega⟩

/-- Cutting a text behind the longest match does not change the match. -/
theorem munch_of_append {lexicon : List (α × Pattern)} {as bs : List Char} {a : α} {n : Nat}
    (h : munch lexicon (as ++ bs) = some (a, n)) (hn : n ≤ as.length) :
    munch lexicon as = some (a, n) := by
  obtain h' | ⟨b, m, h', hlt⟩ := munchFrom_append lexicon 0 none as bs
  · rw [munch] at h
    rw [munch, ← h', h]
  · rw [munch, h'] at h
    cases h
    omega

/-- Where nothing matches, nothing matches in a shorter text. -/
private theorem munch_eq_none_of_append {lexicon : List (α × Pattern)} {as bs : List Char}
    (h : munch lexicon (as ++ bs) = none) : munch lexicon as = none := by
  obtain h' | ⟨b, m, h', -⟩ := munchFrom_append lexicon 0 none as bs
  · rw [munch] at h
    rw [munch, ← h', h]
  · rw [munch, h'] at h
    cases h

end Pattern

/-- Tokens spell their texts one after the other. -/
theorem Token.spelling_cons (t : Token) (ts : List Token) :
    spelling (t :: ts) = t.text ++ spelling ts := by
  rw [spelling, List.map_cons, String.join_cons, spelling]

namespace Piece

/-! ## Pieces spell out the text -/

/-- The text of pieces, one after the other. -/
def spell (ps : List Piece) : List Char := ps.flatMap (·.chars)

@[simp] theorem spell_nil : spell [] = [] := rfl

@[simp] theorem spell_cons (p : Piece) (ps : List Piece) : spell (p :: ps) = p.chars ++ spell ps :=
  rfl

/-- Pieces spell their texts one after the other. -/
@[simp] theorem spell_append (ps qs : List Piece) : spell (ps ++ qs) = spell ps ++ spell qs :=
  List.flatMap_append

/-- A scan spells the text. -/
@[simp] theorem spell_scan (cs : List Char) : spell (scan cs) = cs := by
  fun_induction scan cs with
  | case1 => rfl
  | case2 c cs kind n h ih => rw [spell_cons, ih, List.cons_append, List.take_append_drop]
  | case3 c cs h ih => rw [spell_cons, ih]; rfl

/-- To gather garbage keeps the text. -/
@[simp] theorem spell_gather (ps : List Piece) : spell (gather ps) = spell ps := by
  fun_induction gather ps with
  | case1 => rfl
  | case2 p ps cs qs hgather _ ih =>
    rw [hgather] at ih
    rw [spell_cons, spell_cons, ← ih, spell_cons, List.append_assoc]
  | case3 p ps _ ih => rw [spell_cons, spell_cons, ih]

/-- The first character of a number with a sign is the sign. -/
theorem eq_cons_of_isSigned {p : Piece} (h : p.isSigned = true) :
    p.kind = .number ∧ p.chars = '-' :: p.chars.tail := by
  simp only [isSigned, Bool.and_eq_true, beq_iff_eq] at h
  obtain ⟨hkind, hhead⟩ := h
  cases hc : p.chars with
  | nil => rw [hc] at hhead; cases hhead
  | cons c cs =>
    rw [hc] at hhead
    cases hhead
    exact ⟨hkind, rfl⟩

/-- To split signs keeps the text. -/
@[simp] theorem spell_splitSigns (last : Option Kind) (ps : List Piece) :
    spell (splitSigns last ps) = spell ps := by
  induction ps generalizing last with
  | nil => rfl
  | cons p ps ih =>
    unfold splitSigns
    dsimp only
    split
    case isTrue h =>
      rw [Bool.and_eq_true] at h
      rw [spell_cons, spell_cons, spell_cons, ih, (eq_cons_of_isSigned h.1).2]
      rfl
    case isFalse => rw [spell_cons, spell_cons, ih]

/-- The pieces of a text spell it out. -/
@[simp] theorem spell_ofText (cs : List Char) : spell (ofText cs) = cs := by
  rw [ofText, spell_splitSigns, spell_gather, spell_scan]

/-- Tokens spell what their pieces spell. -/
theorem spelling_place (start : Nat) (here : LineCol) (ps : List Piece) :
    Token.spelling (place start here ps) = String.ofList (spell ps) := by
  induction ps generalizing start here with
  | nil => rfl
  | cons p ps ih => rw [place, Token.spelling_cons, ih, spell_cons, String.ofList_append]

/-! ## Parts of a text -/

/-- The piece is what longest match cuts off a text that starts with it and goes on with `cs`. -/
def Leads (p : Piece) (cs : List Char) : Prop :=
  Pattern.munch Lexicon.entries (p.chars ++ cs) = some (p.kind, p.chars.length) ∨
    Pattern.munch Lexicon.entries (p.chars ++ cs) = none ∧ p.kind = .garbage ∧ p.chars.length = 1

/-- Cutting the text behind a piece does not change the piece. -/
theorem Leads.of_append {p : Piece} {as bs : List Char} (h : p.Leads (as ++ bs)) : p.Leads as := by
  unfold Leads at h ⊢
  rw [← List.append_assoc] at h
  obtain h | ⟨h, hkind, hlen⟩ := h
  · refine .inl (Pattern.munch_of_append h ?_)
    rw [List.length_append]
    omega
  · exact .inr ⟨Pattern.munch_eq_none_of_append h, hkind, hlen⟩

/-- Pieces are not empty. -/
theorem Leads.length_pos {p : Piece} {cs : List Char} (h : p.Leads cs) : 0 < p.chars.length := by
  obtain h | ⟨-, -, hlen⟩ := h
  · exact (Pattern.munch_bounds h).1
  · omega

/-- A piece that leads a text is the first of its scan. -/
theorem scan_chars_append {p : Piece} {cs : List Char} (h : p.Leads cs) :
    scan (p.chars ++ cs) = p :: scan cs := by
  obtain ⟨kind, chars⟩ := p
  -- The piece leads as a match, or as garbage of one character.
  obtain h | ⟨h, rfl, hlen⟩ := h
  · dsimp only at h ⊢
    obtain ⟨c, chars, rfl⟩ := List.exists_cons_of_length_pos (Pattern.munch_bounds h).1
    rw [List.cons_append] at h ⊢
    rw [scan, h]
    dsimp only [List.length_cons]
    rw [List.take_left, List.drop_left]
  · dsimp only at h hlen ⊢
    obtain ⟨c, rfl⟩ := List.length_eq_one_iff.mp hlen
    rw [List.singleton_append] at h ⊢
    rw [scan, h]

/-- The first piece of a scan leads the text. -/
theorem scan_eq_cons {cs : List Char} {p : Piece} {ps : List Piece} (h : scan cs = p :: ps) :
    ∃ tail, cs = p.chars ++ tail ∧ p.Leads tail ∧ scan tail = ps := by
  fun_cases scan cs with
  | case1 => rw [scan] at h; cases h
  -- A pattern matches: the piece is as long as the match.
  | case2 c cs kind n hmunch =>
    rw [scan, hmunch] at h
    obtain ⟨rfl, rfl⟩ := List.cons.inj h
    have hn : n ≤ cs.length := Nat.le_of_succ_le_succ (Pattern.munch_bounds hmunch).2
    refine ⟨cs.drop n, ?_, .inl ?_, rfl⟩
    · rw [List.cons_append, List.take_append_drop]
    · rw [List.cons_append, List.take_append_drop, hmunch, List.length_cons,
        List.length_take_of_le hn]
  | case3 c cs hmunch =>
    -- A match of length zero is none, so the case is that of a character nothing matches.
    have hnone : Pattern.munch Lexicon.entries (c :: cs) = none := by
      cases hm : Pattern.munch Lexicon.entries (c :: cs) with
      | none => rfl
      | some m =>
        obtain ⟨kind, n⟩ := m
        have hpos := (Pattern.munch_bounds hm).1
        obtain ⟨n, rfl⟩ := Nat.exists_eq_succ_of_ne_zero (Nat.ne_of_gt hpos)
        exact (hmunch kind n hm).elim
    rw [scan, hnone] at h
    obtain ⟨rfl, rfl⟩ := List.cons.inj h
    exact ⟨cs, rfl, .inr ⟨hnone, rfl, rfl⟩, rfl⟩

/-- A part of a text that starts and ends between two pieces has just the pieces in between. -/
theorem scan_append {cs : List Char} {ps qs : List Piece} (h : scan cs = ps ++ qs) :
    scan (spell ps) = ps ∧ scan (spell qs) = qs := by
  -- Induction on the pieces in front.
  induction ps generalizing cs with
  | nil =>
    rw [List.nil_append] at h
    exact ⟨by rw [spell_nil, scan], by rw [← h, spell_scan]⟩
  | cons p ps ih =>
    rw [List.cons_append] at h
    obtain ⟨tail, rfl, hleads, hscan⟩ := scan_eq_cons h
    obtain ⟨hps, hqs⟩ := ih hscan
    have htail : tail = spell ps ++ spell qs := by rw [← spell_append, ← hscan, spell_scan]
    refine ⟨?_, hqs⟩
    rw [htail] at hleads
    rw [spell_cons, scan_chars_append hleads.of_append, hps]

/-- A match of some length starts a piece of that length. -/
theorem scan_of_munch {c : Char} {cs : List Char} {k : Kind} {n : Nat}
    (h : Pattern.munch Lexicon.entries (c :: cs) = some (k, n + 1)) :
    scan (c :: cs) = ⟨k, c :: cs.take n⟩ :: scan (cs.drop n) := by
  rw [scan, h]

/-! ## Corrections -/

/-- Without garbage there is nothing to gather. -/
theorem gather_eq_self {ps : List Piece} (h : ∀ p ∈ ps, p.kind ≠ .garbage) : gather ps = ps := by
  induction ps with
  | nil => rfl
  | cons p ps ih =>
    have hp := h p List.mem_cons_self
    rw [gather, ih fun q hq => h q (List.mem_cons_of_mem p hq)]
    split
    · next hkind => exact absurd hkind hp
    · rfl

/-- Without numbers there is no sign to split off. -/
theorem splitSigns_eq_self {ps : List Piece} (h : ∀ p ∈ ps, p.kind ≠ .number)
    (last : Option Kind) : splitSigns last ps = ps := by
  induction ps generalizing last with
  | nil => rfl
  | cons p ps ih =>
    have hp := h p List.mem_cons_self
    have hsigned : p.isSigned = false := by simp [isSigned, hp]
    simp [splitSigns, hsigned, ih fun q hq => h q (List.mem_cons_of_mem p hq)]

/-! ## Places -/

/-- The first token starts where its pieces start, and the others behind it. -/
theorem place_cons (start : Nat) (here : LineCol) (p : Piece) (ps : List Piece) :
    place start here (p :: ps) = ⟨p.kind, String.ofList p.chars, start, here⟩ ::
      place (start + Text.byteLength p.chars) (here.advance (String.ofList p.chars)) ps := by
  simp [place, Token.stop, Token.width]

/-- Pieces are placed one after the other. -/
theorem place_append (start : Nat) (here : LineCol) (ps qs : List Piece) :
    place start here (ps ++ qs) = place start here ps ++
      place (start + Text.byteLength (spell ps)) (here.advance (String.ofList (spell ps))) qs := by
  induction ps generalizing start here with
  | nil => rfl
  | cons p ps ih =>
    rw [List.cons_append, place_cons, place_cons, ih, spell_cons, Text.byteLength_append,
      ← Nat.add_assoc]
    simp [LineCol.advance]

/-- Some of the first tokens are the first pieces in their places. -/
private theorem place_eq_append {start : Nat} {here : LineCol} {ps : List Piece}
    {ts us : List Token}
    (h : place start here ps = ts ++ us) : ∃ before after, ps = before ++ after ∧
      ts = place start here before ∧ us = place (start + Text.byteLength (spell before))
        (here.advance (String.ofList (spell before))) after := by
  -- Induction on the tokens in front.
  induction ts generalizing start here ps with
  | nil => exact ⟨[], ps, rfl, rfl, h.symm⟩
  | cons t ts ih =>
    cases ps with
    | nil => cases h
    | cons p ps =>
      rw [place_cons, List.cons_append] at h
      obtain ⟨rfl, hrest⟩ := List.cons.inj h
      obtain ⟨before, after, rfl, rfl, rfl⟩ := ih hrest
      refine ⟨p :: before, after, rfl, (place_cons ..).symm, ?_⟩
      rw [spell_cons, Text.byteLength_append, ← Nat.add_assoc]
      simp [LineCol.advance]

/-- A placed token is a piece behind the text of the pieces before it. -/
theorem place_eq_append_cons {start : Nat} {here : LineCol} {ps : List Piece} {t : Token}
    {ts us : List Token} (h : place start here ps = ts ++ t :: us) : ∃ before p after,
      ps = before ++ p :: after ∧ ts = place start here before ∧
        t = ⟨p.kind, String.ofList p.chars, start + Text.byteLength (spell before),
          here.advance (String.ofList (spell before))⟩ ∧
        us = place t.stop (t.place.advance t.text) after := by
  obtain ⟨before, after, rfl, hts, hafter⟩ := place_eq_append h
  cases after with
  | nil => cases hafter
  | cons p after =>
    rw [place] at hafter
    obtain ⟨rfl, rfl⟩ := List.cons.inj hafter
    exact ⟨before, p, after, rfl, hts, rfl, rfl⟩

/-- A token has the text of a piece, and starts behind the pieces before that. -/
theorem exists_of_mem_place {ps : List Piece} {start : Nat} {here : LineCol} {t : Token}
    (ht : t ∈ place start here ps) : ∃ as, ∃ p ∈ ps, ∃ bs, t.text.toList = p.chars ∧
      spell ps = as ++ p.chars ++ bs ∧ t.start = start + Text.byteLength as ∧
        t.place = here.advance (String.ofList as) := by
  obtain ⟨ts, us, hsplit⟩ := List.append_of_mem ht
  obtain ⟨before, p, after, rfl, -, rfl, -⟩ := place_eq_append_cons hsplit
  exact ⟨spell before, p, by simp, spell after, String.toList_ofList, by simp, rfl, rfl⟩

/-- Tokens have the kinds of their pieces. -/
theorem kinds_place (start : Nat) (here : LineCol) (ps : List Piece) :
    (place start here ps).map (·.kind) = ps.map (·.kind) := by
  induction ps generalizing start here with
  | nil => rfl
  | cons p ps ih => simp [place, ih]

/-- A piece that is not empty, and if it is a number with a sign, more than the sign. -/
def Solid (p : Piece) : Prop := p.chars ≠ [] ∧ (p.isSigned = true → p.chars.tail ≠ [])

/-- A piece that leads a text is not empty, and no bare sign. -/
theorem Leads.solid {p : Piece} {cs : List Char} (h : p.Leads cs) : p.Solid := by
  refine ⟨List.ne_nil_of_length_pos h.length_pos, fun hsigned htail => ?_⟩
  obtain ⟨hkind, hchars⟩ := eq_cons_of_isSigned hsigned
  have halone : p.Leads [] := h.of_append
  rw [htail] at hchars
  -- A sign alone is an operator.
  have hminus : Pattern.munch Lexicon.entries ['-'] = some (.minus, 1) := by decide
  rw [Leads, List.append_nil, hchars, hminus, hkind] at halone
  obtain h | ⟨h, -⟩ := halone
  · cases h
  · cases h

/-- All pieces of a scan are solid. -/
theorem solid_scan (cs : List Char) : ∀ p ∈ scan cs, p.Solid := by
  have hall : ∀ ps cs, scan cs = ps → ∀ p ∈ ps, p.Solid := by
    intro ps
    induction ps with
    | nil => intro cs _ p hp; cases hp
    | cons q ps ih =>
      intro cs h p hp
      obtain ⟨tail, -, hleads, hscan⟩ := scan_eq_cons h
      obtain rfl | hp := List.mem_cons.mp hp
      · exact hleads.solid
      · exact ih tail hscan p hp
  exact hall _ cs rfl

/-- To gather garbage leaves all pieces solid. -/
theorem solid_gather {ps : List Piece} (h : ∀ p ∈ ps, p.Solid) : ∀ p ∈ gather ps, p.Solid := by
  fun_induction gather ps with
  -- Signs that are gathered stay solid, and so does the rest.
  | case1 => simp
  | case2 p ps cs qs hgather hkind ih =>
    have hrest := ih fun q hq => h q (List.mem_cons_of_mem p hq)
    rw [hgather] at hrest
    intro q hq
    obtain rfl | hq := List.mem_cons.mp hq
    · have hp := (h p List.mem_cons_self).1
      exact ⟨by simp [hp], by simp [isSigned]⟩
    · exact hrest q (List.mem_cons_of_mem _ hq)
  | case3 p ps _ ih =>
    intro q hq
    obtain rfl | hq := List.mem_cons.mp hq
    · exact h q List.mem_cons_self
    · exact ih (fun q hq => h q (List.mem_cons_of_mem p hq)) q hq

/-- No piece is empty after the signs have been cut off. -/
private theorem ne_nil_of_mem_splitSigns {last : Option Kind} {ps : List Piece}
    (h : ∀ p ∈ ps, p.Solid) : ∀ p ∈ splitSigns last ps, p.chars ≠ [] := by
  -- Induction on the pieces; only a split sign makes two of one.
  induction ps generalizing last with
  | nil => simp [splitSigns]
  | cons p ps ih =>
    have hp := h p List.mem_cons_self
    have hps : ∀ q ∈ ps, q.Solid := fun q hq => h q (List.mem_cons_of_mem p hq)
    unfold splitSigns
    dsimp only
    split
    case isTrue hsplit =>
      rw [Bool.and_eq_true] at hsplit
      simpa [hp.2 hsplit.1] using ih hps
    case isFalse => simpa [hp.1] using ih hps

/-- No piece of a text is empty. -/
theorem ne_nil_of_mem_ofText (cs : List Char) : ∀ p ∈ ofText cs, p.chars ≠ [] :=
  ne_nil_of_mem_splitSigns (solid_gather (solid_scan cs))

/-- Pieces are placed so that each begins where those before it have ended. -/
theorem place_apart (ps : List Piece) (start : Nat) (here : LineCol) :
    (place start here ps).Pairwise (·.stop ≤ ·.start) ∧
      ∀ t ∈ place start here ps,
        start ≤ t.start ∧ t.stop ≤ start + Text.byteLength (spell ps) := by
  induction ps generalizing start here with
  | nil => simp [place]
  | cons p ps ih =>
    obtain ⟨hapart, hbounds⟩ :=
      ih (start + Text.byteLength p.chars) (here.advance (String.ofList p.chars))
    have hstop : Token.stop ⟨p.kind, String.ofList p.chars, start, here⟩ =
        start + Text.byteLength p.chars := by
      simp [Token.stop, Token.width]
    rw [place_cons, spell_cons, Text.byteLength_append]
    refine ⟨List.pairwise_cons.mpr ⟨fun t ht => ?_, hapart⟩, fun t ht => ?_⟩
    -- The first piece stops where those behind it begin, or before.
    · rw [hstop]
      exact (hbounds t ht).1
    · obtain rfl | ht := List.mem_cons.mp ht
      · rw [hstop]
        dsimp only
        omega
      · have := hbounds t ht
        omega

/-- Pieces that are not empty start one after the other, and before the end of their text. -/
private theorem place_sorted {ps : List Piece} (h : ∀ p ∈ ps, p.chars ≠ []) (start : Nat)
    (here : LineCol) :
    (place start here ps).Pairwise (·.start < ·.start) ∧
      ∀ t ∈ place start here ps,
        start ≤ t.start ∧ t.start < start + Text.byteLength (spell ps) := by
  obtain ⟨hapart, hbounds⟩ := place_apart ps start here
  -- A piece has a character, so the next one starts after it and not with it.
  have hlong : ∀ t ∈ place start here ps, t.start < t.stop := by
    intro t ht
    obtain ⟨-, p, hp, -, htext, -⟩ := exists_of_mem_place ht
    have hpos : 0 < Text.byteLength p.chars :=
      Nat.pos_of_ne_zero fun hzero => h p hp (Text.eq_nil_of_byteLength hzero)
    rw [Token.stop, Token.width, htext]
    omega
  refine ⟨hapart.imp_of_mem fun ht _ hle => Nat.lt_of_lt_of_le (hlong _ ht) hle, fun t ht => ?_⟩
  have := hbounds t ht
  have := hlong t ht
  omega

end Piece

/-- The tokens of a text spell it out. -/
theorem Token.spelling_lex (source : String) : Token.spelling (Token.lex source) = source := by
  rw [Token.lex, Piece.spelling_place, Piece.spell_ofText, String.ofList_toList]

/-- The tokens of a text start one after the other, and before its end. -/
theorem Token.lex_sorted (source : String) :
    (Token.lex source).Pairwise (·.start < ·.start) ∧
      ∀ t ∈ Token.lex source, t.start < Text.byteLength source.toList := by
  obtain ⟨hsorted, hbounds⟩ :=
    Piece.place_sorted (Piece.ne_nil_of_mem_ofText source.toList) 0 .origin
  rw [Piece.spell_ofText, Nat.zero_add] at hbounds
  exact ⟨hsorted, fun t ht => (hbounds t ht).2⟩

end ScriptTree
