import Mathlib
import ScriptTree.Proofs.Ties

/-!
# The lexer and longest match

The tokens of a text are what longest match makes of it, but for two corrections.  Characters that
nothing matches are gathered, and that is all they have in common: nothing matches at any of them.
Signs are cut off numbers, and they can be put back (`Token.rejoin`), because longest match never
cuts a text between a minus and a number.

## Key results

- `Piece.munched_gather`: the pieces of a text before signs are cut off
- `Token.rejoin_place_splitSigns`: cutting signs off can be undone
- `Token.lex_munched`: the tokens of a text tile it, and are the longest there are
-/

namespace ScriptTree

/-- Nothing is garbage by a pattern of its own. -/
private theorem Lexicon.kind_ne_garbage : ∀ e ∈ entries, e.1 ≠ .garbage := by decide

namespace Piece

/-! ## Pieces of a text -/

/-- The piece is cut off by longest match where `rest` follows, or nothing matches at any of its
    characters. -/
def MunchedBefore (p : Piece) (rest : List Char) : Prop :=
  if p.kind = .garbage then
    ∀ as bs, p.chars = as ++ bs → bs ≠ [] → Pattern.munch Lexicon.entries (bs ++ rest) = none
  else Pattern.munch Lexicon.entries (p.chars ++ rest) = some (p.kind, p.chars.length)

/-- Each piece is what longest match makes of the text from there on. -/
def Munched : List Piece → Prop
  | [] => True
  | p :: ps => p.MunchedBefore (spell ps) ∧ Munched ps

/-- What is munched at the end of some pieces is munched by itself. -/
theorem Munched.of_append {ps qs : List Piece} (h : Munched (ps ++ qs)) : Munched qs := by
  induction ps with
  | nil => exact h
  | cons p ps ih => exact ih h.2

/-- A piece that leads a text is munched before the rest. -/
private theorem Leads.munchedBefore {p : Piece} {rest : List Char} (h : p.Leads rest) :
    p.MunchedBefore rest := by
  unfold MunchedBefore
  obtain h | ⟨h, hkind, hlength⟩ := h
  · obtain ⟨q, as, bs, hmem, -⟩ := Pattern.munch_matches h
    rwa [if_neg (Lexicon.kind_ne_garbage _ hmem)]
  · rw [if_pos hkind]
    intro as bs hchars hne
    -- There is one character only, and nothing matches at it.
    obtain ⟨c, hc⟩ := List.length_eq_one_iff.mp hlength
    rw [hc] at hchars h
    cases as with
    | nil => rwa [← List.nil_append bs, ← hchars]
    | cons a as => simp_all

/-- All pieces of a scan are munched. -/
theorem munched_scan (cs : List Char) : Munched (scan cs) := by
  generalize hps : scan cs = ps
  induction ps generalizing cs with
  | nil => trivial
  | cons p ps ih =>
    obtain ⟨tail, -, hleads, hscan⟩ := scan_eq_cons hps
    refine ⟨?_, ih tail hscan⟩
    rw [← hscan, spell_scan]
    exact hleads.munchedBefore

/-- To gather garbage leaves all pieces munched. -/
theorem munched_gather {ps : List Piece} (h : Munched ps) : Munched (gather ps) := by
  fun_induction gather ps with
  | case1 => trivial
  | case2 p ps cs qs hgather hkind ih =>
    have hrest := ih h.2
    have hspell := spell_gather ps
    rw [hgather] at hrest hspell
    refine ⟨?_, hrest.2⟩
    have hp := h.1
    unfold MunchedBefore at hp ⊢
    rw [if_pos hkind] at hp
    rw [if_pos rfl]
    -- The rest of the run is the rest of one of the two pieces of it.
    intro as bs hchars hne
    obtain ⟨as', rfl, hcs⟩ | ⟨bs', hbefore, rfl⟩ := List.append_eq_append_iff.mp hchars
    · exact hrest.1 as' bs hcs hne
    · by_cases hbs' : bs' = []
      · subst hbs'
        exact hrest.1 [] cs rfl hne
      · rw [List.append_assoc]
        rw [spell_cons] at hspell
        rw [hspell]
        exact hp as bs' hbefore hbs'
  -- The piece stands for itself.
  | case3 p ps _ ih =>
    refine ⟨?_, ih h.2⟩
    rw [spell_gather]
    exact h.1

/-! ## Neighbours -/

/-- Not both pieces are garbage. -/
def Unjoined (p q : Piece) : Prop := ¬ (p.kind = .garbage ∧ q.kind = .garbage)

/-- After gathering no two pieces of garbage stand side by side. -/
private theorem unjoined_gather (ps : List Piece) : (gather ps).IsChain Unjoined := by
  fun_induction gather ps with
  | case1 => exact .nil
  | case2 p ps cs qs hgather hkind ih =>
    rw [hgather] at ih
    obtain ⟨hnext, hqs⟩ := List.isChain_cons.mp ih
    exact List.isChain_cons.mpr ⟨hnext, hqs⟩
  | case3 p ps hnot ih =>
    refine List.isChain_cons.mpr ⟨fun q hq hboth => ?_, ih⟩
    obtain ⟨qs, hgather⟩ := List.head?_eq_some_iff.mp hq
    obtain ⟨kind, chars⟩ := q
    obtain ⟨hp, rfl⟩ := hboth
    exact hnot chars qs hp hgather

/-- Cutting signs off does not bring garbage to the front. -/
theorem kind_head_splitSigns {last : Option Kind} {ps : List Piece} {q : Piece}
    (h : q ∈ (splitSigns last ps).head?) (hkind : q.kind ≠ .minus) : ∃ p ∈ ps.head?, p = q := by
  cases ps with
  | nil => cases h
  | cons p ps =>
    unfold splitSigns at h
    dsimp only at h
    split at h
    · cases h
      exact absurd rfl hkind
    · exact ⟨p, rfl, Option.some.inj h⟩

/-- To split signs puts no two pieces of garbage side by side. -/
private theorem unjoined_splitSigns {ps : List Piece} (h : ps.IsChain Unjoined)
    (last : Option Kind) : (splitSigns last ps).IsChain Unjoined := by
  induction ps generalizing last with
  | nil => exact .nil
  | cons p ps ih =>
    obtain ⟨hnext, hps⟩ := List.isChain_cons.mp h
    unfold splitSigns
    dsimp only
    split
    · have hnumber (q : Piece) : Unjoined ⟨.number, p.chars.tail⟩ q := by simp [Unjoined]
      have hminus (q : Piece) : Unjoined ⟨.minus, ['-']⟩ q := by simp [Unjoined]
      exact List.isChain_cons.mpr ⟨fun q _ => hminus q,
        List.isChain_cons.mpr ⟨fun q _ => hnumber q, ih hps _⟩⟩
    · refine List.isChain_cons.mpr ⟨fun q hq hboth => ?_, ih hps _⟩
      obtain ⟨r, hr, rfl⟩ := kind_head_splitSigns hq (by rw [hboth.2]; decide)
      exact hnext r hr hboth

/-- The first token is that of the first piece. -/
theorem exists_of_mem_head_place {start : Nat} {here : LineCol} {ps : List Piece} {t : Token}
    (h : t ∈ (place start here ps).head?) : ∃ p ∈ ps.head?, p.kind = t.kind := by
  cases ps with
  | nil => cases h
  | cons p ps =>
    rw [place_cons] at h
    cases h
    exact ⟨p, rfl, rfl⟩

/-- The pieces are not a minus and a number. -/
def Unglued (p q : Piece) : Prop := ¬ (p.kind = .minus ∧ q.kind = .number)

/-- A minus is a minus, and a number begins with another or with a digit. -/
theorem entries_of_number : ∀ e ∈ Lexicon.entries,
    (e.1 = .minus → e.2 = .text "-") ∧
    (e.1 = .number → e.2 = Lexicon.numberPattern) := by decide

/-- A number begins with a sign or a digit. -/
private theorem matches_number_cons {c : Char} {cs : List Char}
    (h : Lexicon.numberPattern.Matches (c :: cs)) : c = '-' ∨ Lexicon.digit.Matches [c] := by
  obtain ⟨x, hx, hcontains⟩ := h.mem_firsts
  have hfirsts : x ∈ [CharClass.among (.ofString "-"), .among (.between '0' '9')] := hx
  obtain rfl | rfl : x = .among (.ofString "-") ∨ x = .among (.between '0' '9') := by
    simpa using hfirsts
  · exact .inl (CharClass.contains_single_iff.mp hcontains)
  · exact .inr (.one hcontains)

/-- A sign and a digit are a number. -/
theorem matches_signed {d : Char} (h : Lexicon.digit.Matches [d]) :
    Lexicon.numberPattern.Matches ['-', d] := by
  have hsign : (Pattern.maybe (.text "-")).Matches ['-'] :=
    .left (Pattern.matches_text_iff.mpr rfl)
  have hdigits : (Pattern.many1 Lexicon.digit).Matches [d] := .seq h .zero
  exact .seq (.seq (.seq (.seq hsign hdigits) (.right .nothing)) .zero) (.right .nothing)

/-- Longest match goes on from a minus to a number. -/
theorem unglued_of_munched {ps : List Piece} (h : Munched ps) : ps.IsChain Unglued := by
  -- Induction on the pieces; a minus and a number in a row would be one match.
  induction ps with
  | nil => exact .nil
  | cons p ps ih =>
    refine List.isChain_cons.mpr ⟨fun q hq hboth => ?_, ih h.2⟩
    obtain ⟨qs, rfl⟩ := List.head?_eq_some_iff.mp hq
    obtain ⟨hminus, hnumber⟩ := hboth
    obtain ⟨hp, hq, -⟩ := h
    unfold MunchedBefore at hp hq
    rw [if_neg (by rw [hminus]; decide)] at hp
    rw [if_neg (by rw [hnumber]; decide)] at hq
    -- The pattern of a minus reads the sign only.
    obtain ⟨⟨⟨k, x⟩, hmem, rfl, hx⟩, -⟩ := Lexicon.longest_of_munch hp
    obtain ⟨⟨⟨k', y⟩, hmem', rfl, hy⟩, -⟩ := Lexicon.longest_of_munch hq
    obtain rfl := (entries_of_number _ hmem).1 hminus
    obtain rfl := (entries_of_number _ hmem').2 hnumber
    have hchars : p.chars = ['-'] := Pattern.matches_text_iff.mp hx
    cases hqchars : q.chars with
    | nil => exact absurd (hqchars ▸ hy) (Lexicon.not_matches_nil _ hmem')
    | cons c cs =>
      rw [hqchars] at hy
      -- Two minus signs are an operator of their own.
      have hlonger : ∃ e ∈ Lexicon.entries, e.2.Matches ['-', c] := by
        obtain rfl | hdigit := matches_number_cons hy
        · exact ⟨(.minusMinus, .text "--"), by decide, Pattern.matches_text_iff.mpr rfl⟩
        · exact ⟨(.number, Lexicon.numberPattern), by decide, matches_signed hdigit⟩
      obtain ⟨e, he, hmatch⟩ := hlonger
      obtain ⟨k, n, hmunch, hle⟩ := Pattern.munch_longest he hmatch (by simp) (cs ++ spell qs)
      rw [spell_cons, hqchars, hchars] at hp
      have hsame : some (k, n) = some (p.kind, 1) := hmunch.symm.trans hp
      cases hsame
      cases Nat.not_succ_le_self 1 hle

end Piece

namespace Token

/-! ## Tokens of a text -/

/-- The tokens are not empty and tile the text: each starts behind the text of those before it. -/
structure Tiles (source : String) (ts : List Token) : Prop where
  spelling_eq : spelling ts = source
  ne_empty : ∀ t ∈ ts, t.text ≠ ""
  start_eq : ∀ before t after, ts = before ++ t :: after →
    t.start = Text.byteLength (spelling before).toList

/-- The tokens of some pieces stand side by side. -/
theorem tiles_place {ps : List Piece} (h : ∀ p ∈ ps, p.chars ≠ []) (here : LineCol) :
    Tiles (String.ofList (Piece.spell ps)) (Piece.place 0 here ps) where
  spelling_eq := Piece.spelling_place 0 here ps
  ne_empty := by
    intro t ht hempty
    obtain ⟨-, p, hp, -, htext, -⟩ := Piece.exists_of_mem_place ht
    rw [hempty] at htext
    exact h p hp htext.symm
  start_eq := by
    intro before t after hsplit
    obtain ⟨ps, q, qs, rfl, rfl, rfl, -⟩ := Piece.place_eq_append_cons hsplit
    rw [Piece.spelling_place, String.toList_ofList, Nat.zero_add]

/-- Not both tokens are garbage. -/
def Unjoined (t u : Token) : Prop := ¬ (t.kind = .garbage ∧ u.kind = .garbage)

/-- The tokens of some pieces are garbage side by side only if the pieces are. -/
private theorem unjoined_place {ps : List Piece} (h : ps.IsChain Piece.Unjoined) (start : Nat)
    (here : LineCol) : (Piece.place start here ps).IsChain Unjoined := by
  have hkinds := (List.isChain_map (R := fun k k' : Kind => ¬ (k = .garbage ∧ k' = .garbage))
    (fun p : Piece => p.kind)).mpr h
  rw [← Piece.kinds_place start here, List.isChain_map] at hkinds
  exact hkinds

/-- Put each minus and the number that starts with its end together. -/
def rejoin : List Token → List Token
  | t :: u :: ts =>
    if t.kind = .minus ∧ u.kind = .number ∧ t.stop = u.start then
      ⟨.number, t.text ++ u.text, t.start, t.place⟩ :: rejoin ts
    else t :: rejoin (u :: ts)
  | ts => ts

/-- Only a minus and a number behind it are rejoined. -/
private theorem rejoin_cons {t : Token} {ts : List Token}
    (h : ∀ u ∈ ts.head?, ¬ (t.kind = .minus ∧ u.kind = .number)) :
    rejoin (t :: ts) = t :: rejoin ts := by
  cases ts with
  | nil => rfl
  | cons u ts => rw [rejoin, if_neg fun hglue => h u rfl ⟨hglue.1, hglue.2.1⟩]

/-- What has been cut off can be put back. -/
theorem rejoin_place_splitSigns {ps : List Piece} (h : ps.IsChain Piece.Unglued)
    (last : Option Kind) (start : Nat) (here : LineCol) :
    rejoin (Piece.place start here (Piece.splitSigns last ps)) = Piece.place start here ps := by
  induction ps generalizing last start here with
  | nil => rfl
  | cons p ps ih =>
    obtain ⟨hnext, hps⟩ := List.isChain_cons.mp h
    unfold Piece.splitSigns
    dsimp only
    split
    -- The number is cut, and the two tokens of it are joined again.
    · next hsplit =>
      rw [Bool.and_eq_true] at hsplit
      obtain ⟨hkind, hchars⟩ := Piece.eq_cons_of_isSigned hsplit.1
      generalize p.chars.tail = digits at hchars
      rw [Piece.place_cons, Piece.place_cons, rejoin, if_pos ⟨rfl, rfl, by simp [stop, width]⟩,
        ih hps, Piece.place_cons, hkind, hchars, Text.byteLength_cons, ← String.ofList_append]
      simp [Nat.add_assoc, LineCol.advance, Text.byteLength]
    -- The piece is kept, and no sign that ends it is joined to what follows.
    · rw [Piece.place_cons, Piece.place_cons, rejoin_cons, ih hps]
      rintro u hu ⟨hminus, hnumber⟩
      obtain ⟨q, hq, hkind⟩ := Piece.exists_of_mem_head_place hu
      obtain ⟨r, hr, rfl⟩ := Piece.kind_head_splitSigns hq (by rw [hkind, hnumber]; decide)
      exact hnext r hr ⟨hminus, hkind.trans hnumber⟩

/-- The tokens of a text tile it.  With the signs put back, nothing matches at any character of
    garbage, which is never side by side, and every other token is the longest text of a pattern
    there is, and of the kind that outranks all others with this text. -/
theorem lex_munched (source : String) :
    Tiles source (lex source) ∧ (lex source).IsChain Unjoined ∧
    Tiles source (rejoin (lex source)) ∧
    ∀ before t after, rejoin (lex source) = before ++ t :: after →
      (t.kind = .garbage → ∀ as bs, t.text.toList = as ++ bs → bs ≠ [] →
        ∀ e ∈ Lexicon.entries, ∀ cs, cs <+: bs ++ (spelling after).toList → ¬ e.2.Matches cs) ∧
      (t.kind ≠ .garbage → Lexicon.Longest t.kind t.text.toList (spelling after).toList) := by
  -- The pieces as scanned, before any sign is cut off.
  have hmunched := Piece.munched_gather (Piece.munched_scan source.toList)
  have hrejoin := rejoin_place_splitSigns (Piece.unglued_of_munched hmunched) none 0 .origin
  have hsolid := Piece.solid_gather (Piece.solid_scan source.toList)
  have htiles := tiles_place (Piece.ne_nil_of_mem_ofText source.toList) .origin
  have htiles' := tiles_place (fun p hp => (hsolid p hp).1) .origin
  rw [Piece.spell_ofText, String.ofList_toList] at htiles
  rw [Piece.spell_gather, Piece.spell_scan, String.ofList_toList, ← hrejoin] at htiles'
  refine ⟨htiles, unjoined_place (Piece.unjoined_splitSigns (Piece.unjoined_gather _) none) 0 _,
    htiles', fun before t after hsplit => ?_⟩
  rw [lex, Piece.ofText, hrejoin] at hsplit
  obtain ⟨ps, q, qs, hps, rfl, rfl, rfl⟩ := Piece.place_eq_append_cons hsplit
  rw [hps] at hmunched
  -- Joined tokens are the pieces, so the token is a longest match, or garbage.
  obtain ⟨hq, -⟩ := hmunched.of_append
  unfold Piece.MunchedBefore at hq
  rw [Piece.spelling_place, String.toList_ofList, String.toList_ofList]
  constructor
  · intro hkind as bs hchars hne e he cs hstart hmatch
    rw [if_pos hkind] at hq
    obtain ⟨tail, htail⟩ := hstart
    obtain ⟨k, n, hmunch, -⟩ := Pattern.munch_longest he hmatch (by
      rintro rfl
      exact Lexicon.not_matches_nil e he hmatch) tail
    rw [htail, hq as bs hchars hne] at hmunch
    cases hmunch
  · intro hkind
    rw [if_neg hkind] at hq
    exact Lexicon.longest_of_munch hq

/-- The lexer cuts the sign off `-1`, which is the longest match behind `a`. -/
theorem lex_munched_difference :
    rejoin (lex "a-1@") = [⟨.identifier, "a", 0, ⟨1, 1⟩⟩] ++ ⟨.number, "-1", 1, ⟨1, 2⟩⟩ ::
      [⟨.garbage, "@", 3, ⟨1, 4⟩⟩] ∧
    Lexicon.Longest .number ['-', '1'] ['@'] ∧ ¬ Lexicon.identifierPattern.Matches ['@'] := by
  have hrejoin : rejoin (lex "a-1@") = [⟨.identifier, "a", 0, ⟨1, 1⟩⟩] ++
      ⟨.number, "-1", 1, ⟨1, 2⟩⟩ :: [⟨.garbage, "@", 3, ⟨1, 4⟩⟩] := by decide +kernel
  have htokens := (lex_munched "a-1@").2.2.2
  refine ⟨hrejoin, (htokens _ _ _ hrejoin).2 (by decide), ?_⟩
  exact (htokens [⟨.identifier, "a", 0, ⟨1, 1⟩⟩, ⟨.number, "-1", 1, ⟨1, 2⟩⟩] _ [] hrejoin).1 rfl
    [] ['@'] rfl (by simp) (.identifier, Lexicon.identifierPattern) (by decide) ['@'] (by simp)

end Token

end ScriptTree
