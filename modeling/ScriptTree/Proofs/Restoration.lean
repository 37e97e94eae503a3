import Mathlib
import ScriptTree.Parser
import ScriptTree.Proofs.Operations
import ScriptTree.Proofs.TokenStream

/-!
# Tokens restored from their spans

`Token.restore` reads the gaps between the given tokens as texts of their own.  A gap between two
tokens of the source starts and ends between two pieces, so it has the same pieces as within the
source (`Piece.scan_append`), errors included.

`Piece.weave` is the view: given pieces with the texts between them, and what comes of it when the
texts are read.

## Key results

- `Token.restore_marks`: restoring is weaving
- `Mark.exists_marks`: marks that follow the order of the source come from given pieces
- `Token.restore_eq_ok`: the tokens that are restored spell out the source
- `Piece.exists_weave`: the pieces of a text are woven from those that the grammar sees
-/

namespace ScriptTree

open Text

namespace Piece

/-! ## Weaving -/

/-- The pieces of a text of which some are given, each with the text before it; `last` is the text
    after the last one. -/
def weave (last : List Char) : List (List Char × Piece) → List Piece
  | [] => ofText last
  | (gap, p) :: given => ofText gap ++ p :: weave last given

/-- Kinds and spans of given pieces. -/
def marks (start : Nat) : List (List Char × Piece) → List Mark
  | [] => []
  | (gap, p) :: given =>
    let first := start + byteLength gap
    ⟨p.kind, ⟨first, first + byteLength p.chars, Nat.le_add_right _ _⟩⟩ ::
      marks (first + byteLength p.chars) given

/-- Kind and width of a piece. -/
def tile (p : Piece) : Kind × Nat := (p.kind, byteLength p.chars)

@[simp] theorem ofText_nil : ofText [] = [] := by rw [ofText, scan]; rfl

/-- To split a text at the end of its first part gives the parts. -/
theorem splitBytes_append (as bs : List Char) :
    splitBytes (as ++ bs) (byteLength as) = some (as, bs) :=
  splitBytes_eq_some_iff.mpr ⟨rfl, rfl⟩

/-- Pieces can be cut out of their text again. -/
private theorem cut_map_tile (ps : List Piece) : cut (spell ps) (ps.map tile) = .ok ps := by
  induction ps with
  | nil => rfl
  | cons p ps ih =>
    rw [List.map_cons, spell_cons, tile, cut, splitBytes_append]
    dsimp only
    rw [ih]
    rfl

end Piece

namespace Mark

/-- A gap is read as a text of its own. -/
private theorem fill_append (before gap after : List Char) :
    fill (before ++ (gap ++ after)) (byteLength before) (byteLength before + byteLength gap) =
      .ok ((Piece.ofText gap).map Piece.tile) := by
  unfold fill
  split
  case isTrue h =>
    have hslice : sliceBytes (before ++ (gap ++ after)) (byteLength before)
        (byteLength before + byteLength gap) = some gap := by
      unfold sliceBytes
      rw [Piece.splitBytes_append, Nat.add_sub_cancel_left]
      simp [Piece.splitBytes_append]
    rw [hslice]
    rfl
  case isFalse h =>
    obtain rfl : gap = [] := eq_nil_of_byteLength (by omega)
    rw [Piece.ofText_nil]
    rfl

/-- Marks of given pieces have the tiles of the woven pieces. -/
private theorem tiles_marks (before last : List Char) (given : List (List Char × Piece)) :
    tiles (before ++ Piece.spell (Piece.weave last given)) (byteLength before)
        (Piece.marks (byteLength before) given) =
      .ok ((Piece.weave last given).map Piece.tile) := by
  -- Induction on what is given: a gap, the piece behind it, and the rest.
  induction given generalizing before with
  | nil =>
    have h := fill_append before last []
    rw [List.append_nil] at h
    rw [Piece.marks, tiles, Piece.weave, Piece.spell_ofText, byteLength_append, h]
  | cons first given ih =>
    obtain ⟨gap, p⟩ := first
    have htext : before ++ Piece.spell (Piece.weave last ((gap, p) :: given)) =
        (before ++ gap ++ p.chars) ++ Piece.spell (Piece.weave last given) := by
      simp [Piece.weave]
    have hfill := fill_append before gap (p.chars ++ Piece.spell (Piece.weave last given))
    have hlater := ih (before ++ gap ++ p.chars)
    rw [← htext] at hlater
    simp only [byteLength_append] at hlater
    have hfill' : fill (before ++ Piece.spell (Piece.weave last ((gap, p) :: given)))
        (byteLength before) (byteLength before + byteLength gap) =
          .ok ((Piece.ofText gap).map Piece.tile) := by
      rw [← hfill, htext]
      simp
    rw [Piece.marks, tiles]
    dsimp only
    -- The mark does not overlap what is before it, and the gap is scanned as it was.
    rw [if_neg (by omega), hfill']
    simp only [bind, Except.bind, hlater]
    simp [Piece.weave, Piece.tile, Span.length, pure, Except.pure]

end Mark

namespace Token

/-- Restoring the tokens of given pieces weaves the pieces. -/
theorem restore_marks {source : String} {last : List Char} {given : List (List Char × Piece)}
    (h : source.toList = Piece.spell (Piece.weave last given)) :
    Token.restore source (Piece.marks 0 given) =
      .ok (Piece.place 0 .origin (Piece.weave last given)) := by
  have htiles := Mark.tiles_marks [] last given
  rw [List.nil_append, byteLength_nil] at htiles
  rw [Token.restore, h, htiles]
  simp only [bind, Except.bind, Piece.cut_map_tile]
  rfl

end Token

namespace Piece

/-! ## The pieces of a text are woven from those that the grammar sees -/

/-- Joined pieces come from parts of the list. -/
private theorem gather_eq_append {ps xs ys : List Piece} (h : gather ps = xs ++ ys) :
    ∃ as bs, ps = as ++ bs ∧ gather as = xs ∧ gather bs = ys := by
  induction ps generalizing xs with
  | nil =>
    obtain ⟨rfl, rfl⟩ := List.append_eq_nil_iff.mp h.symm
    exact ⟨[], [], rfl, rfl, rfl⟩
  | cons p ps ih =>
    cases xs with
    | nil => exact ⟨[], p :: ps, rfl, rfl, h⟩
    | cons x xs =>
      rw [List.cons_append] at h
      unfold gather at h
      split at h
      case h_1 cs qs hkind hgather =>
        -- The joined piece starts with `p`, the rest of it is the first joined piece of `ps`.
        obtain ⟨rfl, rfl⟩ := List.cons.inj h
        have hjoined : gather ps = (⟨.garbage, cs⟩ :: xs) ++ ys := hgather
        obtain ⟨as, bs, rfl, has, hbs⟩ := ih hjoined
        refine ⟨p :: as, bs, rfl, ?_, hbs⟩
        rw [gather, hkind, has]
      -- Nothing is joined, so the first piece is one of its own.
      case h_2 hne =>
        obtain ⟨rfl, hrest⟩ := List.cons.inj h
        obtain ⟨as, bs, rfl, has, hbs⟩ := ih hrest
        refine ⟨p :: as, bs, rfl, ?_, hbs⟩
        unfold gather
        split
        case h_1 cs qs hkind hgather =>
          rw [has] at hgather
          rw [hgather] at hrest
          exact (hne cs (qs ++ ys) hkind hrest).elim
        case h_2 => rw [has]

/-- A piece that is not garbage is not joined with others. -/
theorem gather_eq_cons {ps ys : List Piece} {q : Piece} (h : gather ps = q :: ys)
    (hq : q.kind ≠ .garbage) : ∃ qs, ps = q :: qs ∧ gather qs = ys := by
  cases ps with
  | nil => cases h
  | cons p ps =>
    unfold gather at h
    split at h
    case h_1 =>
      obtain ⟨rfl, -⟩ := List.cons.inj h
      exact absurd rfl hq
    case h_2 =>
      obtain ⟨rfl, hrest⟩ := List.cons.inj h
      exact ⟨ps, rfl, hrest⟩

/-- Skipped pieces are no numbers, and do not change what a sign after them means. -/
private theorem splitSigns_append {last : Option Kind} {gs ps : List Piece}
    (hgs : ∀ p ∈ gs, p.kind.isSkipped = true) :
    splitSigns last (gs ++ ps) = gs ++ splitSigns last ps := by
  induction gs with
  | nil => rfl
  | cons p gs ih =>
    have hp : p.kind.isSkipped = true := hgs p List.mem_cons_self
    have hsigned : p.isSigned = false := by
      cases hs : p.isSigned with
      | false => rfl
      | true =>
        rw [(eq_cons_of_isSigned hs).1] at hp
        cases hp
    rw [List.cons_append, splitSigns, hsigned, hp]
    simp only [Bool.false_and, Bool.false_eq_true, ↓reduceIte, List.cons_append]
    rw [ih fun q hq => hgs q (List.mem_cons_of_mem p hq)]

/-- Skipped pieces at the start of a text are the pieces of their own text. -/
private theorem ofText_spell {cs : List Char} {gs ps : List Piece} (h : gather (scan cs) = gs ++ ps)
    (hgs : ∀ p ∈ gs, p.kind.isSkipped = true) : ofText (spell gs) = gs := by
  obtain ⟨as, bs, hscan, has, -⟩ := gather_eq_append h
  have hspell : spell gs = spell as := by rw [← has, spell_gather]
  have hnone : splitSigns none (gs ++ []) = gs ++ splitSigns none [] := splitSigns_append hgs
  rw [List.append_nil, splitSigns, List.append_nil] at hnone
  rw [ofText, hspell, (scan_append hscan).1, has, hnone]

/-- All given pieces are seen by the grammar, and between them there is nothing that it sees. -/
def Sifted (last : List Char) (given : List (List Char × Piece)) : Prop :=
  (∀ p ∈ ofText last, p.kind.isSkipped = true) ∧
    ∀ x ∈ given, x.2.kind.isSkipped = false ∧ ∀ p ∈ ofText x.1, p.kind.isSkipped = true

/-- Pieces with the skipped ones at the front apart. -/
private theorem exists_skipped_append (ps : List Piece) : ∃ gs rest, ps = gs ++ rest ∧
    (∀ p ∈ gs, p.kind.isSkipped = true) ∧ ∀ q ∈ rest.head?, q.kind.isSkipped = false := by
  induction ps with
  | nil => exact ⟨[], [], rfl, by simp, by simp⟩
  | cons p ps ih =>
    cases hp : p.kind.isSkipped with
    | false => exact ⟨[], p :: ps, rfl, by simp, by simpa using hp⟩
    | true =>
      obtain ⟨gs, rest, rfl, hgs, hrest⟩ := ih
      exact ⟨p :: gs, rest, rfl, by simpa [hp] using hgs, hrest⟩

/-- The pieces of a text are woven from those that the grammar sees. -/
theorem exists_weave (cs : List Char) (sign : Option Kind) :
    ∃ last given, Sifted last given ∧ weave last given = splitSigns sign (gather (scan cs)) := by
  -- Induction on the text; each step takes one gap and the significant piece behind it.
  induction hlen : cs.length using Nat.strongRecOn generalizing cs sign with
  | ind n ih =>
    obtain ⟨gs, rest, hgather, hgs, hrest⟩ := exists_skipped_append (gather (scan cs))
    have hgap := ofText_spell hgather hgs
    rw [hgather, splitSigns_append hgs]
    cases rest with
    -- There are skipped pieces only.
    | nil =>
      refine ⟨spell gs, [], ⟨by rwa [hgap], by simp⟩, ?_⟩
      rw [weave, hgap, splitSigns, List.append_nil]
    -- A significant piece follows the gap, and the scan goes on behind it.
    | cons q qs =>
      have hq : q.kind.isSkipped = false := hrest q rfl
      obtain ⟨as, bs, hscan, -, hbs⟩ := gather_eq_append hgather
      obtain ⟨bs, rfl, hqs⟩ := gather_eq_cons hbs (by rintro hg; rw [hg] at hq; cases hq)
      obtain ⟨tail, htail, hleads, hnext⟩ := scan_eq_cons (scan_append hscan).2
      obtain rfl : spell bs = tail := List.append_cancel_left (by rwa [spell_cons] at htail)
      have hshort : (spell bs).length < n := by
        have hpos := hleads.length_pos
        have hcs : cs.length = (spell as).length + (q.chars.length + (spell bs).length) := by
          rw [← spell_scan cs, hscan, spell_append, spell_cons, List.length_append,
            List.length_append]
        omega
      obtain ⟨last, given, ⟨hlast, hgiven⟩, hweave⟩ := ih _ hshort (spell bs) (some q.kind) rfl
      rw [hnext, hqs] at hweave
      rw [splitSigns, hq]
      simp only [Bool.false_eq_true, ↓reduceIte]
      split
      · -- A number that is cut gives two pieces with nothing in between.
        refine ⟨last, (spell gs, ⟨.minus, ['-']⟩) :: ([], ⟨.number, q.chars.tail⟩) :: given,
          ⟨hlast, ?_⟩, ?_⟩
        · intro x hx
          rcases List.mem_cons.mp hx with rfl | hx
          · exact ⟨rfl, by rwa [hgap]⟩
          · rcases List.mem_cons.mp hx with rfl | hx
            · exact ⟨rfl, by simp [ofText_nil]⟩
            · exact hgiven x hx
        · rw [weave, weave, hgap, hweave, ofText_nil]
          rfl
      -- Any other piece is given as it is.
      · refine ⟨last, (spell gs, q) :: given, ⟨hlast, ?_⟩, by rw [weave, hgap, hweave]⟩
        intro x hx
        rcases List.mem_cons.mp hx with rfl | hx
        · exact ⟨hq, by rwa [hgap]⟩
        · exact hgiven x hx

/-! ## Tokens and their marks -/

/-- The grammar sees nothing of skipped pieces. -/
private theorem significant_place {ps : List Piece} (h : ∀ p ∈ ps, p.kind.isSkipped = true)
    (start : Nat) (here : LineCol) : Token.significant (place start here ps) = [] := by
  induction ps generalizing start here with
  | nil => rfl
  | cons p ps ih =>
    have hp : p.kind.isSkipped = true := h p List.mem_cons_self
    rw [place, Token.significant, List.filter_cons_of_neg (by simp [hp])]
    exact ih (fun q hq => h q (List.mem_cons_of_mem p hq)) _ _

/-- The marks of the tokens that the grammar sees are those of the given pieces. -/
private theorem marks_significant_place {last : List Char} {given : List (List Char × Piece)}
    (h : Sifted last given) (start : Nat) (here : LineCol) :
    (Token.significant (place start here (weave last given))).map Token.mark =
      marks start given := by
  obtain ⟨hlast, hgiven⟩ := h
  -- Induction on what is given.
  induction given generalizing start here with
  | nil => rw [weave, significant_place hlast]; rfl
  | cons first given ih =>
    obtain ⟨gap, p⟩ := first
    obtain ⟨hp, hgap⟩ := hgiven (gap, p) List.mem_cons_self
    -- The gap before the piece is placed first; the grammar sees none of it.
    have hplace := place_append start here (ofText gap) (p :: weave last given)
    generalize here.advance (String.ofList (spell (ofText gap))) = here' at hplace
    have happend : ∀ ts us : List Token,
        Token.significant (ts ++ us) = Token.significant ts ++ Token.significant us :=
      fun ts us => List.filter_append ts us
    rw [weave, hplace, happend, significant_place hgap, List.nil_append, place, spell_ofText,
      Token.significant, List.filter_cons_of_pos (by simpa using hp), List.map_cons, marks]
    have hrest := ih (start + byteLength gap + byteLength p.chars)
      (here'.advance (String.ofList p.chars)) fun x hx => hgiven x (List.mem_cons_of_mem _ hx)
    congr 1
    · simp [Token.mark, Token.span, Token.stop, Token.width]
    · simpa [Token.stop, Token.width, Token.significant] using hrest

/-- The given pieces are among the tokens, with their kinds and spans. -/
theorem marks_sublist_place (last : List Char) (given : List (List Char × Piece)) (start : Nat)
    (here : LineCol) :
    (marks start given).Sublist ((place start here (weave last given)).map Token.mark) := by
  induction given generalizing start here with
  | nil => exact List.nil_sublist _
  | cons first given ih =>
    obtain ⟨gap, p⟩ := first
    have hplace := place_append start here (ofText gap) (p :: weave last given)
    generalize here.advance (String.ofList (spell (ofText gap))) = here' at hplace
    have hrest := ih (start + byteLength gap + byteLength p.chars)
      (here'.advance (String.ofList p.chars))
    rw [weave, hplace, List.map_append, spell_ofText, place, List.map_cons, marks]
    refine List.Sublist.trans ?_ (List.sublist_append_right _ _)
    have hmark : Token.mark ⟨p.kind, String.ofList p.chars, start + byteLength gap, here'⟩ =
        ⟨p.kind, ⟨start + byteLength gap, start + byteLength gap + byteLength p.chars,
          Nat.le_add_right _ _⟩⟩ := by
      simp [Token.mark, Token.span, Token.stop, Token.width]
    rw [hmark]
    exact List.Sublist.cons_cons _ (by simpa [Token.stop, Token.width] using hrest)

end Piece

/-! ## Marks that follow the order of the source -/

/-- The offset falls between two characters. -/
def Text.IsBoundary (cs : List Char) (n : Nat) : Prop := (splitBytes cs n).isSome = true

instance (cs : List Char) (n : Nat) : Decidable (Text.IsBoundary cs n) :=
  inferInstanceAs (Decidable (_ = true))

/-- Marks in source order that do not overlap, leave the source or cut a character. -/
def Mark.Fit (source : List Char) (marks : List Mark) : Prop :=
  (∀ m ∈ marks, IsBoundary source m.span.start ∧ IsBoundary source m.span.stop) ∧
    marks.Pairwise fun a b => a.span.stop ≤ b.span.start

instance (source : List Char) (marks : List Mark) : Decidable (Mark.Fit source marks) :=
  inferInstanceAs (Decidable (_ ∧ _))

/-- A boundary behind another one. -/
theorem Text.IsBoundary.exists_append {before after : List Char} {n : Nat}
    (h : IsBoundary (before ++ after) n) (hn : byteLength before ≤ n) :
    ∃ gap rest, after = gap ++ rest ∧ n = byteLength before + byteLength gap := by
  obtain ⟨⟨as, bs⟩, hsplit⟩ := Option.isSome_iff_exists.mp h
  obtain ⟨hcs, rfl⟩ := splitBytes_eq_some_iff.mp hsplit
  obtain ⟨gap, rfl, rfl⟩ | ⟨gap, rfl, rfl⟩ := List.append_eq_append_iff.mp hcs
  · exact ⟨gap, bs, rfl, byteLength_append before gap⟩
  · -- The text between the two boundaries has no bytes.
    rw [byteLength_append] at hn
    obtain rfl : gap = [] := eq_nil_of_byteLength (by omega)
    exact ⟨[], after, rfl, by simp⟩

/-- Marks that fit are those of given pieces. -/
theorem Mark.exists_marks {before after : List Char} {ms : List Mark}
    (hfit : Mark.Fit (before ++ after) ms) (hstart : ∀ m ∈ ms, byteLength before ≤ m.span.start) :
    ∃ last given, after = Piece.spell (Piece.weave last given) ∧
      ms = Piece.marks (byteLength before) given := by
  -- Induction on the marks: what stands before a mark is its gap.
  induction ms generalizing before after with
  | nil => exact ⟨after, [], by rw [Piece.weave, Piece.spell_ofText], rfl⟩
  | cons m ms ih =>
    obtain ⟨hbounds, horder⟩ := hfit
    obtain ⟨hfirst, horder⟩ := List.pairwise_cons.mp horder
    obtain ⟨⟨hmstart, hmstop⟩, hms⟩ := List.forall_mem_cons.mp hbounds
    obtain ⟨gap, rest, rfl, hgap⟩ := hmstart.exists_append (hstart m List.mem_cons_self)
    have hstop : byteLength (before ++ gap) ≤ m.span.stop := by
      rw [byteLength_append, ← hgap]
      exact m.span.start_le_stop
    rw [← List.append_assoc] at hmstop hms
    -- The text of the mark.
    obtain ⟨chars, rest, rfl, hchars⟩ := hmstop.exists_append hstop
    rw [← List.append_assoc] at hms
    -- The marks after the first one start behind its text.
    obtain ⟨last, given, hrest, hgiven⟩ := ih ⟨hms, horder⟩ (by
      intro n hn
      rw [byteLength_append, ← hchars]
      exact hfirst n hn)
    refine ⟨last, (gap, ⟨m.kind, chars⟩) :: given, ?_, ?_⟩
    · rw [Piece.weave, Piece.spell_append, Piece.spell_ofText, Piece.spell_cons, ← hrest]
    · rw [byteLength_append] at hchars
      rw [Piece.marks, hgiven]
      obtain ⟨kind, start, stop, hle⟩ := m
      dsimp only at hgap hchars ⊢
      subst hgap hchars
      simp [Nat.add_assoc]

/-! ## Restored tokens spell out the source

Marks that overlap, leave the source or cut a character are refused, some of them only when the
pieces are cut.  So the tokens that are restored are pieces that make up the source. -/

/-- A slice is as long as its offsets say. -/
private theorem Text.byteLength_of_sliceBytes {cs slice : List Char} {start stop : Nat}
    (h : sliceBytes cs start stop = some slice) : byteLength slice = stop - start := by
  simp only [sliceBytes, bind, Option.bind_eq_some_iff, Prod.exists, pure, Option.some.injEq] at h
  obtain ⟨-, tail, -, slice', rest, hsplit, rfl⟩ := h
  exact (splitBytes_eq_some_iff.mp hsplit).2

/-- Pieces are as wide as their text. -/
private theorem Piece.sum_tile (ps : List Piece) :
    ((ps.map tile).map (·.2)).sum = byteLength (spell ps) := by
  induction ps with
  | nil => rfl
  | cons p ps ih =>
    rw [List.map_cons, List.map_cons, List.sum_cons, ih, spell_cons, byteLength_append, tile]

/-- Pieces that are cut are the start of the text, and as wide as was asked for. -/
private theorem Piece.cut_eq_ok {cs : List Char} {tiles : List (Kind × Nat)} {ps : List Piece}
    (h : cut cs tiles = .ok ps) :
    ∃ rest, cs = spell ps ++ rest ∧ byteLength (spell ps) = (tiles.map (·.2)).sum := by
  induction tiles generalizing cs ps with
  | nil =>
    cases h
    exact ⟨cs, rfl, rfl⟩
  | cons t tiles ih =>
    rw [cut] at h
    split at h
    · next piece rest hsplit =>
      obtain ⟨qs, hcut, h⟩ := bind_eq_ok_iff.mp h
      cases h
      obtain ⟨rfl, hwidth⟩ := splitBytes_eq_some_iff.mp hsplit
      obtain ⟨rest, rfl, hsum⟩ := ih hcut
      exact ⟨rest, by simp, by simp [hsum, hwidth]⟩
    · cases h

namespace Mark

/-- A gap is filled up to its end. -/
private theorem le_of_fill {source : List Char} {start stop : Nat} {tiles : List (Kind × Nat)}
    (h : fill source start stop = .ok tiles) : stop ≤ start + (tiles.map (·.2)).sum := by
  unfold fill at h
  split at h
  · split at h
    · next gap hslice =>
      cases h
      have hsum := Piece.sum_tile (Piece.ofText gap)
      rw [Piece.spell_ofText, byteLength_of_sliceBytes hslice] at hsum
      exact Nat.sub_le_iff_le_add'.mp (Nat.le_of_eq hsum.symm)
    · cases h
  · omega

/-- All tokens together reach the end of the source. -/
private theorem le_of_tiles {source : List Char} {marks : List Mark} {cursor : Nat}
    {ts : List (Kind × Nat)} (h : tiles source cursor marks = .ok ts) :
    byteLength source ≤ cursor + (ts.map (·.2)).sum := by
  induction marks generalizing cursor ts with
  | nil => exact le_of_fill h
  | cons m marks ih =>
    rw [tiles] at h
    split at h
    · cases h
    · obtain ⟨gap, hgap, h⟩ := bind_eq_ok_iff.mp h
      obtain ⟨later, hlater, h⟩ := bind_eq_ok_iff.mp h
      cases h
      have hstart := le_of_fill hgap
      have hrest := ih hlater
      have hlength : m.span.length = m.span.stop - m.span.start := rfl
      simp only [List.map_append, List.map_cons, List.sum_append, List.sum_cons]
      omega

end Mark

/-- Whatever the marks are, the tokens that are restored stand one after the other and spell out the
    source. -/
theorem Token.restore_eq_ok {source : String} {marks : List Mark} {tokens : List Token}
    (h : Token.restore source marks = .ok tokens) :
    ∃ pieces, tokens = Piece.place 0 .origin pieces ∧ Piece.spell pieces = source.toList := by
  obtain ⟨tiles, htiles, h⟩ := bind_eq_ok_iff.mp h
  obtain ⟨pieces, hcut, h⟩ := bind_eq_ok_iff.mp h
  cases h
  obtain ⟨rest, hsource, hsum⟩ := Piece.cut_eq_ok hcut
  refine ⟨pieces, rfl, ?_⟩
  -- The pieces are as wide as the source, so nothing is left behind them.
  have hreach := Mark.le_of_tiles htiles
  have hwidth : byteLength source.toList = byteLength (Piece.spell pieces) + byteLength rest := by
    rw [hsource, byteLength_append]
  obtain rfl : rest = [] := eq_nil_of_byteLength (by omega)
  rw [hsource, List.append_nil]

/-! ## Restoring what the tokenizer dropped -/

/-- What lies between the tokens that the grammar sees is read anew as it was read before. -/
private theorem Token.restore_significant (source : String) :
    Token.restore source ((Token.significant (Token.lex source)).map Token.mark) =
      .ok (Token.lex source) := by
  obtain ⟨last, given, hsifted, hweave⟩ := Piece.exists_weave source.toList none
  have hpieces : Piece.weave last given = Piece.ofText source.toList := hweave
  have hmarks := Piece.marks_significant_place hsifted 0 .origin
  have hspell : source.toList = Piece.spell (Piece.weave last given) := by
    rw [hpieces, Piece.spell_ofText]
  have hrestore := Token.restore_marks hspell
  rw [hpieces] at hmarks hrestore
  rw [Token.lex, hmarks, hrestore]

/-- The tokens of the tokenizer stand for the source: all tokens come back, and a parse that starts
    from them is the parse of the source. -/
theorem parseTokens_tokenize (source : String) :
    Token.restore source ((Token.tokenize source).1.map Token.mark) = .ok (Token.lex source) ∧
      ∀ o : Options,
        parseTokens o source ((Token.tokenize source).1.map Token.mark) = parse o source := by
  have hrestore := Token.restore_significant source
  refine ⟨hrestore, fun o => ?_⟩
  rw [parseTokens, Token.tokenize, hrestore]
  rfl

end ScriptTree
