import Mathlib
import ScriptTree.Proofs.Restoration

/-!
# Places of tokens

The place of a token is found on the way, by walking over the text of the tokens before it.  A line
index finds it from the offset alone: it counts the line starts up to there, and then the characters
of the last line.

Both depend on nothing but the text in front of the token, and that is made up of whole characters.

## Key results

- `LineIndex.lineCol_byteLength`: looking up an offset is walking over the text in front of it
- `Token.lineCol_start`: so the places of tokens are those of their offsets
-/

namespace ScriptTree

open Text

/-! ## Offsets between characters -/

/-- The end of a part of the text is a boundary. -/
theorem Text.floorBoundary_append (before after : List Char) :
    floorBoundary (before ++ after) (byteLength before) = byteLength before := by
  induction before with
  | nil =>
    cases after with
    | nil => rfl
    | cons c cs => simp [floorBoundary, c.utf8Size_pos]
  | cons c before ih =>
    rw [List.cons_append, floorBoundary, byteLength_cons, if_neg (by omega),
      Nat.add_sub_cancel_left, ih]

/-- A slice from boundary to boundary is the text between them. -/
theorem Text.sliceBytes_append (head slice tail : List Char) :
    sliceBytes (head ++ (slice ++ tail)) (byteLength head) (byteLength head + byteLength slice) =
      some slice := by
  simp [sliceBytes, Piece.splitBytes_append]

namespace LineIndex

/-! ## Line starts -/

/-- The lines of two texts start where those of each start. -/
theorem startsFrom_append (offset : Nat) (as bs : List Char) :
    startsFrom offset (as ++ bs) =
      startsFrom offset as ++ startsFrom (offset + byteLength as) bs := by
  induction as generalizing offset with
  | nil => rfl
  | cons c as ih =>
    rw [List.cons_append, startsFrom, startsFrom, byteLength_cons, ← Nat.add_assoc]
    split
    · rw [ih, List.cons_append]
    · exact ih _

/-- A line starts behind a character of the text. -/
theorem bounds_of_mem_startsFrom {offset n : Nat} {cs : List Char} (h : n ∈ startsFrom offset cs) :
    offset < n ∧ n ≤ offset + byteLength cs := by
  induction cs generalizing offset with
  | nil => cases h
  | cons c cs ih =>
    have hpos := c.utf8Size_pos
    rw [byteLength_cons]
    unfold startsFrom at h
    split at h
    · obtain rfl | h := List.mem_cons.mp h
      · omega
      · have := ih h
        omega
    · have := ih h
      omega

/-- The line starts up to an offset are those of the text in front of it. -/
private theorem takeWhile_starts (before after : List Char) :
    (0 :: startsFrom 0 (before ++ after)).takeWhile (· ≤ byteLength before) =
      0 :: startsFrom 0 before := by
  have hbefore : ∀ n ∈ startsFrom 0 before, decide (n ≤ byteLength before) = true := by
    intro n hn
    have := bounds_of_mem_startsFrom hn
    exact decide_eq_true (by omega)
  have hafter :
      (startsFrom (0 + byteLength before) after).takeWhile (· ≤ byteLength before) = [] := by
    cases hstarts : startsFrom (0 + byteLength before) after with
    | nil => rfl
    | cons n starts =>
      have := bounds_of_mem_startsFrom (hstarts ▸ List.mem_cons_self)
      exact List.takeWhile_cons_of_neg (by simpa using by omega)
  rw [List.takeWhile_cons_of_pos (by simp), startsFrom_append, List.takeWhile_append_of_pos hbefore,
    hafter, List.append_nil]

/-- A text ends with a line of its own.  The walk over the text comes to the number of that line,
    and to the column after its characters. -/
theorem exists_lastLine (cs : List Char) : ∃ lines last, cs = lines ++ last ∧
    (0 :: startsFrom 0 cs).getLast? = some (byteLength lines) ∧
      cs.foldl LineCol.step .origin = ⟨(0 :: startsFrom 0 cs).length, last.length + 1⟩ := by
  induction cs using List.reverseRecOn with
  | nil => exact ⟨[], [], rfl, rfl, rfl⟩
  | append_singleton cs c ih =>
    obtain ⟨lines, last, hcs, hstart, hwalk⟩ := ih
    have hstarts : startsFrom 0 (cs ++ [c]) = startsFrom 0 cs ++
        if c = '\n' then [byteLength (cs ++ [c])] else [] := by
      rw [startsFrom_append, startsFrom, startsFrom, byteLength_append]
      simp
    rw [List.foldl_append, hwalk, List.foldl_cons, List.foldl_nil, LineCol.step]
    by_cases hbreak : c = '\n'
    · rw [if_pos hbreak] at hstarts ⊢
      refine ⟨cs ++ [c], [], by simp, ?_, by simp [hstarts]⟩
      rw [hstarts, ← List.cons_append, List.getLast?_concat]
    · rw [if_neg hbreak, List.append_nil] at hstarts
      rw [if_neg hbreak, hstarts]
      exact ⟨lines, last ++ [c], by simp [hcs], hstart, by simp⟩

/-- Looking up an offset between two characters is walking over the text in front of it. -/
theorem lineCol_byteLength (before after : List Char) :
    (ofText (String.ofList (before ++ after))).lineCol (byteLength before) =
      LineCol.origin.advance (String.ofList before) := by
  obtain ⟨lines, last, hbefore, hstart, hwalk⟩ := exists_lastLine before
  have hslice :
      sliceBytes (before ++ after) (byteLength lines) (byteLength before) = some last := by
    rw [hbefore, byteLength_append, List.append_assoc, sliceBytes_append]
  rw [lineCol, ofText, String.toList_ofList, floorBoundary_append, LineCol.advance,
    String.toList_ofList, hwalk]
  simp only [takeWhile_starts, hstart, Option.getD_some, hslice]

end LineIndex

/-! ## Tokens -/

namespace Piece

/-- Where pieces spell out a source, the places of their tokens are those of their offsets. -/
private theorem lineCol_of_mem_place {source : String} {ps : List Piece}
    (hspell : source.toList = spell ps) {t : Token} (h : t ∈ place 0 .origin ps) :
    (LineIndex.ofText source).lineCol t.start = t.place := by
  obtain ⟨before, p, -, after, -, hsplit, hstart, hplace⟩ := exists_of_mem_place h
  rw [List.append_assoc] at hsplit
  rw [hstart, hplace, Nat.zero_add, ← LineIndex.lineCol_byteLength _ (p.chars ++ after), ← hsplit,
    ← hspell, String.ofList_toList]

end Piece

/-- The place of a token is what the line index says of its offset, for all tokens of a source, for
    those that the grammar sees, and for the tokens that are restored from some of them. -/
theorem Token.lineCol_start (source : String) :
    (∀ t ∈ Token.lex source, (LineIndex.ofText source).lineCol t.start = t.place) ∧
    (∀ t ∈ (Token.tokenize source).1, (LineIndex.ofText source).lineCol t.start = t.place) ∧
    ∀ marks, Mark.Fit source.toList marks → ∃ tokens, Token.restore source marks = .ok tokens ∧
      ∀ t ∈ tokens, (LineIndex.ofText source).lineCol t.start = t.place := by
  have hlex : ∀ t ∈ Token.lex source, (LineIndex.ofText source).lineCol t.start = t.place :=
    fun t ht => Piece.lineCol_of_mem_place (Piece.spell_ofText _).symm ht
  refine ⟨hlex, fun t ht => hlex t (List.mem_filter.mp ht).1, fun marks hfit => ?_⟩
  have hall : Mark.Fit ([] ++ source.toList) marks := hfit
  obtain ⟨last, given, hsource, rfl⟩ := Mark.exists_marks hall (by simp)
  exact ⟨_, Token.restore_marks hsource, fun t ht => Piece.lineCol_of_mem_place hsource ht⟩

/-- A token with a line break in it, and what was left out behind it. -/
theorem Token.lineCol_start_backQuoted :
    Mark.Fit "\x60é\n\x60@ é".toList [⟨.backQuoted, ⟨0, 5, by decide⟩⟩] ∧
    Token.restore "\x60é\n\x60@ é" [⟨.backQuoted, ⟨0, 5, by decide⟩⟩] =
      .ok [⟨.backQuoted, "\x60é\n\x60", 0, ⟨1, 1⟩⟩, ⟨.garbage, "@", 5, ⟨2, 2⟩⟩,
        ⟨.whitespace, " ", 6, ⟨2, 3⟩⟩, ⟨.garbage, "é", 7, ⟨2, 4⟩⟩] ∧
    (LineIndex.ofText "\x60é\n\x60@ é").lineCol 7 = ⟨2, 4⟩ := by
  have hfit : Mark.Fit "\x60é\n\x60@ é".toList [⟨.backQuoted, ⟨0, 5, by decide⟩⟩] := by decide
  have htokens : Token.restore "\x60é\n\x60@ é" [⟨.backQuoted, ⟨0, 5, by decide⟩⟩] =
      .ok [⟨.backQuoted, "\x60é\n\x60", 0, ⟨1, 1⟩⟩, ⟨.garbage, "@", 5, ⟨2, 2⟩⟩,
        ⟨.whitespace, " ", 6, ⟨2, 3⟩⟩, ⟨.garbage, "é", 7, ⟨2, 4⟩⟩] := by decide +kernel
  obtain ⟨tokens, hrestore, hplaces⟩ := (Token.lineCol_start "\x60é\n\x60@ é").2.2 _ hfit
  rw [htokens] at hrestore
  cases hrestore
  exact ⟨hfit, htokens, hplaces ⟨.garbage, "é", 7, ⟨2, 4⟩⟩ (by simp)⟩

end ScriptTree
