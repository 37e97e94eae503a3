import ScriptTree.Proofs.Places

/-!
# Looking up places

A line index finds the place of any offset, also of one inside a character or past the end of the
source.  It steps back to the last offset between two characters, counts the line starts up to
there, and then the characters from the last one on.  None of these steps can fail, and the place is
the one to which a walk over the text in front leads.

A walk only goes forward.  So the places of a source are ordered like the offsets between its
characters.

## Key results

- `LineIndex.lineCol_eq_advance`: the place that is looked up is the one to which a walk leads
- `LineIndex.lineCol_lt_lineCol`: places are ordered like offsets
-/

namespace ScriptTree

open Text

/-! ## Offsets between characters -/

namespace Text

variable {cs : List Char} {n : Nat}

/-- A boundary is where one part of the text ends and the other begins. -/
private theorem isBoundary_iff : IsBoundary cs n ↔ ∃ as bs, cs = as ++ bs ∧ byteLength as = n := by
  rw [IsBoundary, Option.isSome_iff_exists, Prod.exists]
  simp only [splitBytes_eq_some_iff]

/-- A text has no more characters than bytes. -/
private theorem length_le_byteLength (cs : List Char) : cs.length ≤ byteLength cs := by
  induction cs with
  | nil => rfl
  | cons c cs ih =>
    have := c.utf8Size_pos
    rw [List.length_cons, byteLength_cons]
    omega

/-- The text up to the last boundary at or before an offset, and what follows. -/
private theorem exists_floorBoundary (cs : List Char) (n : Nat) :
    ∃ before after, cs = before ++ after ∧
    byteLength before = floorBoundary cs n ∧ byteLength before ≤ n ∧
      ∀ c ∈ after.head?, n < byteLength before + c.utf8Size := by
  induction cs generalizing n with
  | nil => exact ⟨[], [], rfl, rfl, Nat.zero_le n, nofun⟩
  | cons c cs ih =>
    rw [floorBoundary]
    split
    · next hinside => exact ⟨[], c :: cs, rfl, rfl, Nat.zero_le n, by simpa using hinside⟩
    · next hbehind =>
      obtain ⟨before, after, rfl, hfloor, hle, hnext⟩ := ih (n - c.utf8Size)
      refine ⟨c :: before, after, rfl, by rw [byteLength_cons, hfloor], ?_, fun d hd => ?_⟩
      · rw [byteLength_cons]
        omega
      · have := hnext d hd
        rw [byteLength_cons]
        omega

/-- There is no boundary behind the last one at or before an offset. -/
private theorem isGreatest_floorBoundary (cs : List Char) (n : Nat) :
    IsGreatest {m | IsBoundary cs m ∧ m ≤ min n (byteLength cs)} (floorBoundary cs n) := by
  obtain ⟨before, after, rfl, hfloor, hle, hnext⟩ := exists_floorBoundary cs n
  rw [← hfloor]
  refine ⟨⟨isBoundary_iff.mpr ⟨before, after, rfl, rfl⟩, ?_⟩, fun m ⟨hm, hmn⟩ => ?_⟩
  · rw [byteLength_append]
    omega
  · obtain ⟨as, bs, hsplit, rfl⟩ := isBoundary_iff.mp hm
    obtain ⟨gap, rfl, rfl⟩ | ⟨gap, rfl, -⟩ := List.append_eq_append_iff.mp hsplit
    -- A boundary farther behind would have the next character in front of it.
    · cases gap with
      | nil => simp
      | cons c gap =>
        have := hnext c (by simp)
        simp only [byteLength_append, byteLength_cons] at hmn
        omega
    · rw [byteLength_append]
      exact Nat.le_add_right _ _

/-- The last boundary at or before an offset, searched for byte by byte.  The search fails if it
    passes the beginning. -/
def boundaryBack? (cs : List Char) : Nat → Option Nat
  | 0 => if IsBoundary cs 0 then some 0 else none
  | n + 1 => if IsBoundary cs (n + 1) then some (n + 1) else boundaryBack? cs n

/-- The search comes to the last boundary. -/
private theorem boundaryBack?_eq_some {m : Nat} (h : IsGreatest {m | IsBoundary cs m ∧ m ≤ n} m) :
    boundaryBack? cs n = some m := by
  obtain ⟨⟨hm, hmn⟩, hgreatest⟩ := h
  induction n with
  | zero =>
    obtain rfl := Nat.le_zero.mp hmn
    rw [boundaryBack?, if_pos hm]
  | succ n ih =>
    rw [boundaryBack?]
    split
    · next hn => rw [Nat.le_antisymm hmn (hgreatest ⟨hn, Nat.le_refl _⟩)]
    · next hn =>
      have hne : m ≠ n + 1 := fun heq => hn (heq ▸ hm)
      have hmn : m ≤ n := Nat.le_of_lt_succ (Nat.lt_of_le_of_ne hmn hne)
      exact ih (fun k hk => hgreatest ⟨hk.1, Nat.le_succ_of_le hk.2⟩) hmn

end Text

/-! ## Counters -/

namespace LineCol

/-- A character moves the position by one line or one column at most. -/
private theorem step_le (p : LineCol) (c : Char) :
    (p.step c).line ≤ p.line + 1 ∧ (p.step c).column ≤ p.column + 1 := by
  unfold step
  split
  · exact ⟨Nat.le_refl _, Nat.le_add_left 1 _⟩
  · exact ⟨Nat.le_succ _, Nat.le_refl _⟩

/-- No counter overflows while there is room for as many steps as there are characters. -/
private theorem foldlM_step_eq_some {p : LineCol} {cs : List Char}
    (hline : p.line + cs.length < counterLimit) (hcolumn : p.column + cs.length < counterLimit) :
    cs.foldlM (fun p c => if (p.step c).InRange then some (p.step c) else none) p =
        some (cs.foldl step p) ∧ (cs.foldl step p).InRange := by
  induction cs generalizing p with
  | nil => exact ⟨rfl, hline, hcolumn⟩
  | cons c cs ih =>
    obtain ⟨hline', hcolumn'⟩ := p.step_le c
    rw [List.length_cons] at hline hcolumn
    have hrange : (p.step c).InRange := ⟨by omega, by omega⟩
    rw [List.foldlM_cons, if_pos hrange]
    exact ih (by omega) (by omega)

/-- A walk over a text that is short enough does not overflow. -/
private theorem advance?_eq_some {cs : List Char} (h : byteLength cs + 1 < counterLimit) :
    origin.advance? (String.ofList cs) = some (origin.advance (String.ofList cs)) ∧
      (origin.advance (String.ofList cs)).InRange := by
  have hlength : cs.length + 1 < counterLimit :=
    Nat.lt_of_le_of_lt (Nat.succ_le_succ (length_le_byteLength cs)) h
  rw [Nat.add_comm] at hlength
  rw [advance?, advance, String.toList_ofList]
  exact foldlM_step_eq_some hlength hlength

end LineCol

/-! ## Lookups -/

namespace LineIndex

/-- The place of an offset, looked up step by step.  A step fails where there is no boundary to step
    back to, no line that starts before it, no text from there on, or no room in a counter. -/
def lineCol? (index : LineIndex) (offset : Nat) : Option LineCol := do
  let stop ← boundaryBack? index.text (min offset (byteLength index.text))
  let lines := index.starts.countP (· ≤ stop)
  let start ← if lines = 0 then none else index.starts[lines - 1]?
  let last ← sliceBytes index.text start stop
  let place : LineCol := ⟨lines, last.length + 1⟩
  if place.InRange then some place else none

/-- The line starts up to an offset come first. -/
private theorem countP_starts (before after : List Char) :
    (0 :: startsFrom 0 (before ++ after)).countP (· ≤ byteLength before) =
      (0 :: startsFrom 0 before).length := by
  have hbefore : (0 :: startsFrom 0 before).countP (· ≤ byteLength before) =
      (0 :: startsFrom 0 before).length := by
    rw [List.countP_eq_length]
    intro n hn
    obtain rfl | hn := List.mem_cons.mp hn
    · simp
    · have := bounds_of_mem_startsFrom hn
      exact decide_eq_true (by omega)
  have hafter : (startsFrom (0 + byteLength before) after).countP (· ≤ byteLength before) = 0 := by
    rw [List.countP_eq_zero]
    intro n hn
    have := bounds_of_mem_startsFrom hn
    simpa using by omega
  rw [startsFrom_append, ← List.cons_append, List.countP_append, hbefore, hafter, Nat.add_zero]

/-- No step fails on the way to the place to which a walk over the text in front leads. -/
private theorem lineCol?_eq_some {source : String} {before after : List Char} {offset : Nat}
    (hsource : source.toList = before ++ after)
    (hfloor : byteLength before = floorBoundary source.toList offset)
    (hsize : byteLength source.toList + 1 < LineCol.counterLimit) :
    (ofText source).lineCol? offset = some (LineCol.origin.advance (String.ofList before)) := by
  -- The text before splits into whole lines and the start of one.
  obtain ⟨lines, last, hbefore, hstart, hwalk⟩ := exists_lastLine before
  have hstop : boundaryBack? source.toList (min offset (byteLength source.toList)) =
      some (byteLength before) :=
    boundaryBack?_eq_some (hfloor ▸ isGreatest_floorBoundary _ _)
  have hlines := countP_starts before after
  -- The last of the line starts up to there is at the index before the number of them.
  have hindex : (0 :: startsFrom 0 (before ++ after))[(0 :: startsFrom 0 before).length - 1]? =
      some (byteLength lines) := by
    rw [startsFrom_append, ← List.cons_append, List.getElem?_append_left (by simp),
      ← List.getLast?_eq_getElem?, hstart]
  -- From there to the offset lies the start of that line, and it is short enough to be counted.
  have hslice :
      sliceBytes (before ++ after) (byteLength lines) (byteLength before) = some last := by
    rw [hbefore, byteLength_append, List.append_assoc, sliceBytes_append]
  have hbound : byteLength before + 1 < LineCol.counterLimit := by
    rw [hsource, byteLength_append] at hsize
    omega
  have hrange := (LineCol.advance?_eq_some hbound).2
  rw [LineCol.advance, String.toList_ofList, hwalk] at hrange ⊢
  rw [lineCol?, ofText, hsource]
  rw [hsource] at hstop
  simp only [hstop, Option.bind_eq_bind, Option.bind_some, hlines, hindex, hslice]
  rw [if_neg (by simp), if_pos hrange]

/-- Looking up an offset is walking over the text in front of the character that it is in. -/
private theorem lineCol_floorBoundary {source : String} {before after : List Char} {offset : Nat}
    (hsource : source.toList = before ++ after)
    (hfloor : byteLength before = floorBoundary source.toList offset) :
    (ofText source).lineCol offset = LineCol.origin.advance (String.ofList before) := by
  have hwalk := lineCol_byteLength before after
  have hsame : floorBoundary source.toList (byteLength before) =
      floorBoundary source.toList offset := by
    rw [← hfloor, hsource, floorBoundary_append]
  rw [← hsource, String.ofList_toList] at hwalk
  rw [← hwalk, lineCol, lineCol, ofText]
  simp only [hsame]

/-- The place that is looked up is the one to which a walk leads over the text in front of the last
    boundary at or before the offset.  Neither the lookup nor the walk fails: the boundary is found,
    a line starts before it, and the counters have room for the place. -/
theorem lineCol_eq_advance (source : String) (offset : Nat)
    (hsize : byteLength source.toList < LineCol.counterLimit - 1) :
    ∃ before after, source.toList = before ++ after ∧
      IsGreatest {n | IsBoundary source.toList n ∧ n ≤ min offset (byteLength source.toList)}
        (byteLength before) ∧
      (ofText source).lineCol offset = LineCol.origin.advance (String.ofList before) ∧
      (ofText source).lineCol? offset = some ((ofText source).lineCol offset) ∧
      LineCol.origin.advance? (String.ofList before) = some ((ofText source).lineCol offset) := by
  obtain ⟨before, after, hsource, hfloor, -⟩ := exists_floorBoundary source.toList offset
  replace hsize : byteLength source.toList + 1 < LineCol.counterLimit := Nat.add_lt_of_lt_sub hsize
  have hbefore : byteLength before + 1 < LineCol.counterLimit := by
    rw [hsource, byteLength_append] at hsize
    omega
  refine ⟨before, after, hsource, hfloor ▸ isGreatest_floorBoundary _ _,
    lineCol_floorBoundary hsource hfloor, ?_, ?_⟩
  · rw [lineCol_floorBoundary hsource hfloor, lineCol?_eq_some hsource hfloor hsize]
  · rw [lineCol_floorBoundary hsource hfloor, (LineCol.advance?_eq_some hbefore).1]

/-- An offset inside the first character of the second line. -/
theorem lineCol_eq_advance_inside : byteLength "é = 1\n€x".toList < LineCol.counterLimit - 1 ∧
    ∃ before after, "é = 1\n€x".toList = before ++ after ∧
      IsGreatest {n | IsBoundary "é = 1\n€x".toList n ∧ n ≤ min 8 (byteLength "é = 1\n€x".toList)}
        (byteLength before) ∧
      (ofText "é = 1\n€x").lineCol 8 = LineCol.origin.advance (String.ofList before) ∧
      (ofText "é = 1\n€x").lineCol? 8 = some ((ofText "é = 1\n€x").lineCol 8) ∧
      LineCol.origin.advance? (String.ofList before) = some ((ofText "é = 1\n€x").lineCol 8) := by
  have hsize : byteLength "é = 1\n€x".toList < LineCol.counterLimit - 1 := by decide
  exact ⟨hsize, lineCol_eq_advance _ 8 hsize⟩

end LineIndex

/-! ## Order -/

namespace LineCol

/-- A place is ordered by its line first, and then by its column. -/
def key (p : LineCol) : Nat ×ₗ Nat := toLex (p.line, p.column)

/-- No two positions have the same key. -/
private theorem key_injective : Function.Injective key := by
  rintro ⟨line, column⟩ ⟨line', column'⟩ h
  cases h
  rfl

instance : PartialOrder LineCol := PartialOrder.lift key key_injective

/-- Positions are in the order of their lines, and in a line in that of their columns. -/
private theorem lt_iff {p q : LineCol} :
    p < q ↔ p.line < q.line ∨ p.line = q.line ∧ p.column < q.column :=
  Prod.Lex.toLex_lt_toLex

/-- A character moves the position on. -/
private theorem lt_step (p : LineCol) (c : Char) : p < p.step c := by
  rw [lt_iff, step]
  split
  · exact .inl (Nat.lt_succ_self _)
  · exact .inr ⟨rfl, Nat.lt_succ_self _⟩

/-- A walk over a text leads ahead, unless the text is empty. -/
private theorem lt_foldl_step (p : LineCol) (c : Char) (cs : List Char) :
    p < (c :: cs).foldl step p := by
  induction cs generalizing p c with
  | nil => exact lt_step p c
  | cons d cs ih => exact lt_trans (lt_step p c) (ih (p.step c) d)

end LineCol

namespace LineIndex

/-- The boundaries of a source have places in the same order. -/
private theorem lineCol_strictMonoOn (source : String) :
    StrictMonoOn (ofText source).lineCol {n | IsBoundary source.toList n} := by
  intro m hm n hn hlt
  obtain ⟨before, after, hsource, rfl⟩ := isBoundary_iff.mp hm
  replace hn : IsBoundary source.toList n := hn
  rw [hsource] at hn
  obtain ⟨gap, rest, rfl, rfl⟩ := hn.exists_append (Nat.le_of_lt hlt)
  cases gap with
  | nil => simp at hlt
  | cons c gap =>
    have hfar := lineCol_byteLength (before ++ c :: gap) rest
    have hnear := lineCol_byteLength before (c :: gap ++ rest)
    rw [byteLength_append, List.append_assoc, ← hsource, String.ofList_toList] at hfar
    rw [← hsource, String.ofList_toList] at hnear
    rw [hnear, hfar, LineCol.advance, LineCol.advance, String.toList_ofList, String.toList_ofList,
      List.foldl_append]
    exact LineCol.lt_foldl_step _ c gap

/-- The place of any offset is on one of the lines. -/
private theorem line_lineCol (source : String) (offset : Nat) :
    1 ≤ ((ofText source).lineCol offset).line ∧
      ((ofText source).lineCol offset).line ≤ (ofText source).lineCount := by
  constructor
  · rw [lineCol, ofText]
    simp
  · exact (List.takeWhile_sublist _).length_le

/-- Places are ordered like the offsets between characters, and no two of these have the same place.
    So reports in the order of their offsets are in the order of their places. -/
theorem lineCol_lt_lineCol (source : String) :
    (∀ m n, IsBoundary source.toList m → IsBoundary source.toList n → m < n →
      (ofText source).lineCol m < (ofText source).lineCol n) ∧
    (∀ offset, 1 ≤ ((ofText source).lineCol offset).line ∧
      ((ofText source).lineCol offset).line ≤ (ofText source).lineCount) ∧
    (∀ m n, IsBoundary source.toList m → IsBoundary source.toList n →
      m ≠ n → (ofText source).lineCol m ≠ (ofText source).lineCol n) ∧
    ∀ ds : List Diagnostic, (∀ d ∈ ds, IsBoundary source.toList d.span.start) →
      (ds.map (·.span.start)).Pairwise (· ≤ ·) →
        (ds.map fun d => (ofText source).lineCol d.span.start).Pairwise (· ≤ ·) := by
  have hmono := lineCol_strictMonoOn source
  refine ⟨fun m n hm hn hlt => hmono hm hn hlt, line_lineCol source,
    fun m n hm hn hne heq => hne (hmono.injOn hm hn heq), fun ds hds hsorted => ?_⟩
  rw [List.pairwise_map] at hsorted ⊢
  exact hsorted.imp_of_mem fun ha hb hle => hmono.monotoneOn (hds _ ha) (hds _ hb) hle

/-- Reports at a line break and at the character behind it. -/
theorem lineCol_lt_lineCol_break : ∃ a b : Diagnostic, a.span.start = 2 ∧ b.span.start = 3 ∧
    IsBoundary "é\nx".toList 2 ∧ IsBoundary "é\nx".toList 3 ∧
      (ofText "é\nx").lineCol 2 < (ofText "é\nx").lineCol 3 ∧
      (ofText "é\nx").lineCol 2 ≠ (ofText "é\nx").lineCol 3 ∧
      ([a, b].map fun d => (ofText "é\nx").lineCol d.span.start).Pairwise (· ≤ ·) := by
  have hm : IsBoundary "é\nx".toList 2 := by decide
  have hn : IsBoundary "é\nx".toList 3 := by decide
  obtain ⟨hlt, -, hne, hsorted⟩ := lineCol_lt_lineCol "é\nx"
  refine ⟨.ofProblem .expectedToken ⟨2, 3, by decide⟩, .ofProblem .expectedToken ⟨3, 4, by decide⟩,
    rfl, rfl, hm, hn, hlt 2 3 hm hn (by decide), hne 2 3 hm hn (by decide), hsorted _ ?_ ?_⟩
  · simpa [Diagnostic.ofProblem] using ⟨hm, hn⟩
  · simp [Diagnostic.ofProblem]

end LineIndex

end ScriptTree
