import Mathlib.Data.List.Forall2
import Mathlib.Data.List.Nodup
import ScriptTree.Proofs.Quoting
import ScriptTree.Tree.Dump

/-!
# What a dump tells

A line of a dump shows the depth, the kind and the text of an element.  It can be cut apart again:
the indentation ends at the name of the kind, the name at a blank or at the end of the line, and the
offsets, which may stand in between, at a bracket.  Texts are quoted, so that none of them can end
its line and pass for another element.

The elements in order with their depths determine the tree: the children of a node are the elements
below it up to the next one that is not deeper.

## Key results

- `Tree.dumpLines_shows`: the lines of a dump show the elements of the tree
- `Tree.rows_append_inj`: the elements and their depths determine the tree
- `Tree.dump_erase`: without white space and comments, a dump shows the tree without them
- `Tree.dump_inj`: a dump shows which tree it is the dump of
-/

namespace ScriptTree

/-! ## Names of kinds -/

namespace Kind

/-- No two kinds have the same name. -/
private theorem name_inj {j k : Kind} : j.name = k.name ↔ j = k := by
  -- One comparison of the names in the list; the cases of two kinds would be far too many.
  have hnodup : (all.map name).Nodup := by decide +kernel
  refine ⟨fun h => ?_, fun h => by rw [h]⟩
  exact List.inj_on_of_nodup_map hnodup (mem_all j) (mem_all k) h

/-- A name consists of letters. -/
private theorem exists_letters (k : Kind) :
    ∃ cs, k.name = String.ofList cs ∧ cs ≠ [] ∧ ∀ c ∈ cs, c.isAlpha = true := by
  cases k <;> exact ⟨_, rfl, by decide, List.all_eq_true.mp (by decide)⟩

end Kind

/-! ## Cutting lists -/

section

variable {α : Type} {p : α → Bool} {before after : List α}

/-- A list is cut where its elements stop to have a property. -/
private theorem takeWhile_append_of_boundary (hbefore : ∀ a ∈ before, p a = true)
    (hafter : ∀ a ∈ after.head?, p a = false) : (before ++ after).takeWhile p = before := by
  rw [List.takeWhile_append_of_pos hbefore]
  cases after with
  | nil => rw [List.takeWhile_nil, List.append_nil]
  | cons a after => rw [List.takeWhile_cons_of_neg (by simp [hafter a rfl]), List.append_nil]

/-- What is dropped ends at the boundary. -/
private theorem dropWhile_append_of_boundary (hbefore : ∀ a ∈ before, p a = true)
    (hafter : ∀ a ∈ after.head?, p a = false) : (before ++ after).dropWhile p = after := by
  rw [List.dropWhile_append_of_pos hbefore]
  cases after with
  | nil => rfl
  | cons a after => rw [List.dropWhile_cons_of_neg (by simp [hafter a rfl])]

end

namespace Tree

/-! ## Lines -/

/-- What a line tells of an element.  A node has no text. -/
structure Row where
  depth : Nat
  kind : Kind
  text? : Option String

/-- The text of an element as it stands at the end of its line. -/
def Row.tail (r : Row) : List Char :=
  match r.text? with
  | none => []
  | some text => ' ' :: (Text.quoted text).toList

/-- A line that shows an element, wherever the element starts and however wide it is. -/
def Shows (o : DumpOptions) (line : String) (r : Row) : Prop :=
  ∃ start width, line.toList = (dumpHead o r.depth start width r.kind).toList ++ r.tail

/-- The width of the indentation of a line, its name, and what follows the name and the offsets. -/
def cut (spans : Bool) (line : List Char) : Nat × List Char × List Char :=
  let shown := line.dropWhile (· == ' ')
  let rest := shown.dropWhile Char.isAlpha
  ((line.takeWhile (· == ' ')).length, shown.takeWhile Char.isAlpha,
    if spans then (rest.dropWhile (· != ']')).drop 1 else rest)

/-- An indentation is so many blanks. -/
private theorem toList_indent (n : Nat) : ("".pushn ' ' n).toList = List.replicate n ' ' := by
  rw [String.pushn_eq_repeat_push]
  induction n with
  | zero => rfl
  | succ n ih => rw [Nat.repeat, String.toList_push, ih, List.replicate_succ']

/-- The offsets in a line, if they are shown. -/
def spanText (spans : Bool) (start width : Nat) : List Char :=
  if spans then
    [' ', '['] ++ (Nat.toDigits 10 start ++ ['.', '.'] ++ Nat.toDigits 10 (start + width)) ++ [']']
  else []

/-- The head of a line is an indentation, the name of a kind, and a span. -/
private theorem toList_dumpHead (o : DumpOptions) (depth start width : Nat) (kind : Kind) :
    (dumpHead o depth start width kind).toList =
      List.replicate (2 * depth) ' ' ++ kind.name.toList ++ spanText o.spans start width := by
  unfold dumpHead spanText
  cases o.spans <;> simp [toList_indent]

/-- What is no digit is not in a number. -/
private theorem notMem_toDigits {c : Char} (hc : c.isDigit = false) (n : Nat) :
    c ∉ Nat.toDigits 10 n := by
  intro hmem
  have hdigit := Nat.isDigit_of_mem_toDigits (by decide) (by decide) hmem
  rw [hc] at hdigit
  cases hdigit

/-- What follows the offsets in a line that shows them. -/
private theorem dropWhile_spanText (start width : Nat) (cs : List Char) :
    ((spanText true start width ++ cs).dropWhile (· != ']')).drop 1 = cs := by
  have hdigits : ∀ n : Nat, ∀ c ∈ Nat.toDigits 10 n, (c != ']') = true := fun n c hc =>
    bne_iff_ne.mpr (ne_of_mem_of_not_mem hc (notMem_toDigits (by decide) n))
  rw [spanText, if_pos rfl, List.append_assoc, List.dropWhile_append_of_pos,
    List.singleton_append, List.dropWhile_cons_of_neg (by decide), List.drop_one, List.tail_cons]
  intro c hc
  simp only [List.mem_append, List.mem_cons, List.not_mem_nil, or_false] at hc
  obtain (rfl | rfl) | (hc | rfl | rfl) | hc := hc
  · decide
  · decide
  · exact hdigits start c hc
  · decide
  · decide
  · exact hdigits (start + width) c hc

/-- A name ends where offsets or texts begin. -/
private theorem head?_spanText_append (spans : Bool) (start width : Nat) (r : Row) :
    ∀ c ∈ (spanText spans start width ++ r.tail).head?, c.isAlpha = false := by
  obtain ⟨depth, kind, text?⟩ := r
  cases spans <;> cases text? <;> simp [spanText, Row.tail]

/-- The depth, the name and the text are read off the line. -/
private theorem cut_of_shows {o : DumpOptions} {line : String} {r : Row} (h : Shows o line r) :
    cut o.spans line.toList = (2 * r.depth, r.kind.name.toList, r.tail) := by
  obtain ⟨start, width, hline⟩ := h
  obtain ⟨name, hname, hne, hletters⟩ := r.kind.exists_letters
  have hindent : ∀ c ∈ List.replicate (2 * r.depth) ' ', (c == ' ') = true := fun c hc => by
    rw [(List.mem_replicate.mp hc).2]
    rfl
  -- Behind the indentation comes a letter.
  have hhead : ∀ c ∈ (name ++ (spanText o.spans start width ++ r.tail)).head?,
      (c == ' ') = false := by
    intro c hc
    have hletter : c.isAlpha = true := by
      rw [List.head?_append_of_ne_nil _ hne] at hc
      exact hletters c (List.mem_of_mem_head? hc)
    rw [beq_eq_false_iff_ne]
    rintro rfl
    exact absurd hletter (by decide)
  -- The indentation ends at the first letter of the name, and the name where no letter follows.
  have hend := head?_spanText_append o.spans start width r
  rw [hline, toList_dumpHead, hname, String.toList_ofList, List.append_assoc, List.append_assoc,
    cut, takeWhile_append_of_boundary hindent hhead, dropWhile_append_of_boundary hindent hhead]
  simp only [takeWhile_append_of_boundary hletters hend,
    dropWhile_append_of_boundary hletters hend, List.length_replicate]
  cases hspans : o.spans with
  | false => simp [spanText]
  | true => rw [if_pos rfl, dropWhile_spanText]

/-- The tail of a row tells its text. -/
private theorem Row.tail_inj {r s : Row} : r.tail = s.tail ↔ r.text? = s.text? := by
  obtain ⟨_, _, text?⟩ := r
  obtain ⟨_, _, text'?⟩ := s
  cases text? <;> cases text'? <;> simp [tail, String.toList_inj, Text.quoted_inj]

/-- A line shows one element only. -/
private theorem rightUnique_shows (o : DumpOptions) : Relator.RightUnique (Shows o) := by
  intro line r s hr hs
  have hcut := (cut_of_shows hr).symm.trans (cut_of_shows hs)
  rw [Prod.mk.injEq, Prod.mk.injEq, String.toList_inj, Kind.name_inj, Row.tail_inj] at hcut
  obtain ⟨hdepth, hkind, htext⟩ := hcut
  obtain ⟨_, _, _⟩ := r
  obtain ⟨_, _, _⟩ := s
  simp only [Row.mk.injEq]
  exact ⟨Nat.eq_of_mul_eq_mul_left (by decide) hdepth, hkind, htext⟩

/-- A line has no line break in it. -/
private theorem newline_notMem_of_shows {o : DumpOptions} {line : String} {r : Row}
    (h : Shows o line r) : '\n' ∉ line.toList := by
  obtain ⟨start, width, hline⟩ := h
  obtain ⟨name, hname, -, hletters⟩ := r.kind.exists_letters
  have hname : '\n' ∉ name := fun hmem => absurd (hletters _ hmem) (by decide)
  have hspan : '\n' ∉ spanText o.spans start width := by
    have hdigits : ∀ n : Nat, '\n' ∉ Nat.toDigits 10 n := notMem_toDigits (by decide)
    unfold spanText
    cases o.spans <;> simp [hdigits]
  have htail : '\n' ∉ r.tail := by
    obtain ⟨_, _, text?⟩ := r
    cases text? <;> simp [Row.tail, Text.newline_notMem_quoted]
  rw [hline, toList_dumpHead]
  simp [*]

/-! ## Elements and their depths -/

mutual

/-- The elements of a tree in order. -/
def rows (depth : Nat) : Tree → List Row
  | leaf kind text => [⟨depth, kind, some text⟩]
  | node kind children => ⟨depth, kind, none⟩ :: rowsOf (depth + 1) children

/-- The elements of trees that follow each other. -/
def rowsOf (depth : Nat) : List Tree → List Row
  | [] => []
  | t :: ts => rows depth t ++ rowsOf depth ts

end

mutual

/-- If nothing is left out, the lines show all elements. -/
theorem dumpLines_shows (spans : Bool) (depth start : Nat) :
    ∀ t : Tree, List.Forall₂ (Shows ⟨true, spans⟩) (dumpLines ⟨true, spans⟩ depth start t)
      (rows depth t)
  | leaf kind text => by
    rw [dumpLines, rows, if_neg (by simp)]
    refine .cons ⟨start, Text.byteLength text.toList, ?_⟩ .nil
    simp [Row.tail]
  | node kind children => by
    rw [dumpLines, rows]
    refine .cons ⟨start, widthOf children, ?_⟩ (dumpLinesOf_shows spans (depth + 1) start children)
    simp [Row.tail]

/-- The lines of a dump show the rows of the trees. -/
private theorem dumpLinesOf_shows (spans : Bool) (depth start : Nat) :
    ∀ ts : List Tree, List.Forall₂ (Shows ⟨true, spans⟩)
      (dumpLinesOf ⟨true, spans⟩ depth start ts) (rowsOf depth ts)
  | [] => .nil
  | t :: ts => by
    rw [dumpLinesOf, rowsOf]
    exact List.rel_append (dumpLines_shows spans depth start t)
      (dumpLinesOf_shows spans depth (start + t.width) ts)

end

/-- Elements that follow each other begin at their depth. -/
private theorem depth_of_mem_head?_rowsOf {depth : Nat} {t : Tree} {ts : List Tree}
    {xs : List Row} : ∀ r ∈ (rowsOf depth (t :: ts) ++ xs).head?, r.depth = depth := by
  cases t <;> simp [rowsOf, rows]

/-- The rows behind a tree are no deeper than it. -/
private theorem depth_le_of_mem_head?_rowsOf {depth : Nat} {xs : List Row}
    (hxs : ∀ r ∈ xs.head?, r.depth < depth) (ts : List Tree) :
    ∀ r ∈ (rowsOf depth ts ++ xs).head?, r.depth ≤ depth := by
  intro r hr
  cases ts with
  | nil => exact Nat.le_of_lt (hxs r hr)
  | cons t ts => exact Nat.le_of_eq (depth_of_mem_head?_rowsOf r hr)

/-- Elements that are less deep are not the beginning of trees. -/
private theorem ne_rowsOf_append {depth : Nat} {t : Tree} {ts : List Tree} {xs ys : List Row}
    (hxs : ∀ r ∈ xs.head?, r.depth < depth) : xs ≠ rowsOf depth (t :: ts) ++ ys := by
  rintro rfl
  obtain ⟨r, hr⟩ : ∃ r, r ∈ (rowsOf depth (t :: ts) ++ ys).head? := by
    cases t <;> simp [rowsOf, rows]
  have hdepth := depth_of_mem_head?_rowsOf r hr
  have hlt := hxs r hr
  omega

mutual

/-- A tree ends before the next element that is not deeper than its root. -/
theorem rows_append_inj {depth : Nat} {xs ys : List Row} (hxs : ∀ r ∈ xs.head?, r.depth ≤ depth)
    (hys : ∀ r ∈ ys.head?, r.depth ≤ depth) :
    ∀ t u : Tree, rows depth t ++ xs = rows depth u ++ ys → t = u ∧ xs = ys
  | leaf k s, leaf l s', h => by simpa [rows, and_assoc] using h
  | leaf _ _, node _ _, h => by simp [rows] at h
  | node _ _, leaf _ _, h => by simp [rows] at h
  | node k ts, node l us, h => by
    rw [rows, rows, List.cons_append, List.cons_append, List.cons.injEq, Row.mk.injEq] at h
    obtain ⟨⟨-, rfl, -⟩, h⟩ := h
    -- The children are one level deeper, so for them what follows is less deep.
    obtain ⟨rfl, hrest⟩ := rowsOf_append_inj (fun r hr => Nat.lt_succ_of_le (hxs r hr))
      (fun r hr => Nat.lt_succ_of_le (hys r hr)) ts us h
    exact ⟨rfl, hrest⟩

/-- Trees end before the next element that is less deep than their roots. -/
private theorem rowsOf_append_inj {depth : Nat} {xs ys : List Row}
    (hxs : ∀ r ∈ xs.head?, r.depth < depth) (hys : ∀ r ∈ ys.head?, r.depth < depth) :
    ∀ ts us : List Tree, rowsOf depth ts ++ xs = rowsOf depth us ++ ys → ts = us ∧ xs = ys
  | [], [], h => ⟨rfl, h⟩
  | [], _ :: _, h => absurd h (ne_rowsOf_append hxs)
  | _ :: _, [], h => absurd h.symm (ne_rowsOf_append hys)
  | t :: ts, u :: us, h => by
    rw [rowsOf, rowsOf, List.append_assoc, List.append_assoc] at h
    -- What follows the first trees begins at this depth or further up, so it belongs to neither.
    obtain ⟨rfl, htail⟩ := rows_append_inj (depth_le_of_mem_head?_rowsOf hxs ts)
      (depth_le_of_mem_head?_rowsOf hys us) t u h
    obtain ⟨rfl, hrest⟩ := rowsOf_append_inj hxs hys ts us htail
    exact ⟨rfl, hrest⟩

end

/-- The rows of a tree tell the tree. -/
private theorem rows_inj {depth : Nat} {t u : Tree} : rows depth t = rows depth u ↔ t = u := by
  refine ⟨fun h => ?_, fun h => by rw [h]⟩
  have hnone : ∀ r ∈ ([] : List Row).head?, r.depth ≤ depth := by simp
  exact (rows_append_inj hnone hnone t u (by rw [h])).1

/-! ## Dumps -/

/-- Lines end in line feeds, which they do not contain. -/
private theorem join_lines_inj {ls ms : List String} (hls : ∀ l ∈ ls, '\n' ∉ l.toList)
    (hms : ∀ m ∈ ms, '\n' ∉ m.toList)
    (h : String.join (ls.map (· ++ "\n")) = String.join (ms.map (· ++ "\n"))) : ls = ms := by
  have hbefore : ∀ {l : String}, '\n' ∉ l.toList → ∀ c ∈ l.toList, (c != '\n') = true :=
    fun hl c hc => bne_iff_ne.mpr (ne_of_mem_of_not_mem hc hl)
  have hafter : ∀ cs : List Char, ∀ c ∈ ('\n' :: cs).head?, (c != '\n') = false := by simp
  rw [← String.toList_inj, String.toList_join, String.toList_join] at h
  -- Induction on the lines: each ends at its break, and no line has a break within.
  induction ls generalizing ms with
  | nil =>
    cases ms with
    | nil => rfl
    | cons m ms => simp at h
  | cons l ls ih =>
    cases ms with
    | nil => simp at h
    | cons m ms =>
      have hl := hbefore (hls l List.mem_cons_self)
      have hm := hbefore (hms m List.mem_cons_self)
      have hnewline : "\n".toList = ['\n'] := rfl
      simp only [List.map_cons, List.flatMap_cons, String.toList_append, List.append_assoc,
        hnewline, List.singleton_append] at h
      have hline := congrArg (List.takeWhile (· != '\n')) h
      rw [takeWhile_append_of_boundary hl (hafter _), takeWhile_append_of_boundary hm (hafter _),
        String.toList_inj] at hline
      have hrest := congrArg (List.dropWhile (· != '\n')) h
      rw [dropWhile_append_of_boundary hl (hafter _), dropWhile_append_of_boundary hm (hafter _),
        List.cons.injEq] at hrest
      rw [hline, ih (fun l hl => hls l (List.mem_cons_of_mem _ hl))
        (fun m hm => hms m (List.mem_cons_of_mem _ hm)) hrest.2]

/-- The lines of a tree have no line feeds. -/
private theorem newline_notMem_of_mem_dumpLines {spans : Bool} {depth start : Nat} {t : Tree} :
    ∀ line ∈ dumpLines ⟨true, spans⟩ depth start t, '\n' ∉ line.toList := by
  have hlines := (dumpLines_shows spans depth start t).imp fun line r h =>
    And.intro (newline_notMem_of_shows h) h
  exact ((List.forall₂_and_left _ _).mp hlines).1

/-- The full dump of a tree tells the tree, with spans or without. -/
private theorem dump_eq_iff {spans : Bool} {t u : Tree} :
    t.dump ⟨true, spans⟩ = u.dump ⟨true, spans⟩ ↔ t = u := by
  refine ⟨fun h => ?_, fun h => by rw [h]⟩
  have hlines : dumpLines ⟨true, spans⟩ 0 0 t = dumpLines ⟨true, spans⟩ 0 0 u :=
    join_lines_inj newline_notMem_of_mem_dumpLines newline_notMem_of_mem_dumpLines h
  have hrows := dumpLines_shows spans 0 0 t
  rw [hlines] at hrows
  exact rows_inj.mp ((rightUnique_shows _).forall₂ hrows (dumpLines_shows spans 0 0 u))

mutual

/-- Lines without offsets and without white space and comments are the lines of the tree without
    them. -/
private theorem dumpLines_erase (depth start start' : Nat) :
    ∀ t : Tree, t.isDropped Kind.isTrivia = false → dumpLines ⟨false, false⟩ depth start t =
      dumpLines ⟨true, false⟩ depth start' (t.erase Kind.isTrivia)
  | leaf kind text, h => by
    rw [isDropped] at h
    simp [dumpLines, erase, dumpHead, h]
  | node kind children, _ => by
    simp [dumpLines, erase, dumpHead, dumpLinesOf_erase (depth + 1) start start' children]

/-- A dump without trivia is the full dump of what is left without trivia. -/
private theorem dumpLinesOf_erase (depth start start' : Nat) : ∀ ts : List Tree,
    dumpLinesOf ⟨false, false⟩ depth start ts =
      dumpLinesOf ⟨true, false⟩ depth start' (eraseAll Kind.isTrivia ts)
  | [] => rfl
  | t :: ts => by
    rw [dumpLinesOf, eraseAll]
    cases h : t.isDropped Kind.isTrivia with
    | true =>
      have hnone : dumpLines ⟨false, false⟩ depth start t = [] := by
        cases t <;> simp_all [isDropped, dumpLines]
      rw [if_pos rfl, hnone, List.nil_append, dumpLinesOf_erase depth]
    | false =>
      rw [if_neg Bool.false_ne_true, dumpLinesOf, dumpLines_erase depth start start' t h,
        dumpLinesOf_erase depth]

end

/-- The default dump of a tree is the dump of the tree without white space and comments. -/
theorem dump_erase (k : Kind) (ts : List Tree) :
    (node k ts).dump ⟨false, false⟩ = ((node k ts).erase Kind.isTrivia).dump ⟨true, false⟩ := by
  rw [dump, dump, dumpLines_erase 0 0 0 (node k ts) rfl]

/-- A dump shows which tree it is the dump of, whatever texts are in the tree.  If it leaves out
    white space and comments, it shows what is left of the tree without them. -/
theorem dump_inj (k l : Kind) (ts us : List Tree) :
    (∀ spans, (node k ts).dump ⟨true, spans⟩ = (node l us).dump ⟨true, spans⟩ ↔
      node k ts = node l us) ∧
    ((node k ts).dump ⟨false, false⟩ = (node l us).dump ⟨false, false⟩ ↔
      (node k ts).erase Kind.isTrivia = (node l us).erase Kind.isTrivia) := by
  constructor
  · exact fun spans => dump_eq_iff
  · rw [dump_erase, dump_erase, dump_eq_iff]

/-- A text that looks like a line stays inside its quotes. -/
example : (node .literal [leaf .backQuoted "`\n  Comma \"`"]).dump ⟨false, false⟩ =
    "Literal\n  BackQuoted \"`\\n  Comma \\\"`\"\n" := by decide +kernel

end Tree

end ScriptTree
