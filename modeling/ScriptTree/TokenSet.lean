import ScriptTree.Kind

/-!
# Sets of kinds

A `TokenSet` has one bit for each kind, so membership is one bit test and two sets are equal
exactly when they have the same members (`TokenSet.ext_contains`).

The view is membership, with one lemma per operation:

* `contains_empty`, `contains_single`, `contains_union`, `contains_ofList`
* `mem_toList`      `k ∈ s.toList ↔ s.contains k`
* `ofList_toList`   `ofList s.toList = s`
-/

namespace ScriptTree

/-- A set of kinds, one bit per kind. -/
structure TokenSet where
  bits : BitVec Kind.count
  deriving DecidableEq, Repr

namespace TokenSet

/-- The set without members. -/
def empty : TokenSet := ⟨0⟩

instance : Inhabited TokenSet := ⟨empty⟩

/-- The set with one member. -/
def single (k : Kind) : TokenSet := ⟨BitVec.twoPow Kind.count k.index⟩

/-- Members of either set. -/
def union (s t : TokenSet) : TokenSet := ⟨s.bits ||| t.bits⟩

instance : Union TokenSet := ⟨union⟩

/-- The set of the kinds in a list. -/
def ofList (ks : List Kind) : TokenSet := ks.foldr (fun k s => single k ∪ s) empty

/-- Membership test. -/
def contains (s : TokenSet) (k : Kind) : Bool := s.bits.getLsbD k.index

/-- The members, in index order. -/
def toList (s : TokenSet) : List Kind := Kind.all.filter s.contains

/-! ## Membership -/

/-- The empty set has no kinds. -/
@[simp] theorem contains_empty (k : Kind) : empty.contains k = false := by
  simp [empty, contains]

/-- A set of one kind has that and no other. -/
@[simp] theorem contains_single (j k : Kind) : (single j).contains k = (k == j) := by
  have hk := k.index_lt_count
  have hj := j.index_lt_count
  by_cases h : k = j
  · subst h; simp [single, contains, hk]
  · have : j.index ≠ k.index := fun e => h (Kind.index_inj.mp e).symm
    simp [single, contains, h, this]

/-- A union has the kinds of both sets. -/
@[simp] theorem contains_union (s t : TokenSet) (k : Kind) :
    (s ∪ t).contains k = (s.contains k || t.contains k) := by
  simp [Union.union, union, contains]

/-- A set made of a list has the kinds of the list. -/
@[simp] theorem contains_ofList (ks : List Kind) (k : Kind) :
    (ofList ks).contains k = ks.contains k := by
  induction ks with
  | nil => simp [ofList]
  | cons j ks ih =>
    have : ofList (j :: ks) = single j ∪ ofList ks := rfl
    rw [this, contains_union, contains_single, ih, List.contains_cons]

/-- The list of a set has the kinds of the set. -/
@[simp] theorem mem_toList (s : TokenSet) (k : Kind) : k ∈ s.toList ↔ s.contains k = true := by
  simp [toList, Kind.mem_all]

/-- Sets with the same members are equal. -/
theorem ext_contains {s t : TokenSet} (h : ∀ k, s.contains k = t.contains k) : s = t := by
  obtain ⟨s⟩ := s
  obtain ⟨t⟩ := t
  congr 1
  apply BitVec.eq_of_getLsbD_eq
  intro i hi
  obtain ⟨k, rfl⟩ := Kind.exists_index_eq hi
  exact h k

/-- A set is made anew from the list of its kinds. -/
@[simp] theorem ofList_toList (s : TokenSet) : ofList s.toList = s := by
  apply ext_contains
  intro k
  cases h : s.contains k <;> simp [h]

end TokenSet

end ScriptTree
