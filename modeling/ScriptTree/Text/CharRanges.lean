/-!
# Sets of characters as ranges of code points

A `CharRanges` lists inclusive ranges of code points.  Token patterns and the tables of character
properties are written with it.
-/

namespace ScriptTree

/-- Inclusive ranges of code points. -/
abbrev CharRanges := List (Nat × Nat)

namespace CharRanges

/-- Does some range hold the character? -/
def contains (rs : CharRanges) (c : Char) : Bool :=
  rs.any fun (lo, hi) => lo ≤ c.toNat && c.toNat ≤ hi

/-- One range for each character of a text. -/
def ofString (s : String) : CharRanges := s.toList.map fun c => (c.toNat, c.toNat)

/-- The characters between two ends, both included. -/
def between (lo hi : Char) : CharRanges := [(lo.toNat, hi.toNat)]

/-- A character is in some of two lists of ranges if it is in one of them. -/
@[simp] theorem contains_append (rs ts : CharRanges) (c : Char) :
    contains (rs ++ ts) c = (contains rs c || contains ts c) := by
  simp [contains, List.any_append]

/-- The ranges of a text have its characters. -/
@[simp] theorem contains_ofString (s : String) (c : Char) :
    (ofString s).contains c = s.toList.contains c := by
  unfold ofString contains
  generalize s.toList = cs
  induction cs with
  | nil => rfl
  | cons d cs ih =>
    have h : (decide (d.toNat ≤ c.toNat) && decide (c.toNat ≤ d.toNat)) = (c == d) := by
      rw [Bool.eq_iff_iff]
      simp only [Bool.and_eq_true, decide_eq_true_eq, beq_iff_eq]
      constructor
      · intro h
        exact Char.toNat_inj.mp (Nat.le_antisymm h.2 h.1)
      · rintro rfl; exact ⟨Nat.le_refl _, Nat.le_refl _⟩
    simp only [List.map_cons, List.any_cons, List.contains_cons, ih, h]

end CharRanges

end ScriptTree
