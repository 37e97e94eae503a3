/-!
# Byte offsets in a text

Offsets count the bytes of the UTF-8 form.  A text is a list of characters here, and an offset is
meaningful where it falls between two of them.

* `byteLength` is the length in bytes.
* `splitBytes cs n` cuts `cs` after `n` bytes; it fails if that is past the end or inside a
  character.  `splitBytes_eq_some_iff` says exactly when it succeeds, and with what.
* `sliceBytes cs start stop` is the text between two offsets.
* `floorBoundary cs n` is the last offset between two characters that is at most `n`.
-/

namespace ScriptTree.Text

/-- Length of the UTF-8 form. -/
def byteLength : List Char → Nat
  | [] => 0
  | c :: cs => c.utf8Size + byteLength cs

@[simp] theorem byteLength_nil : byteLength [] = 0 := rfl

@[simp] theorem byteLength_cons (c : Char) (cs : List Char) :
    byteLength (c :: cs) = c.utf8Size + byteLength cs := rfl

/-- The bytes of two texts add up. -/
@[simp] theorem byteLength_append (as bs : List Char) :
    byteLength (as ++ bs) = byteLength as + byteLength bs := by
  induction as with
  | nil => simp
  | cons a as ih => simp [ih, Nat.add_assoc]

/-- Cut after `n` bytes. -/
def splitBytes : List Char → Nat → Option (List Char × List Char)
  | cs, 0 => some ([], cs)
  | [], _ + 1 => none
  | c :: cs, n + 1 =>
    if n + 1 < c.utf8Size then none
    else (splitBytes cs (n + 1 - c.utf8Size)).map fun (as, bs) => (c :: as, bs)

/-- The text between two offsets. -/
def sliceBytes (cs : List Char) (start stop : Nat) : Option (List Char) := do
  let (_, tail) ← splitBytes cs start
  let (slice, _) ← splitBytes tail (stop - start)
  return slice

/-- The last offset at most `n` that is not inside a character, or the end of the text. -/
def floorBoundary : List Char → Nat → Nat
  | [], _ => 0
  | c :: cs, n => if n < c.utf8Size then 0 else c.utf8Size + floorBoundary cs (n - c.utf8Size)

/-- Cutting succeeds exactly between two characters, and loses nothing. -/
theorem splitBytes_eq_some_iff {cs : List Char} {n : Nat} {as bs : List Char} :
    splitBytes cs n = some (as, bs) ↔ cs = as ++ bs ∧ byteLength as = n := by
  fun_induction splitBytes cs n generalizing as with
  -- The cut is at the start.
  | case1 cs =>
    constructor
    · intro h; simp_all
    · rintro ⟨rfl, h⟩
      cases as with
      | nil => rfl
      | cons a as => simp at h; have := a.utf8Size_pos; omega
  -- The text is too short.
  | case2 n =>
    constructor
    · intro h; cases h
    · rintro ⟨h, h'⟩
      obtain ⟨rfl, rfl⟩ := List.append_eq_nil_iff.mp h.symm
      simp at h'
  -- The cut is inside the first character.
  | case3 c cs n h =>
    constructor
    · intro h; cases h
    · rintro ⟨h₁, h₂⟩
      cases as with
      | nil => simp at h₂
      | cons a as =>
        simp at h₁ h₂
        obtain ⟨rfl, rfl⟩ := h₁
        omega
  -- The cut is behind the first character.
  | case4 c cs n h ih =>
    constructor
    · intro h'
      obtain ⟨⟨as', bs'⟩, e, h''⟩ := Option.map_eq_some_iff.mp h'
      cases h''
      obtain ⟨rfl, h₂⟩ := ih.mp e
      exact ⟨rfl, by simp [h₂]; omega⟩
    · rintro ⟨h₁, h₂⟩
      cases as with
      | nil => simp at h₂
      | cons a as =>
        simp at h₁ h₂
        obtain ⟨rfl, rfl⟩ := h₁
        rw [ih.mpr ⟨rfl, by omega⟩]
        rfl

end ScriptTree.Text
