import ScriptTree.Text.Quoted

/-!
# Reading quoted texts

Each character of a text is quoted on its own.  What stands for it can be read back without looking
further than where it ends: an escape begins with a backslash, which is itself escaped, and the
digits of a hexadecimal escape end at a brace.  So different texts are quoted differently.

A quoted text takes up one line, whatever the text contains.

## Key results

- `Text.ofHex_toDigits`: hexadecimal digits are read back
- `Text.readChar?_escapeChar`: so is each quoted character
- `Text.quoted_inj`: a quoted text shows which text it is
- `Text.newline_notMem_quoted`: it has no line breaks
-/

namespace ScriptTree.Text

/-! ## Hexadecimal digits -/

/-- Value of a hexadecimal digit. -/
def hexValue (c : Char) : Nat :=
  if c.isDigit then c.toNat - '0'.toNat else c.toNat - 'a'.toNat + 10

/-- The number that hexadecimal digits show. -/
def ofHex (ds : List Char) : Nat := ds.foldl (fun n d => 16 * n + hexValue d) 0

/-- The value of a digit is read back. -/
private theorem hexValue_digitChar {d : Nat} (hd : d < 16) : hexValue d.digitChar = d := by
  have hall : ∀ d : Fin 16, hexValue d.val.digitChar = d.val := by decide
  exact hall ⟨d, hd⟩

/-- The value of a hexadecimal number is read back. -/
theorem ofHex_toDigits (n : Nat) : ofHex (Nat.toDigits 16 n) = n := by
  induction n using Nat.strongRecOn with
  | ind n ih =>
    rw [Nat.toDigits_eq_if (by decide)]
    split
    next hlt => rw [ofHex, List.foldl_cons, List.foldl_nil, hexValue_digitChar hlt]; omega
    next hge =>
      have hprefix := ih (n / 16) (by omega)
      rw [ofHex] at hprefix
      rw [ofHex, List.foldl_append, hprefix, List.foldl_cons, List.foldl_nil,
        hexValue_digitChar (Nat.mod_lt n (by decide))]
      omega

/-- A hexadecimal number is made of hexadecimal digits. -/
private theorem mem_toDigits {n : Nat} {c : Char} (h : c ∈ Nat.toDigits 16 n) :
    ∃ d < 16, c = Nat.digitChar d := by
  induction n using Nat.strongRecOn with
  | ind n ih =>
    rw [Nat.toDigits_eq_if (by decide)] at h
    split at h
    next hlt => exact ⟨n, hlt, List.mem_singleton.mp h⟩
    next hge =>
      obtain h | h := List.mem_append.mp h
      · exact ih (n / 16) (by omega) h
      · exact ⟨n % 16, Nat.mod_lt n (by decide), List.mem_singleton.mp h⟩

/-- Hexadecimal digits are letters and digits. -/
private theorem isAlphanum_of_mem_toDigits {n : Nat} {c : Char} (h : c ∈ Nat.toDigits 16 n) :
    c.isAlphanum = true := by
  obtain ⟨d, hd, rfl⟩ := mem_toDigits h
  have hall : ∀ d : Fin 16, d.val.digitChar.isAlphanum = true := by decide
  exact hall ⟨d, hd⟩

/-! ## Escapes -/

/-- The character that a letter or a mark after a backslash stands for. -/
def unescape? : Char → Option Char
  | '0' => some '\x00'
  | 't' => some '\t'
  | 'r' => some '\r'
  | 'n' => some '\n'
  | '\\' => some '\\'
  | '"' => some '"'
  | '\x27' => some '\x27'
  | _ => none

/-- The first character that a quoted text shows, and what follows. -/
def readChar? : List Char → Option (Char × List Char)
  | '\\' :: 'u' :: '\x7b' :: cs =>
    some (Char.ofNat (ofHex (cs.takeWhile (· != '\x7d'))), (cs.dropWhile (· != '\x7d')).drop 1)
  | '\\' :: e :: cs => (unescape? e).map (·, cs)
  | c :: cs => some (c, cs)
  | [] => none

/-- A character that is escaped by its code is read back. -/
private theorem readChar?_hexEscape (c : Char) (cs : List Char) :
    readChar? (hexEscape c ++ cs) = some (c, cs) := by
  have hdigits : ∀ d ∈ Nat.toDigits 16 c.toNat, (d != '\x7d') = true := by
    intro d hd
    have halnum := isAlphanum_of_mem_toDigits hd
    rw [bne_iff_ne]
    rintro rfl
    exact absurd halnum (by decide)
  have happend : hexEscape c ++ cs =
      '\\' :: 'u' :: '\x7b' :: (Nat.toDigits 16 c.toNat ++ '\x7d' :: cs) := by simp [hexEscape]
  rw [happend, readChar?, List.takeWhile_append_of_pos hdigits,
    List.dropWhile_append_of_pos hdigits, List.takeWhile_cons_of_neg (by simp),
    List.dropWhile_cons_of_neg (by simp), List.append_nil, ofHex_toDigits, Char.ofNat_toNat]
  rfl

section

variable (single extend : Bool)

/-- How a character is quoted: it stands for itself, or follows a backslash by another name, or is
    given by its number. -/
private theorem escapeChar_cases (c : Char) :
    (escapeChar single extend c = [c] ∧ c ≠ '\\' ∧ c ≠ '\n') ∨
    (∃ e, escapeChar single extend c = ['\\', e] ∧ unescape? e = some c) ∨
    escapeChar single extend c = hexEscape c := by
  -- The characters with a short escape come first.
  by_cases hnull : c = '\x00'
  · subst hnull
    exact .inr (.inl ⟨'0', rfl, rfl⟩)
  by_cases htab : c = '\t'
  · subst htab
    exact .inr (.inl ⟨'t', rfl, rfl⟩)
  by_cases hreturn : c = '\r'
  · subst hreturn
    exact .inr (.inl ⟨'r', rfl, rfl⟩)
  by_cases hnewline : c = '\n'
  · subst hnewline
    exact .inr (.inl ⟨'n', rfl, rfl⟩)
  by_cases hbackslash : c = '\\'
  · subst hbackslash
    exact .inr (.inl ⟨'\\', rfl, rfl⟩)
  by_cases hquote : c = '"'
  · subst hquote
    exact .inr (.inl ⟨'"', rfl, rfl⟩)
  -- The apostrophe has one in a message only.
  by_cases hapostrophe : c = '\x27'
  · subst hapostrophe
    cases single with
    | false => exact .inl ⟨rfl, hbackslash, hnewline⟩
    | true => exact .inr (.inl ⟨'\x27', rfl, rfl⟩)
  -- What is left is shown as it is or by its number.
  rw [escapeChar, if_neg hnull, if_neg htab, if_neg hreturn, if_neg hnewline, if_neg hbackslash,
    if_neg hquote, if_neg hapostrophe]
  split
  · exact .inr (.inr rfl)
  split
  · exact .inl ⟨rfl, hbackslash, hnewline⟩
  · exact .inr (.inr rfl)

/-- What stands for a character is read back, whatever follows. -/
theorem readChar?_escapeChar (c : Char) (cs : List Char) :
    readChar? (escapeChar single extend c ++ cs) = some (c, cs) := by
  obtain ⟨h, hc, -⟩ | ⟨e, h, he⟩ | h := escapeChar_cases single extend c
  · rw [h, List.singleton_append, readChar?]
    all_goals simp [hc]
  · -- No short escape can be taken for the beginning of a hexadecimal one.
    have hu : e ≠ 'u' := by
      rintro rfl
      cases he
    rw [h, List.cons_append, List.singleton_append, readChar?, he]
    · rfl
    · simp [hu]
  · rw [h, readChar?_hexEscape]

/-- No escape has a line break in it. -/
private theorem newline_notMem_escapeChar (c : Char) : '\n' ∉ escapeChar single extend c := by
  obtain ⟨h, -, hc⟩ | ⟨e, h, he⟩ | h := escapeChar_cases single extend c
  · rw [h, List.mem_singleton]
    exact hc.symm
  · have hne : e ≠ '\n' := by
      rintro rfl
      cases he
    simp [h, hne.symm]
  · have hdigits : '\n' ∉ Nat.toDigits 16 c.toNat := fun hmem =>
      absurd (isAlphanum_of_mem_toDigits hmem) (by decide)
    simp [h, hexEscape, hdigits]

end

/-! ## Texts -/

/-- The first characters of two texts are read back from what stands for them, and then the rest
    is. -/
private theorem flatMap_escapeChar_inj {single extend : Bool} {cs ds : List Char} :
    cs.flatMap (escapeChar single extend) = ds.flatMap (escapeChar single extend) ↔ cs = ds := by
  refine ⟨fun h => ?_, fun h => by rw [h]⟩
  -- Induction on the text: the first character is read back from its escape.
  induction cs generalizing ds with
  | nil =>
    cases ds with
    | nil => rfl
    | cons d ds =>
      have hread := congrArg readChar? h
      rw [List.flatMap_cons, readChar?_escapeChar] at hread
      cases hread
  | cons c cs ih =>
    have hread := congrArg readChar? h
    rw [List.flatMap_cons, readChar?_escapeChar] at hread
    cases ds with
    | nil => cases hread
    | cons d ds =>
      rw [List.flatMap_cons, readChar?_escapeChar] at hread
      obtain ⟨rfl, hrest⟩ := Prod.mk.inj (Option.some.inj hread)
      rw [ih hrest]

variable {s t : String}

/-- Quoted texts tell the texts. -/
theorem quoted_inj : quoted s = quoted t ↔ s = t := by
  rw [quoted, quoted, String.ofList_inj, List.append_cancel_right_eq, List.cons.injEq,
    flatMap_escapeChar_inj, String.toList_inj, eq_self, true_and]

/-- No quoted text has a line break in it. -/
theorem newline_notMem_quoted (s : String) : '\n' ∉ (quoted s).toList := by
  simp [quoted, newline_notMem_escapeChar]

end ScriptTree.Text
