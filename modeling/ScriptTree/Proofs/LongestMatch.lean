import ScriptTree.Proofs.TokenStream

/-!
# Longest match

What longest match finds is a text of one of the patterns, and no pattern describes a longer start
of the text.  So a claim about the first piece of a text comes down to a claim about the texts of
the patterns, and the characters that these consist of or begin with can be read off the patterns.

## Key results

- `Pattern.munch_first`: what is found is a text of its pattern, and of none that is listed before
- `Pattern.munch_longest`: nothing longer could be found
- `Pattern.Matches.mem_classes`, `Pattern.Matches.mem_firsts`: the characters of a text, and the
  first one
-/

namespace ScriptTree

/-- A class of a single character has that and no other. -/
theorem CharClass.contains_single_iff {c d : Char} :
    (among [(d.toNat, d.toNat)]).contains c = true ↔ c = d := by
  simp only [contains_among, CharRanges.contains, List.any_cons, List.any_nil, Bool.or_false,
    Bool.and_eq_true, decide_eq_true_eq, ← Char.toNat_inj]
  omega

namespace Pattern

/-! ## Characters of a text -/

/-- The classes of the characters that a text of the pattern may have. -/
def classes : Pattern → List CharClass
  | never => []
  | nothing => []
  | one k => [k]
  | seq p q => p.classes ++ q.classes
  | alt p q => p.classes ++ q.classes
  | many p => p.classes

/-- The classes of the characters that a text of the pattern may begin with. -/
def firsts : Pattern → List CharClass
  | never => []
  | nothing => []
  | one k => [k]
  | seq p q => if p.acceptsEmpty then p.firsts ++ q.firsts else p.firsts
  | alt p q => p.firsts ++ q.firsts
  | many p => p.firsts

/-- All characters of a text that matches are in classes of the pattern. -/
theorem Matches.mem_classes {p : Pattern} {cs : List Char} (h : p.Matches cs) {c : Char}
    (hc : c ∈ cs) : ∃ k ∈ p.classes, k.contains c = true := by
  -- Induction on the match.
  induction h with
  | nothing => cases hc
  | @one k d hd =>
    obtain rfl := List.mem_singleton.mp hc
    exact ⟨k, List.mem_singleton_self k, hd⟩
  | seq _ _ ihp ihq =>
    obtain hc | hc := List.mem_append.mp hc
    · obtain ⟨k, hk, hcontains⟩ := ihp hc
      exact ⟨k, List.mem_append_left _ hk, hcontains⟩
    · obtain ⟨k, hk, hcontains⟩ := ihq hc
      exact ⟨k, List.mem_append_right _ hk, hcontains⟩
  | left _ ih =>
    obtain ⟨k, hk, hcontains⟩ := ih hc
    exact ⟨k, List.mem_append_left _ hk, hcontains⟩
  | right _ ih =>
    obtain ⟨k, hk, hcontains⟩ := ih hc
    exact ⟨k, List.mem_append_right _ hk, hcontains⟩
  | zero => cases hc
  | more _ _ ih ihs =>
    obtain hc | hc := List.mem_append.mp hc
    · exact ih hc
    · exact ihs hc

/-- The first character of a text that matches is in a class that may come first. -/
theorem Matches.mem_firsts {p : Pattern} {c : Char} {cs : List Char} (h : p.Matches (c :: cs)) :
    ∃ k ∈ p.firsts, k.contains c = true := by
  induction p generalizing c cs with
  | never => cases h
  | nothing => cases h
  | one k =>
    obtain ⟨d, hd, heq⟩ := matches_one_iff.mp h
    cases heq
    exact ⟨k, List.mem_singleton_self k, hd⟩
  | seq p q ihp ihq =>
    obtain ⟨as, bs, heq, hp, hq⟩ := matches_seq_iff.mp h
    unfold firsts
    cases as with
    | nil =>
      -- The first part is empty, so the text begins with the second one.
      rw [List.nil_append] at heq
      subst heq
      obtain ⟨k, hk, hcontains⟩ := ihq hq
      rw [if_pos ((acceptsEmpty_iff p).mpr hp)]
      exact ⟨k, List.mem_append_right _ hk, hcontains⟩
    -- The first part reads the first character.
    | cons a as =>
      cases heq
      obtain ⟨k, hk, hcontains⟩ := ihp hp
      split
      · exact ⟨k, List.mem_append_left _ hk, hcontains⟩
      · exact ⟨k, hk, hcontains⟩
  | alt p q ihp ihq =>
    obtain h | h := matches_alt_iff.mp h
    · obtain ⟨k, hk, hcontains⟩ := ihp h
      exact ⟨k, List.mem_append_left _ hk, hcontains⟩
    · obtain ⟨k, hk, hcontains⟩ := ihq h
      exact ⟨k, List.mem_append_right _ hk, hcontains⟩
  | many p ih =>
    obtain ⟨as, bs, -, ha, -⟩ := matches_many_cons_iff.mp h
    exact ih ha

/-- What holds of an empty text and is kept by each round holds of a repetition. -/
theorem Matches.many_induct {p : Pattern} {P : List Char → Prop} {cs : List Char}
    (h : (many p).Matches cs) (hzero : P [])
    (hmore : ∀ as bs, p.Matches as → P bs → P (as ++ bs)) : P cs := by
  generalize hq : many p = q at h
  induction h with
  | zero => exact hzero
  | more ha _ _ ihs =>
    cases hq
    exact hmore _ _ ha (ihs rfl)
  | _ => cases hq

/-- A fixed text describes itself only. -/
theorem matches_text_iff {s : String} {cs : List Char} : (text s).Matches cs ↔ cs = s.toList := by
  unfold text
  generalize s.toList = ds
  induction ds generalizing cs with
  | nil => exact matches_nothing_iff
  | cons d ds ih =>
    rw [List.foldr_cons]
    constructor
    · intro h
      obtain ⟨as, bs, rfl, ha, hb⟩ := matches_seq_iff.mp h
      obtain ⟨c, hc, rfl⟩ := matches_one_iff.mp ha
      rw [CharClass.contains_single_iff.mp hc, ih.mp hb, List.singleton_append]
    · intro h
      subst h
      have hd : (oneOf [(d.toNat, d.toNat)]).Matches [d] :=
        .one (CharClass.contains_single_iff.mpr rfl)
      exact .seq hd (ih.mpr rfl)

/-! ## What longest match finds -/

section

variable {α : Type} {a : α} {p : Pattern} {live lexicon : List (α × Pattern)} {cs : List Char}

/-- A pattern survives a character as its residual, if that can match at all. -/
private theorem mem_survivors {c : Char} : (a, p) ∈ survivors c live ↔
    p ≠ never ∧ ∃ q, (a, q) ∈ live ∧ p = q.residual c := by
  simp only [survivors, List.mem_filterMap, Prod.exists]
  constructor
  · intro h
    obtain ⟨b, q, hmem, hsome⟩ := h
    split at hsome
    · cases hsome
    · next hne =>
      cases hsome
      exact ⟨hne, q, hmem, rfl⟩
  · intro h
    obtain ⟨hne, q, hmem, rfl⟩ := h
    exact ⟨a, q, hmem, if_neg hne⟩

/-- The pattern that is satisfied is the first one to match the empty text. -/
private theorem satisfied_eq_some (h : satisfied live = some a) :
    ∃ l₁ p l₂, live = l₁ ++ (a, p) :: l₂ ∧ p.Matches [] ∧ ∀ e ∈ l₁, ¬ e.2.Matches [] := by
  obtain ⟨⟨b, p⟩, hfind, rfl⟩ := Option.map_eq_some_iff.mp h
  obtain ⟨haccepts, l₁, l₂, hlive, hbefore⟩ := List.find?_eq_some_iff_append.mp hfind
  refine ⟨l₁, p, l₂, hlive, (acceptsEmpty_iff p).mp haccepts, fun e he hmatch => ?_⟩
  have hrejects : (!e.2.acceptsEmpty) = true := hbefore e he
  rw [(acceptsEmpty_iff e.2).mpr hmatch] at hrejects
  cases hrejects

/-- If a pattern matches the empty text, some pattern is satisfied. -/
private theorem exists_satisfied (hmem : (a, p) ∈ live) (h : p.Matches []) :
    ∃ b, satisfied live = some b := by
  refine Option.isSome_iff_exists.mp ?_
  rw [satisfied, Option.isSome_map, List.find?_isSome]
  exact ⟨(a, p), hmem, (acceptsEmpty_iff p).mpr h⟩

/-- If the first survivor with a text is known, so is the first pattern with the longer text. -/
private theorem exists_of_survivors {c : Char} {as : List Char} {l₁ l₂ : List (α × Pattern)}
    (hlive : survivors c live = l₁ ++ (a, p) :: l₂) (h : p.Matches as)
    (hfirst : ∀ e ∈ l₁, ¬ e.2.Matches as) : ∃ m₁ q m₂, live = m₁ ++ (a, q) :: m₂ ∧
      q.Matches (c :: as) ∧ ∀ e ∈ m₁, ¬ e.2.Matches (c :: as) := by
  -- The survivor stems from an entry, with those before it in front.
  obtain ⟨ms, ns, rfl, hms, hns⟩ := List.filterMap_eq_append_iff.mp hlive
  obtain ⟨ds, ⟨b, q⟩, m₂, rfl, hds, hq, -⟩ := List.filterMap_eq_cons_iff.mp hns
  obtain ⟨rfl, rfl⟩ : b = a ∧ q.residual c = p := by
    dsimp only at hq
    split at hq
    · cases hq
    · exact Prod.mk.inj (Option.some.inj hq)
  -- What matches the longer text survives, so it is among the first survivors.
  have hsurvives (e : α × Pattern) (he : e ∈ ms ++ ds) : ¬ e.2.Matches (c :: as) := by
    intro hmatch
    have hresidual : (e.2.residual c).Matches as := matches_residual_iff.mpr hmatch
    have hne : e.2.residual c ≠ never := by
      intro hnever
      rw [hnever] at hresidual
      exact not_matches_never as hresidual
    obtain he | he := List.mem_append.mp he
    · refine hfirst (e.1, e.2.residual c) ?_ hresidual
      rw [← hms]
      exact List.mem_filterMap.mpr ⟨e, he, if_neg hne⟩
    · have hdead := hds e he
      simp only [if_neg hne] at hdead
      cases hdead
  exact ⟨ms ++ ds, q, m₂, (List.append_assoc ..).symm, matches_residual_iff.mp h, hsurvives⟩

/-- What is munched is the best so far, or a prefix that a pattern matches and none before it. -/
private theorem munchFrom_first {length n : Nat} {best : Option (α × Nat)}
    (h : munchFrom live length best cs = some (a, n)) :
    best = some (a, n) ∨ ∃ as bs, cs = as ++ bs ∧ n = length + as.length ∧
      ∃ l₁ p l₂, live = l₁ ++ (a, p) :: l₂ ∧ p.Matches as ∧ ∀ e ∈ l₁, ¬ e.2.Matches as := by
  -- Induction on the text, which only ever grows the match.
  induction cs generalizing live length best with
  | nil => exact .inl h
  | cons c cs ih =>
    unfold munchFrom at h
    split at h
    · exact .inl h
    obtain hbest | ⟨as, bs, hcs, hn, l₁, p, l₂, hlive, hp, hfirst⟩ := ih h
    · -- The match ends with this character, or it is the one of before.
      cases hsat : satisfied (survivors c live) with
      | none =>
        rw [hsat] at hbest
        exact .inl hbest
      | some b =>
        rw [hsat] at hbest
        cases hbest
        obtain ⟨l₁, p, l₂, hlive, hp, hfirst⟩ := satisfied_eq_some hsat
        exact .inr ⟨[c], cs, rfl, rfl, exists_of_survivors hlive hp hfirst⟩
    -- The match ends further on, and the residual pattern is that of the entry.
    · refine .inr ⟨c :: as, bs, by rw [hcs]; rfl, ?_, exists_of_survivors hlive hp hfirst⟩
      rw [List.length_cons]
      omega

/-- What is munched is as long as any prefix that a pattern matches. -/
private theorem munchFrom_longest {as : List Char} (hmem : (a, p) ∈ live) (h : p.Matches as)
    (hne : as ≠ []) (length : Nat) (best : Option (α × Nat)) (bs : List Char) :
    ∃ b n, munchFrom live length best (as ++ bs) = some (b, n) ∧ length + as.length ≤ n := by
  -- Induction on the text that matches: its pattern survives each character of it.
  induction as generalizing live length best p with
  | nil => exact absurd rfl hne
  | cons c as ih =>
    have hresidual : (p.residual c).Matches as := matches_residual_iff.mpr h
    have hsurvivor : (a, p.residual c) ∈ survivors c live := by
      refine mem_survivors.mpr ⟨fun hnever => ?_, p, hmem, rfl⟩
      rw [hnever] at hresidual
      exact not_matches_never as hresidual
    rw [List.cons_append]
    unfold munchFrom
    -- Some pattern is alive, so the search goes on.
    split
    · next hnone =>
      rw [hnone] at hsurvivor
      cases hsurvivor
    rw [List.length_cons]
    -- The text ends here, so the pattern is satisfied; or more of it follows.
    by_cases hlast : as = []
    · subst hlast
      obtain ⟨b, hb⟩ := exists_satisfied hsurvivor hresidual
      rw [hb]
      obtain hsame | ⟨b', n, hfound, hlt, -⟩ :=
        munchFrom_cases (survivors c live) (length + 1) (some (b, length + 1)) bs
      · exact ⟨b, length + 1, hsame, Nat.le_refl _⟩
      · refine ⟨b', n, hfound, ?_⟩
        show length + 1 ≤ n
        omega
    · obtain ⟨b, n, hfound, hle⟩ := ih hsurvivor hresidual hlast (length + 1)
        ((satisfied (survivors c live)).map (·, length + 1) <|> best)
      refine ⟨b, n, hfound, ?_⟩
      omega

/-- What longest match finds is a text of its pattern, and of none before it. -/
theorem munch_first {n : Nat} (h : munch lexicon cs = some (a, n)) :
    ∃ as bs, cs = as ++ bs ∧ n = as.length ∧ ∃ l₁ p l₂, lexicon = l₁ ++ (a, p) :: l₂ ∧
      p.Matches as ∧ ∀ e ∈ l₁, ¬ e.2.Matches as := by
  obtain hbest | ⟨as, bs, hcs, hn, hentry⟩ := munchFrom_first h
  · cases hbest
  · exact ⟨as, bs, hcs, by omega, hentry⟩

/-- What is munched is a prefix that the pattern of the entry matches. -/
theorem munch_matches {n : Nat} (h : munch lexicon cs = some (a, n)) :
    ∃ p as bs, (a, p) ∈ lexicon ∧ p.Matches as ∧ cs = as ++ bs ∧ n = as.length := by
  obtain ⟨as, bs, hcs, hn, l₁, p, l₂, hlexicon, hp, -⟩ := munch_first h
  exact ⟨p, as, bs, by simp [hlexicon], hp, hcs, hn⟩

/-- Where a pattern describes a start of the text, longest match finds one that is no shorter. -/
theorem munch_longest {as : List Char} (hmem : (a, p) ∈ lexicon) (h : p.Matches as)
    (hne : as ≠ []) (bs : List Char) :
    ∃ b n, munch lexicon (as ++ bs) = some (b, n) ∧ as.length ≤ n := by
  obtain ⟨b, n, hfound, hle⟩ := munchFrom_longest hmem h hne 0 none bs
  exact ⟨b, n, hfound, by omega⟩

end

end Pattern

/-- The text of a piece is described by a pattern of its kind, unless it is garbage. -/
theorem Piece.Leads.matches {p : Piece} {cs : List Char} (h : p.Leads cs)
    (hkind : p.kind ≠ .garbage) :
    ∃ q, (p.kind, q) ∈ Lexicon.entries ∧ q.Matches p.chars := by
  obtain h | ⟨-, hgarbage, -⟩ := h
  · obtain ⟨q, as, bs, hmem, hq, heq, hlength⟩ := Pattern.munch_matches h
    obtain ⟨rfl, -⟩ := List.append_inj heq hlength
    exact ⟨q, hmem, hq⟩
  · exact absurd hgarbage hkind

end ScriptTree
