import ScriptTree.Proofs.Findings

/-!
# Suppressed reports

`Diagnostic.filtered` drops the reports that others make superfluous.  A report that is dropped may
have taken others away before, so what is dropped need not be suppressed by anything that is kept.
Among the reports of a parse this happens in two ways only, and both have to do with blocks
(`Diagnostic.Undercuts`).

## Key results

- `Diagnostic.mem_filtered_or`: what is dropped is suppressed by what is kept, where suppression is
  transitive but for pairs that do not come one after the other
- `parse_filtered`: what a parse reports and what is kept of it
-/

namespace ScriptTree

namespace Diagnostic

/-! ## Sweeping -/

/-- The reports that sweep away others: those that are still there at their turn. -/
def sweepers : List Diagnostic → List Diagnostic
  | [] => []
  | a :: todo => a :: sweepers (a.spared todo)
termination_by todo => todo.length
decreasing_by exact Nat.lt_succ_of_le (length_spared_le a todo)

variable {a b c d : Diagnostic} {ds survivors : List Diagnostic}

/-- What is spared is what is not suppressed. -/
theorem mem_spared : c ∈ a.spared ds ↔ c ∈ ds ∧ a.suppresses c = false := by
  simp [spared]

/-- What sweeps is some of the reports, in order. -/
private theorem sweepers_sublist (ds : List Diagnostic) : (sweepers ds).Sublist ds := by
  induction ds using sweepers.induct with
  | case1 => rw [sweepers]
  | case2 a todo ih =>
    rw [sweepers]
    exact (ih.trans List.filter_sublist).cons_cons a

/-- What has no turn was swept away before. -/
private theorem exists_sweeper (hc : c ∈ ds) (h : c ∉ sweepers ds) :
    ∃ b ∈ sweepers ds, b.suppresses c = true := by
  induction ds using sweepers.induct with
  | case1 => cases hc
  | case2 a todo ih =>
    rw [sweepers] at h ⊢
    have hne : c ≠ a := List.ne_of_not_mem_cons h
    have hmore : c ∉ sweepers (a.spared todo) := List.not_mem_of_not_mem_cons h
    cases hsuppresses : a.suppresses c with
    | true => exact ⟨a, List.mem_cons_self, hsuppresses⟩
    | false =>
      have hspared : c ∈ a.spared todo :=
        mem_spared.mpr ⟨(List.mem_cons.mp hc).resolve_left hne, hsuppresses⟩
      obtain ⟨b, hb, hbc⟩ := ih hspared hmore
      exact ⟨b, List.mem_cons_of_mem a hb, hbc⟩

/-- What survives a sweep is what no later sweeper suppresses. -/
private theorem mem_sweep_of_spared
    (h : d ∈ survivors ∧ (∀ a ∈ sweepers ds, a.suppresses d = false) ∨
      ∃ l₁ l₂, sweepers ds = l₁ ++ d :: l₂ ∧ ∀ a ∈ l₂, a.suppresses d = false) :
    d ∈ sweep survivors ds := by
  induction ds using sweepers.induct generalizing survivors with
  | case1 =>
    rw [sweep]
    obtain ⟨hd, -⟩ | ⟨l₁, l₂, hnil, -⟩ := h
    · exact hd
    · rw [sweepers] at hnil
      simp at hnil
  | case2 a todo ih =>
    rw [sweepers] at h
    rw [sweep]
    -- A kept report is spared by the next one, or the next one is the report itself.
    obtain ⟨hd, hspares⟩ | ⟨l₁, l₂, hsplit, hspares⟩ := h
    · obtain ⟨ha, hmore⟩ := List.forall_mem_cons.mp hspares
      exact ih (.inl ⟨List.mem_append_left _ (mem_spared.mpr ⟨hd, ha⟩), hmore⟩)
    · cases l₁ with
      | nil =>
        obtain ⟨rfl, rfl⟩ := List.cons.inj hsplit
        exact ih (.inl ⟨List.mem_append_right _ List.mem_cons_self, hspares⟩)
      | cons x l₁ =>
        obtain ⟨rfl, hmore⟩ := List.cons.inj hsplit
        exact ih (.inr ⟨l₁, l₂, hmore, hspares⟩)

/-- A report that sweeps and that no later sweeper suppresses is kept. -/
private theorem mem_filtered_of_spared {l₁ l₂ : List Diagnostic}
    (hsplit : sweepers ds = l₁ ++ d :: l₂)
    (hspares : ∀ a ∈ l₂, a.suppresses d = false) : d ∈ filtered ds :=
  mem_sweep_of_spared (.inr ⟨l₁, l₂, hsplit, hspares⟩)

/-- The last one in a list that suppresses a report. -/
private theorem exists_last_suppressor (h : ∃ b ∈ ds, b.suppresses c = true) :
    ∃ l₁ b l₂, ds = l₁ ++ b :: l₂ ∧ b.suppresses c = true ∧ ∀ a ∈ l₂, a.suppresses c = false := by
  induction ds with
  | nil => simp at h
  | cons x ds ih =>
    by_cases hmore : ∃ b ∈ ds, b.suppresses c = true
    · obtain ⟨l₁, b, l₂, rfl, hb, hspares⟩ := ih hmore
      exact ⟨x :: l₁, b, l₂, rfl, hb, hspares⟩
    · obtain ⟨b, hb, hbc⟩ := h
      obtain rfl | hb := List.mem_cons.mp hb
      · refine ⟨[], b, ds, rfl, hbc, fun a ha => Bool.eq_false_iff.mpr fun hac => ?_⟩
        exact hmore ⟨a, ha, hac⟩
      · exact absurd ⟨b, hb, hbc⟩ hmore

/-- A dropped report is suppressed by a sweeper. -/
private theorem exists_suppressor (hc : c ∈ ds) (hdropped : c ∉ filtered ds) :
    ∃ b ∈ sweepers ds, b.suppresses c = true := by
  by_cases hmem : c ∈ sweepers ds
  · obtain ⟨l₁, l₂, hsplit⟩ := List.append_of_mem hmem
    by_contra hnone
    refine hdropped (mem_filtered_of_spared hsplit fun a ha => Bool.eq_false_iff.mpr fun hac => ?_)
    exact hnone ⟨a, by rw [hsplit]; exact List.mem_append_right _ (List.mem_cons_of_mem c ha), hac⟩
  · exact exists_sweeper hc hmem

/-- Where suppression is transitive along a list but for some triples, and these do not continue
    each other, a dropped report is suppressed by one that is kept, or is the last of such a triple
    whose first one is kept. -/
theorem mem_filtered_or {E : Diagnostic → Diagnostic → Diagnostic → Prop}
    (htriple : ∀ a b c, [b, a].Sublist ds → c ∈ ds → a.suppresses b = true →
      b.suppresses c = true → a.suppresses c = true ∨ E a b c)
    (hchain : ∀ a' a b c, E a' a b → ¬ E a b c) (hc : c ∈ ds) (hdropped : c ∉ filtered ds) :
    (∃ a ∈ filtered ds, a.suppresses c = true) ∨
      ∃ b ∈ ds, ∃ a ∈ filtered ds, b.suppresses c = true ∧ a.suppresses b = true ∧ E a b c := by
  have hsub := sweepers_sublist ds
  obtain ⟨l₁, b, l₂, hsplit, hbc, hlast⟩ := exists_last_suppressor (exists_suppressor hc hdropped)
  have hb : b ∈ ds := hsub.subset (by rw [hsplit]; simp)
  -- The last suppressor of `c` is kept, or the last suppressor of it in turn is.
  by_cases hspared : ∃ a ∈ l₂, a.suppresses b = true
  · right
    obtain ⟨l₃, a, l₄, rfl, hab, hlast'⟩ := exists_last_suppressor hspared
    have hE : E a b c := by
      refine (htriple a b c (.trans ?_ hsub) hc hab hbc).resolve_left ?_
      · rw [hsplit]
        exact List.sublist_append_of_sublist_right (.cons_cons b (by simp))
      · rw [hlast a (by simp)]
        exact Bool.false_ne_true
    refine ⟨b, hb, a, ?_, hbc, hab, hE⟩
    have hsplit' : sweepers ds = (l₁ ++ b :: l₃) ++ a :: l₄ := by rw [hsplit]; simp
    refine mem_filtered_of_spared hsplit' fun a' ha' => ?_
    -- Whatever suppressed `a` would suppress `b`, and come later.
    refine Bool.eq_false_iff.mpr fun haa' => ?_
    have hbds : [a, a'].Sublist (sweepers ds) := by
      rw [hsplit]
      refine List.sublist_append_of_sublist_right (.cons b ?_)
      exact List.sublist_append_of_sublist_right (.cons_cons a (List.singleton_sublist.mpr ha'))
    obtain ha'b | hE' := htriple a' a b (hbds.trans hsub) hb haa' hab
    · rw [hlast' a' ha'] at ha'b
      cases ha'b
    · exact hchain a' a b c hE' hE
  · left
    refine ⟨b, mem_filtered_of_spared hsplit fun a ha => ?_, hbc⟩
    exact Bool.eq_false_iff.mpr fun hab => hspared ⟨a, ha, hab⟩

end Diagnostic

/-! ## Suppression and priority -/

namespace Problem

variable {problem : Problem}

/-- The reports on unclosed delimiters have the lowest ranks. -/
private theorem isStructural_iff : problem.isStructural = true ↔ problem.rank < 3 := by
  cases problem <;> decide

/-- The reports on what is missing have the ranks behind. -/
private theorem isRootCause_iff :
    problem.isRootCause = true ↔ 3 ≤ problem.rank ∧ problem.rank < 9 := by
  cases problem <;> decide

/-- The rank of an empty block is its own. -/
private theorem eq_emptyBlock_iff : problem = .emptyBlock ↔ problem.rank = 9 := by
  cases problem <;> decide

/-- Of what is wrong between statements, an empty block suppresses tokens out of place, lexical
    errors and semicolons. -/
private theorem isStray_cases (h : problem.isStray = true) (hrank : 9 < problem.rank) :
    problem = .unexpectedToken ∨ problem.isComplaint = false ∧ 11 < problem.rank := by
  revert h hrank
  cases problem <;> decide

/-- A token out of place suppresses lexical errors and semicolons. -/
private theorem lt_unexpectedToken (hrank : unexpectedToken.rank < problem.rank) :
    problem.isLexical = true ∨ problem = .redundantSemicolon := by
  revert hrank
  cases problem <;> decide

/-- The reports that span something are told by their ranks. -/
private theorem isSpanning_iff : problem.isSpanning = true ↔
    problem.rank < 3 ∨ problem.rank = 9 := by
  cases problem <;> decide

/-- What is missing is reported about the current token. -/
private theorem isPointed_of_isRootCause (h : problem.isRootCause = true) :
    problem.isPointed = true := by
  cases problem <;> first | rfl | cases h

/-- The grammar does not complain about what spans. -/
private theorem isComplaint_eq_false_of_isSpanning (h : problem.isSpanning = true) :
    problem.isComplaint = false := by
  cases problem <;> first | rfl | cases h

end Problem

namespace Diagnostic

variable {a b c : Diagnostic}

/-- A report suppresses those inside its region that have higher ranks. -/
private theorem suppressesInside_iff : a.suppressesInside b = true ↔
    (a.region.start < b.span.start ∧ b.span.stop ≤ a.region.stop) ∧
      a.problem.rank < b.problem.rank := by
  simp [suppressesInside, Span.strictlyContains, Problem.outranks]

/-- At one place a missing part wins over an unclosed delimiter; otherwise the priority counts. -/
private theorem suppressesAtStart_iff : a.suppressesAtStart b = true ↔ a.span.start = b.span.start ∧
    (a.problem.isRootCause = true ∧ b.problem.isStructural = true ∨
      a.problem.rank < b.problem.rank ∧
        (a.problem.isStructural = true → b.problem.isRootCause = false)) := by
  unfold suppressesAtStart Problem.outranks
  rw [Bool.and_eq_true, beq_iff_eq]
  refine and_congr_right fun _ => ?_
  cases ha : a.problem.isRootCause <;> cases hb : b.problem.isStructural <;>
    cases ha' : a.problem.isStructural <;> cases hb' : b.problem.isRootCause <;> simp

/-- A report suppresses what is inside, or what starts with it. -/
private theorem suppresses_iff : a.suppresses b = true ↔
    a.suppressesInside b = true ∨ a.suppressesAtStart b = true := by
  rw [suppresses, Bool.or_eq_true]

/-- `a` takes `b` away, and `b` was all there is to explain that `c` is not shown.  Either `a` is an
    empty block and `b` a token out of place in it, which took away what is wrong behind the block.
    Or `a` is an unclosed block and `b` something missing at the brace of the unclosed block `c`
    inside. -/
def Undercuts (a b c : Diagnostic) : Prop :=
  a.problem = .emptyBlock ∧ b.problem = .unexpectedToken ∧ a.span.stop < c.span.stop ∧
      (c.problem.isLexical = true ∨ c.problem = .redundantSemicolon) ∨
    a.problem = .unclosedBlock ∧ b.problem.isRootCause = true ∧ c.problem = .unclosedBlock ∧
      b.span.start = c.span.start

/-- What undercuts is not undercut in turn. -/
private theorem Undercuts.not_undercuts {a' : Diagnostic} (h : a'.Undercuts a b) :
    ¬ a.Undercuts b c := by
  rintro (⟨ha, -⟩ | ⟨ha, -⟩) <;> obtain ⟨-, ha', -⟩ | ⟨-, ha', -⟩ := h <;> rw [ha] at ha' <;>
    cases ha'

/-- What is suppressed has less priority, or it is an unclosed delimiter at which something is
    missing. -/
private theorem rank_lt_of_suppresses (h : b.suppresses c = true) :
    b.problem.rank < c.problem.rank ∨
    b.problem.isRootCause = true ∧ c.problem.isStructural = true ∧ b.span.start = c.span.start := by
  obtain h | h := suppresses_iff.mp h
  · exact .inl (suppressesInside_iff.mp h).2
  · obtain ⟨hstart, ⟨hb, hc⟩ | ⟨hrank, -⟩⟩ := suppressesAtStart_iff.mp h
    · exact .inr ⟨hb, hc, hstart⟩
    · exact .inl hrank

/-! ## What a parse reports -/

namespace Recorded

variable {g : Setting} {tokens : List Token} {ds : List Diagnostic}

/-- Of two reports, one comes first. -/
private theorem precedes_or (h : Recorded g tokens ds) (ha : a ∈ ds) (hb : b ∈ ds) (hne : a ≠ b) :
    a.Precedes g b ∨ b.Precedes g a := by
  have hsymm : Std.Symm fun a b : Diagnostic => a.Precedes g b ∨ b.Precedes g a :=
    ⟨fun _ _ => Or.symm⟩
  exact (h.pairs.imp Or.inl).forall (R := fun a b => a.Precedes g b ∨ b.Precedes g a) ha hb hne

/-- Two delimiters that are reported to be unclosed are braces of blocks. -/
private theorem eq_unclosedBlock (h : Recorded g tokens ds) (ha : a ∈ ds) (hb : b ∈ ds)
    (hne : a ≠ b) (ha' : a.problem.isStructural = true) (hb' : b.problem.isStructural = true) :
    a.problem = .unclosedBlock ∧ b.problem = .unclosedBlock := by
  -- At most two reports of a kind that speaks of a structure, at the end of the source.
  obtain hclosed | ⟨before, u, after, rfl, hbefore, hafter⟩ |
    ⟨before, u, e, v, rfl, hbefore, hu, he, hv, -⟩ := h.unwound
  · rw [hclosed a ha] at ha'
    cases ha'
  · have honly {x : Diagnostic} (hx : x ∈ before ++ u :: after)
        (hx' : x.problem.isStructural = true) : x = u := by
      obtain hx | rfl | hx := by simpa using hx
      · rw [hbefore x hx] at hx'
        cases hx'
      · rfl
      · rw [hafter x hx] at hx'
        cases hx'
    exact absurd ((honly ha ha').trans (honly hb hb').symm) hne
  -- Two reports of unclosed delimiters with an empty block between them.
  · have honly {x : Diagnostic} (hx : x ∈ before ++ [u, e, v])
        (hx' : x.problem.isStructural = true) : x.problem = .unclosedBlock := by
      obtain hx | rfl | rfl | rfl := by simpa using hx
      · rw [hbefore x hx] at hx'
        cases hx'
      · exact hu
      · rw [he] at hx'
        cases hx'
      · exact hv
    exact ⟨honly ha ha', honly hb hb'⟩

/-- A later report whose region holds an earlier one suppresses what that one suppresses in its own
    region, unless it is an empty block. -/
private theorem suppresses_of_inside (h : Recorded g tokens ds) (hba : b.Precedes g a) (ha : a ∈ ds)
    (hb : b ∈ ds) (hc : c ∈ ds) (hab : a.suppressesInside b = true) (hbc : b.suppresses c = true)
    (hrank : b.problem.rank < c.problem.rank) : a.suppresses c = true ∨ a.Undercuts b c := by
  obtain ⟨⟨hstart, hstop⟩, hrank'⟩ := suppressesInside_iff.mp hab
  obtain ⟨hle, hkind⟩ := hba.inside hstart
  have hlt : a.region.start < c.span.start := by
    obtain hbc | hbc := suppresses_iff.mp hbc
    · exact Nat.lt_of_le_of_lt hle (suppressesInside_iff.mp hbc).1.1
    · rwa [← (suppressesAtStart_iff.mp hbc).1]
  have hsuppresses (hle : c.span.stop ≤ a.region.stop) : a.suppresses c = true :=
    suppresses_iff.mpr (.inl (suppressesInside_iff.mpr ⟨⟨hlt, hle⟩, hrank'.trans hrank⟩))
  -- An empty report lies within a stray, or one pointed report lies behind the other.
  obtain ⟨hempty, hstray⟩ | hend := hkind
  · rw [hempty] at hrank'
    obtain hb' | ⟨hcomplaint, hb'⟩ := Problem.isStray_cases hstray hrank'
    · by_cases hle : c.span.stop ≤ a.region.stop
      · exact .inl (hsuppresses hle)
      · have hregion : a.region = a.span := (h.sound a ha).region (by rw [hempty]; rfl)
        rw [hb'] at hrank
        exact .inr (.inl ⟨hempty, hb', by rw [← hregion]; exact Nat.lt_of_not_le hle,
          Problem.lt_unexpectedToken hrank⟩)
    -- Semicolons and lexical errors reach no further than what is shown of them.
    · have hregion : b.region = b.span := (h.sound b hb).region hcomplaint
      obtain hbc | hbc := suppresses_iff.mp hbc
      · have hle := (suppressesInside_iff.mp hbc).1.2
        rw [hregion] at hle
        exact .inl (hsuppresses (hle.trans hstop))
      · have hstart := (suppressesAtStart_iff.mp hbc).1
        have hne : b ≠ c := fun heq => Nat.ne_of_lt hrank (by rw [heq])
        obtain hprecedes | hprecedes := h.precedes_or hb hc hne
        · have hspanning := Problem.isSpanning_iff.mp (hprecedes.together hstart.symm).1
          omega
        · have hspanning := Problem.isSpanning_iff.mp (hprecedes.together hstart).1
          omega
  · exact .inl (hsuppresses (by rw [hend]; exact (h.sound c hc).span_stop))

/-- What takes away a missing part at an unclosed delimiter is a block outside. -/
private theorem undercuts_of_isRootCause (h : Recorded g tokens ds) (hba : b.Precedes g a)
    (ha : a ∈ ds)
    (hc : c ∈ ds) (hab : a.suppressesInside b = true) (hb' : b.problem.isRootCause = true)
    (hc' : c.problem.isStructural = true) (hstart : b.span.start = c.span.start) :
    a.Undercuts b c := by
  obtain ⟨⟨hin, -⟩, hrank⟩ := suppressesInside_iff.mp hab
  have hregion {x : Diagnostic} (hx : x ∈ ds) (hx' : x.problem.isStructural = true) :
      x.region = x.span :=
    (h.sound x hx).region (Problem.isComplaint_eq_false_of_isSpanning
      (Problem.isSpanning_of_isStructural hx'))
  have hrootcause := Problem.isRootCause_iff.mp hb'
  cases ha' : a.problem.isStructural with
  | true =>
    have hne : a ≠ c := by
      rintro rfl
      rw [hregion ha ha', hstart] at hin
      exact Nat.lt_irrefl _ hin
    obtain ⟨ha'', hc''⟩ := h.eq_unclosedBlock ha hc hne ha' hc'
    exact .inr ⟨ha'', hb', hc'', hstart⟩
  | false =>
    -- Else something was missing while the delimiter was open, so in a region inside it.
    exfalso
    have hstructural := mt Problem.isStructural_iff.mpr (Bool.eq_false_iff.mp ha')
    have haroot : a.problem.isRootCause = true :=
      Problem.isRootCause_iff.mpr ⟨by omega, by omega⟩
    have hapointed := Problem.isPointed_of_isRootCause haroot
    have hordered := hba.ordered (Problem.isPointed_of_isRootCause hb') hapointed
    have hne : c ≠ a := by
      rintro rfl
      rw [hc'] at ha'
      cases ha'
    obtain hprecedes | hprecedes := h.precedes_or hc ha hne
    · rw [hprecedes.last hc'] at hapointed
      cases hapointed
    · have hinside := hprecedes.inside
      rw [hregion hc hc', ← hstart] at hinside
      exact Nat.not_lt_of_le (hinside hordered).1 hin

/-- A later report at the same place is an unclosed block that is empty. -/
private theorem suppresses_of_atStart (h : Recorded g tokens ds) (hba : b.Precedes g a)
    (ha : a ∈ ds) (hb : b ∈ ds) (hc : c ∈ ds) (hab : a.suppressesAtStart b = true)
    (hbc : b.suppresses c = true) : a.suppresses c = true := by
  obtain ⟨hstart, hcases⟩ := suppressesAtStart_iff.mp hab
  obtain ⟨haspanning, hb'⟩ := hba.together hstart
  have harank := Problem.isSpanning_iff.mp haspanning
  -- The first suppresses by its root cause, or it outranks the second.
  obtain ⟨hroot, -⟩ | ⟨hrank, hnotroot⟩ := hcases
  · have hrootrank := Problem.isRootCause_iff.mp hroot
    omega
  -- Both are structural, and of the pair at the end only the empty block is of rank nine.
  have hbrank : b.problem.rank = 9 ∧ a.problem.rank < 3 := by
    have hbcases := hb'.imp Problem.isRootCause_iff.mp Problem.isSpanning_iff.mp
    have hlow : a.problem.rank < 3 := by omega
    have hastructural := Problem.isStructural_iff.mpr hlow
    refine ⟨?_, hlow⟩
    obtain hroot | hbspanning := hb'
    · rw [hnotroot hastructural] at hroot
      cases hroot
    refine (Problem.isSpanning_iff.mp hbspanning).resolve_left fun hblow => ?_
    have hne : a ≠ b := fun heq => Nat.ne_of_lt hrank (by rw [heq])
    obtain ⟨ha'', hb''⟩ := h.eq_unclosedBlock ha hb hne hastructural
      (Problem.isStructural_iff.mpr hblow)
    rw [ha'', hb''] at hrank
    exact Nat.lt_irrefl _ hrank
  have hempty := Problem.eq_emptyBlock_iff.mpr hbrank.1
  have hastructural := Problem.isStructural_iff.mpr hbrank.2
  have hregion : a.region = a.span :=
    (h.sound a ha).region (Problem.isComplaint_eq_false_of_isSpanning haspanning)
  have hrank' : b.problem.rank < c.problem.rank := by
    refine (rank_lt_of_suppresses hbc).resolve_right fun ⟨hroot, _⟩ => ?_
    rw [hempty] at hroot
    cases hroot
  rw [suppresses_iff]
  -- The region of an empty block is its span, so the place carries over in both ways.
  obtain hbc | hbc := suppresses_iff.mp hbc
  · left
    rw [suppressesInside_iff, hregion, (h.sound a ha).structural hastructural]
    have hbregion : b.region = b.span := (h.sound b hb).region (by rw [hempty]; rfl)
    have hlt := (suppressesInside_iff.mp hbc).1.1
    rw [hbregion, ← hstart] at hlt
    exact ⟨⟨hlt, (h.sound c hc).span_stop⟩, hrank.trans hrank'⟩
  · right
    refine suppressesAtStart_iff.mpr ⟨hstart.trans (suppressesAtStart_iff.mp hbc).1,
      .inr ⟨hrank.trans hrank', fun _ => Bool.eq_false_iff.mpr fun hroot => ?_⟩⟩
    have hrootrank := Problem.isRootCause_iff.mp hroot
    omega

/-- Along the reports of a parse, suppression is transitive but for what undercuts. -/
private theorem suppresses_or (h : Recorded g tokens ds) (hsub : [b, a].Sublist ds) (hc : c ∈ ds)
    (hab : a.suppresses b = true) (hbc : b.suppresses c = true) :
    a.suppresses c = true ∨ a.Undercuts b c := by
  have ha : a ∈ ds := hsub.subset (by simp)
  have hb : b ∈ ds := hsub.subset (by simp)
  have hba : b.Precedes g a := List.pairwise_pair.mp (h.pairs.sublist hsub)
  obtain hab | hab := suppresses_iff.mp hab
  · obtain hrank | ⟨hb', hc', hstart⟩ := rank_lt_of_suppresses hbc
    · exact h.suppresses_of_inside hba ha hb hc hab hbc hrank
    · exact .inr (h.undercuts_of_isRootCause hba ha hc hab hb' hc' hstart)
  · exact .inl (h.suppresses_of_atStart hba ha hb hc hab hbc)

end Recorded

end Diagnostic

/-- What a parse reports and is not kept is suppressed by something that is kept, or undercut. -/
theorem parse_filtered (o : Options) (source : String) (p : Parsed) (hrecovery : o.recovery = true)
    (hparse : parse o source = .ok (.ok p)) (c : Diagnostic) (hc : c ∈ p.diagnostics)
    (hdropped : c ∉ Diagnostic.filtered p.diagnostics) :
    (∃ a ∈ Diagnostic.filtered p.diagnostics, a.suppresses c = true) ∨
      ∃ b ∈ p.diagnostics, ∃ a ∈ Diagnostic.filtered p.diagnostics,
        b.suppresses c = true ∧ a.suppresses b = true ∧ a.Undercuts b c := by
  obtain ⟨g, -, hrecorded⟩ := parse_recorded hrecovery hparse
  exact Diagnostic.mem_filtered_or (fun a b c => hrecorded.suppresses_or)
    (fun a' a b c => Diagnostic.Undercuts.not_undercuts) hc hdropped

/-- That the inner one of two blocks is empty is suppressed by the outer one, which is unclosed. -/
theorem parse_filtered_empty : ∃ p c, parse .default "\x7b\x7b" = .ok (.ok p) ∧
    c ∈ p.diagnostics ∧ c ∉ Diagnostic.filtered p.diagnostics ∧
    ((∃ a ∈ Diagnostic.filtered p.diagnostics, a.suppresses c = true) ∨
      ∃ b ∈ p.diagnostics, ∃ a ∈ Diagnostic.filtered p.diagnostics,
        b.suppresses c = true ∧ a.suppresses b = true ∧ a.Undercuts b c) := by
  let inner : Diagnostic := { Diagnostic.ofProblem .unclosedBlock ⟨1, 2, by decide⟩ with
    found := some "end of file", related := [⟨⟨1, 2, by decide⟩, "block started here"⟩] }
  let outer : Diagnostic := { Diagnostic.ofProblem .unclosedBlock ⟨0, 2, by decide⟩ with
    found := some "end of file", related := [⟨⟨0, 1, by decide⟩, "block started here"⟩] }
  let empty : Diagnostic := .ofProblem .emptyBlock ⟨1, 2, by decide⟩
  have hparse : parse .default "\x7b\x7b" = .ok (.ok ⟨.node .program
      [.node .block [.leaf .lCurly "\x7b", .node .block [.leaf .lCurly "\x7b"]]],
      [inner, empty, outer]⟩) := by decide +kernel
  have hkept : Diagnostic.filtered [inner, empty, outer] = [inner, outer] := by decide +kernel
  have hdropped : empty ∉ Diagnostic.filtered [inner, empty, outer] := by
    rw [hkept]
    decide
  exact ⟨_, empty, hparse, by decide, hdropped,
    parse_filtered .default _ _ rfl hparse empty (by decide) hdropped⟩

/-- An import in a block takes away what is wrong behind the block, and is taken away itself because
    the block is empty. -/
theorem not_filtered_suppressed : ∃ p c, parse .default "\x7bimport \"x\";\x7d@" = .ok (.ok p) ∧
    c ∈ p.diagnostics ∧ c ∉ Diagnostic.filtered p.diagnostics ∧
    ∀ a ∈ Diagnostic.filtered p.diagnostics, a.suppresses c = false := by
  let stray : Diagnostic := { Diagnostic.ofProblem .unexpectedToken ⟨1, 7, by decide⟩ with
    region := ⟨0, 14, by decide⟩
    message := "unexpected token: imports must precede all other items"
    found := some "`import`" }
  let empty : Diagnostic := .ofProblem .emptyBlock ⟨0, 13, by decide⟩
  let behind : Diagnostic := { Diagnostic.ofProblem .unrecognizedCharacter ⟨13, 14, by decide⟩ with
    message := "unrecognized character: `@`" }
  have hlex : Token.lex "\x7bimport \"x\";\x7d@" = [⟨.lCurly, "\x7b", 0, ⟨1, 1⟩⟩,
      ⟨.kwImport, "import", 1, ⟨1, 2⟩⟩, ⟨.whitespace, " ", 7, ⟨1, 8⟩⟩,
      ⟨.doubleQuoted, "\"x\"", 8, ⟨1, 9⟩⟩, ⟨.semiColon, ";", 11, ⟨1, 12⟩⟩,
      ⟨.rCurly, "\x7d", 12, ⟨1, 13⟩⟩, ⟨.garbage, "@", 13, ⟨1, 14⟩⟩] := by decide +kernel
  -- The source and its three reports, in the order in which they are made.
  have hparse : parse .default "\x7bimport \"x\";\x7d@" = .ok (.ok ⟨.node .program
      [.node .block [.leaf .lCurly "\x7b", .node .importDecl [.leaf .kwImport "import",
        .leaf .whitespace " ", .leaf .doubleQuoted "\"x\"", .leaf .semiColon ";"],
        .leaf .rCurly "\x7d"], .leaf .garbage "@"], [stray, empty, behind]⟩) := by
    rw [parse, hlex]
    decide +kernel
  have hkept : Diagnostic.filtered [stray, empty, behind] = [empty] := by decide +kernel
  refine ⟨_, behind, hparse, List.mem_of_getLast? rfl, ?_, ?_⟩
  · rw [hkept, List.mem_singleton]
    exact fun heq => by cases congrArg Diagnostic.problem heq
  · rw [hkept]
    decide

end ScriptTree
