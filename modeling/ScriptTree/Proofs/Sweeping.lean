import ScriptTree.Proofs.Suppression

/-!
# What a sweep leaves

`Diagnostic.filtered` sweeps over a collection of reports once.  A report that is swept away may
have suppressed others before; but of those that are left, none suppresses another one, since each
had its turn when the other one was still there.

The same reports are left if all pairs are tried in order, and a report is struck when one that
still stands suppresses it.

The report that has the last turn is left, so something is.  A warning suppresses nothing, so the
errors are swept as if there were no warnings.

## Key results

- `Diagnostic.standing_strikes`: striking pair by pair is sweeping
- `Diagnostic.filtered_filtered`: one sweep is enough
- `Diagnostic.filtered_any_isError`: a sweep does not hide that something is wrong
-/

namespace ScriptTree.Diagnostic

variable {survivors ds : List Diagnostic}

/-! ## Sweeping -/

/-- A sweep keeps some of the reports, in order. -/
private theorem sweep_sublist (survivors ds : List Diagnostic) :
    (sweep survivors ds).Sublist (survivors ++ ds) := by
  fun_induction sweep survivors ds with
  | case1 survivors => rw [List.append_nil]
  | case2 survivors a todo ih =>
    have hstep : (a.spared survivors ++ [a] ++ a.spared todo).Sublist (survivors ++ a :: todo) := by
      rw [List.append_assoc]
      exact List.filter_sublist.append (List.filter_sublist.cons_cons a)
    exact ih.trans hstep

/-- No report of the first list suppresses one of the second list. -/
def Spares (as bs : List Diagnostic) : Prop := ∀ a ∈ as, ∀ b ∈ bs, a.suppresses b = false

private theorem spares_nil (bs : List Diagnostic) : Spares [] bs :=
  fun _ ha => absurd ha List.not_mem_nil

/-- No report suppresses itself. -/
private theorem suppresses_self (a : Diagnostic) : a.suppresses a = false := by
  have houtranks : a.problem.outranks a.problem = false := by simp [Problem.outranks]
  have hkinds : (a.problem.isRootCause && a.problem.isStructural) = false := by
    cases a.problem <;> rfl
  simp [suppresses, suppressesInside, suppressesAtStart, houtranks, hkinds]

/-- At each turn the survivors spare each other and what is still to come. -/
theorem Spares.sweep (hsurvivors : Spares survivors survivors) (htodo : Spares survivors ds) :
    Spares (sweep survivors ds) (sweep survivors ds) := by
  fun_induction Diagnostic.sweep survivors ds with
  | case1 survivors => exact hsurvivors
  | case2 survivors a todo ih =>
    -- Those that are kept spare each other: the report that swept them is among them.
    have hsurvivors' : Spares (a.spared survivors ++ [a]) (a.spared survivors ++ [a]) := by
      intro x hx y hy
      obtain hx | hx := List.mem_append.mp hx
      · replace hx := (mem_spared.mp hx).1
        obtain hy | hy := List.mem_append.mp hy
        · exact hsurvivors x hx y (mem_spared.mp hy).1
        · exact htodo x hx y (List.mem_cons.mpr (.inl (List.mem_singleton.mp hy)))
      · obtain rfl := List.mem_singleton.mp hx
        obtain hy | hy := List.mem_append.mp hy
        · exact (mem_spared.mp hy).2
        · obtain rfl := List.mem_singleton.mp hy
          exact suppresses_self y
    -- They spare what is still to come, since the sweep removed what they would suppress.
    have htodo' : Spares (a.spared survivors ++ [a]) (a.spared todo) := by
      intro x hx y hy
      obtain hx | hx := List.mem_append.mp hx
      · exact htodo x (mem_spared.mp hx).1 y (List.mem_cons_of_mem a (mem_spared.mp hy).1)
      · obtain rfl := List.mem_singleton.mp hx
        exact (mem_spared.mp hy).2
    exact ih hsurvivors' htodo'

/-- Reports that spare each other are all left. -/
private theorem Spares.sweep_eq (h : Spares (survivors ++ ds) (survivors ++ ds)) :
    Diagnostic.sweep survivors ds = survivors ++ ds := by
  fun_induction Diagnostic.sweep survivors ds with
  | case1 survivors => rw [List.append_nil]
  | case2 survivors a todo ih =>
    have ha : ∀ b ∈ survivors ++ a :: todo, a.suppresses b = false := h a (by simp)
    have hsurvivors : a.spared survivors = survivors := List.filter_eq_self.mpr fun b hb => by
      rw [ha b (List.mem_append_left _ hb), Bool.not_false]
    have htodo : a.spared todo = todo := List.filter_eq_self.mpr fun b hb => by
      rw [ha b (List.mem_append_right _ (List.mem_cons_of_mem a hb)), Bool.not_false]
    rw [hsurvivors, htodo, List.append_assoc, List.singleton_append] at ih
    rw [hsurvivors, htodo]
    exact ih h

/-! ## Striking pairs -/

section

variable (ds : List Diagnostic)

/-- A pair of the double loop.  The second report is struck if the first one suppresses it and both
    still stand. -/
def strike (i : Fin ds.length) (struck : Fin ds.length → Bool) (j : Fin ds.length) :
    Fin ds.length → Bool :=
  if i = j ∨ struck i = true ∨ struck j = true then struck
  else if (ds.get i).suppresses (ds.get j) then Function.update struck j true
  else struck

/-- Which reports are struck when all pairs have been tried. -/
def strikes : Fin ds.length → Bool :=
  (List.finRange ds.length).foldl
    (fun struck i => (List.finRange ds.length).foldl (strike ds i) struck) fun _ => false

/-- The reports at some places that still stand. -/
def standing (places : List (Fin ds.length)) (struck : Fin ds.length → Bool) : List Diagnostic :=
  (places.filter (!struck ·)).map ds.get

end

variable {struck : Fin ds.length → Bool} {i j k : Fin ds.length}

/-- A pair strikes its second report only, and that only if the first one stands and suppresses
    it. -/
private theorem strike_apply : strike ds i struck j k =
    (struck k || (decide (k = j) && (!struck i && (ds.get i).suppresses (ds.get k)))) := by
  by_cases hk : k = j
  · subst hk
    by_cases hi : i = k
    · subst hi
      simp [strike, suppresses_self]
    · unfold strike
      cases struck i <;> cases hstruck : struck k <;>
        cases hsuppresses : (ds.get i).suppresses (ds.get k) <;> simp_all
  · unfold strike
    split
    · simp [hk]
    · split
      · simp [hk]
      · simp [hk]

/-- The first report of some pairs stands throughout if it stands in the beginning. -/
private theorem foldl_strike_apply (js : List (Fin ds.length)) : js.foldl (strike ds i) struck k =
    (struck k || (decide (k ∈ js) && (!struck i && (ds.get i).suppresses (ds.get k)))) := by
  induction js generalizing struck with
  | nil => simp
  | cons j js ih =>
    have hi : strike ds i struck j i = struck i := by
      rw [strike_apply, suppresses_self]
      simp
    rw [List.foldl_cons, ih, hi, strike_apply]
    simp only [List.mem_cons, Bool.decide_or, Bool.and_or_distrib_right, Bool.or_assoc]

/-- All pairs with a first report are struck at once. -/
private theorem foldl_strike_finRange : (List.finRange ds.length).foldl (strike ds i) struck =
    fun k => struck k || (!struck i && (ds.get i).suppresses (ds.get k)) := by
  funext k
  rw [foldl_strike_apply, decide_eq_true (List.mem_finRange k), Bool.true_and]

/-- A report stands unless its place is struck. -/
private theorem standing_cons (places : List (Fin ds.length)) : standing ds (i :: places) struck =
    if struck i = true then standing ds places struck
    else ds.get i :: standing ds places struck := by
  unfold standing
  cases hi : struck i <;> simp [hi]

/-- A report stands unless its place is struck. -/
private theorem standing_concat (places : List (Fin ds.length)) :
    standing ds (places ++ [i]) struck =
    standing ds places struck ++ if struck i = true then [] else [ds.get i] := by
  unfold standing
  cases hi : struck i <;> simp [hi]

/-- What a report strikes is what it does not spare. -/
private theorem spared_standing (places : List (Fin ds.length)) :
    (ds.get i).spared (standing ds places struck) =
      standing ds places fun k => struck k || (ds.get i).suppresses (ds.get k) := by
  have hplaces : ∀ k ∈ places, ((!(ds.get i).suppresses (ds.get k)) && !struck k) =
      !(struck k || (ds.get i).suppresses (ds.get k)) := by
    intro k _
    rw [Bool.not_or, Bool.and_comm]
  rw [spared, standing, standing, List.filter_map, List.filter_filter]
  exact congrArg (List.map ds.get) (List.filter_congr hplaces)

/-- Before each turn, what the loop still makes of the reports is what the sweep makes of them. -/
private theorem sweep_standing (done todo : List (Fin ds.length)) :
    sweep (standing ds done struck) (standing ds todo struck) =
      standing ds (done ++ todo) (todo.foldl
        (fun struck i => (List.finRange ds.length).foldl (strike ds i) struck) struck) := by
  induction todo generalizing done struck with
  | nil =>
    have hnil : standing ds [] struck = [] := rfl
    rw [hnil, sweep, List.append_nil, List.foldl_nil]
  | cons i todo ih =>
    have hdone : done ++ i :: todo = (done ++ [i]) ++ todo := by simp
    rw [List.foldl_cons, foldl_strike_finRange, hdone, ← ih, standing_cons]
    cases hi : struck i with
    -- A report that is struck has no turn.
    | true =>
      simp only [Bool.not_true, Bool.false_and, Bool.or_false]
      rw [standing_concat, hi, if_pos rfl, if_pos trivial, List.append_nil]
    | false =>
      simp only [Bool.not_false, Bool.true_and]
      rw [if_neg Bool.false_ne_true, sweep, spared_standing, spared_standing, standing_concat, hi,
        suppresses_self, Bool.or_false, if_neg Bool.false_ne_true]

/-- Striking pair by pair leaves the same reports as sweeping. -/
theorem standing_strikes (ds : List Diagnostic) :
    standing ds (List.finRange ds.length) (strikes ds) = filtered ds := by
  have hstart : standing ds (List.finRange ds.length) (fun _ => false) = ds := by
    simp [standing, List.map_get_finRange]
  have hsweep : sweep [] (standing ds (List.finRange ds.length) fun _ => false) =
      standing ds (List.finRange ds.length) (strikes ds) := sweep_standing [] _
  rw [← hsweep, hstart, filtered]

/-- The reports that are left when all pairs have been tried are some of them, in their order.  None
    of these suppresses another one, so all would be left again. -/
theorem filtered_filtered (ds : List Diagnostic) :
    filtered ds = standing ds (List.finRange ds.length) (strikes ds) ∧
    (filtered ds).Sublist ds ∧
    (∀ a ∈ filtered ds, ∀ b ∈ filtered ds, a.suppresses b = false) ∧
    filtered (filtered ds) = filtered ds := by
  have hspares : Spares (filtered ds) (filtered ds) := Spares.sweep (spares_nil _) (spares_nil _)
  have hagain : sweep [] (filtered ds) = [] ++ filtered ds := Spares.sweep_eq hspares
  exact ⟨(standing_strikes ds).symm, sweep_sublist [] ds, hspares, hagain⟩

/-! ## What is always left -/

/-- Whoever has a turn is among the survivors after it. -/
private theorem sweep_eq_nil_iff : sweep survivors ds = [] ↔ survivors = [] ∧ ds = [] := by
  fun_induction sweep survivors ds with
  | case1 survivors => simp
  | case2 survivors a todo ih => simp [ih]

/-- Some report is kept if there is any. -/
private theorem filtered_eq_nil_iff : filtered ds = [] ↔ ds = [] := by
  rw [filtered, sweep_eq_nil_iff]
  simp

/-- A report that suppresses nothing of a kind leaves all of that kind. -/
private theorem filter_spared_of_forall {P : Diagnostic → Bool} {a : Diagnostic}
    (ha : ∀ b, P b = true → a.suppresses b = false) (ds : List Diagnostic) :
    (a.spared ds).filter P = ds.filter P := by
  rw [spared, List.filter_filter]
  refine List.filter_congr fun b _ => ?_
  cases hb : P b with
  | false => rw [Bool.false_and]
  | true => rw [ha b hb, Bool.not_false, Bool.true_and]

/-- Where reports of a kind are suppressed by their like only, they are swept as if there were no
    others. -/
private theorem filter_sweep {P : Diagnostic → Bool}
    (hP : ∀ a b, P a = false → P b = true → a.suppresses b = false)
    (survivors ds : List Diagnostic) :
    (sweep survivors ds).filter P = sweep (survivors.filter P) (ds.filter P) := by
  fun_induction sweep survivors ds with
  | case1 survivors => rw [List.filter_nil, sweep]
  | case2 survivors a todo ih =>
    rw [ih, List.filter_append]
    cases ha : P a with
    | true =>
      have hcomm (ds : List Diagnostic) : (a.spared ds).filter P = a.spared (ds.filter P) := by
        simp only [spared, List.filter_filter, Bool.and_comm]
      rw [List.filter_cons_of_pos ha, List.filter_cons_of_pos ha, List.filter_nil, sweep, hcomm,
        hcomm]
    | false =>
      have hspared := filter_spared_of_forall fun b hb => hP a b ha hb
      have hna : ¬ P a = true := by simp [ha]
      rw [List.filter_cons_of_neg hna, List.filter_cons_of_neg hna, List.filter_nil,
        List.append_nil, hspared, hspared]

/-- A warning has the lowest priority, and nothing is missing where it is. -/
private theorem suppresses_of_isError_eq_false {a : Diagnostic} (ha : a.isError = false)
    (b : Diagnostic) : a.suppresses b = false := by
  obtain ⟨problem, span, region, message, expected, found, related⟩ := a
  have hproblem : problem = .redundantSemicolon := by
    cases problem <;> first | rfl | cases ha
  have houtranks : Problem.outranks .redundantSemicolon b.problem = false := by
    cases b.problem <;> rfl
  simp [suppresses, suppressesInside, suppressesAtStart, hproblem, houtranks, Problem.isRootCause]

/-- Something is left of reports, and an error if there was one.  No warning suppresses anything,
    and the errors that are left are those that would be left without the warnings. -/
theorem filtered_any_isError (ds : List Diagnostic) :
    (filtered ds = [] ↔ ds = []) ∧
    (filtered ds).any (·.isError) = ds.any (·.isError) ∧
    Spares (ds.filter (·.isWarning)) ds ∧
    (filtered ds).filter (·.isError) = filtered (ds.filter (·.isError)) := by
  have herrors : (filtered ds).filter (·.isError) = filtered (ds.filter (·.isError)) :=
    filter_sweep (P := (·.isError)) (fun a b ha _ => suppresses_of_isError_eq_false ha b) [] ds
  have hnone (ds : List Diagnostic) :
      ds.any (·.isError) = false ↔ ds.filter (·.isError) = [] := by
    rw [List.any_eq_false, List.filter_eq_nil_iff]
  refine ⟨filtered_eq_nil_iff, ?_, fun a ha b _ => ?_, herrors⟩
  · rw [Bool.eq_iff_iff, ← not_iff_not, Bool.not_eq_true, Bool.not_eq_true, hnone, hnone ds,
      herrors, filtered_eq_nil_iff]
  · have hwarning : a.isWarning = true := (List.mem_filter.mp ha).2
    refine suppresses_of_isError_eq_false ?_ b
    rw [isWarning, beq_iff_eq] at hwarning
    rw [isError, hwarning]
    rfl

end ScriptTree.Diagnostic
