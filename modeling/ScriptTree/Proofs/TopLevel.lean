import ScriptTree.Proofs.Caution
import ScriptTree.Proofs.Depth

/-!
# The top level

Imports and items are read one after the other.  A text that is read without reports, and ends with
a semicolon, is read in the same way if more follows, and then the parse goes on with what follows
(`Rule.imports_beside`, `Rule.items_beside`).

How deeply calls are nested makes no difference here, so `Rule.Reaches` leaves it open.

## Key results

- `Rule.run_mono`: calls may be nested more deeply than they have to be
- `State.Turn.beside`: one turn of the list of items is the same if more follows
- `Rule.items_beside`: so are all turns up to the end of the text
-/

namespace ScriptTree

variable {g e : Setting}

/-! ## Budgets -/

/-- Two sequences agree up to the fault of the first, unless that is the budget. -/
private theorem bind_eq_of_settled {α β : Type} {x x' : Except Fault α} {f f' : α → Except Fault β}
    (h : (x >>= f) ≠ .error .runaway) (hx : x ≠ .error .runaway → x' = x)
    (hf : ∀ a, f a ≠ .error .runaway → f' a = f a) : (x' >>= f') = (x >>= f) := by
  cases x with
  | error fault =>
    have hfault : (.error fault : Except Fault α) ≠ .error .runaway :=
      fun heq => h (by rw [heq]; rfl)
    rw [hx hfault]
    rfl
  | ok a =>
    rw [hx (by simp)]
    exact hf a h

/-- A script that did not run out of budget does the same with rules that have more of it. -/
theorem Script.run_settled {rules rules' : Rule → State → Reply}
    (hrules : ∀ rule s, rules rule s ≠ .error .runaway → rules' rule s = rules rule s)
    {script : Script} {s : State} (h : script.run g rules s ≠ .error .runaway) :
    script.run g rules' s = script.run g rules s := by
  -- Induction on the script: a call that did not run away is answered alike.
  induction script generalizing s with
  | done answer => rfl
  | fail fault => rfl
  | look n next ih => exact bind_eq_of_settled h (fun _ => rfl) fun r => ih r.1
  | text next ih => exact ih _ h
  | stopped next ih => exact ih _ h
  | exhausted next ih => exact ih _ h
  | bump next ih => exact bind_eq_of_settled h (fun _ => rfl) fun _ => ih
  | flush next ih => exact ih h
  | complain c next ih => exact bind_eq_of_settled h (fun _ => rfl) fun _ => ih
  | remark problem next ih => exact ih h
  | node k body next ihbody ihnext => exact bind_eq_of_settled h ihbody fun _ => ihnext
  | group body next ihbody ihnext => exact bind_eq_of_settled h ihbody fun _ => ihnext
  | wrap k body next ihbody ihnext => exact bind_eq_of_settled h ihbody fun _ => ihnext
  | deeper body next ihbody ihnext =>
    rw [Script.run] at h ⊢
    rw [Script.run]
    generalize s.enter g = entered at h ⊢
    obtain ⟨granted, s₁⟩ := entered
    cases granted with
    | false => exact ihnext false h
    | true => exact bind_eq_of_settled h ihbody fun _ => ihnext true
  | enclosed d construct ifEmpty body next ihbody ihnext =>
    rw [run_enclosed_eq] at h ⊢
    rw [run_enclosed_eq]
    refine bind_eq_of_settled h (fun _ => rfl) fun s₁ h₁ => ?_
    refine bind_eq_of_settled h₁ ihbody fun r₂ h₂ => ?_
    refine bind_eq_of_settled h₂ (fun _ => rfl) fun s₃ h₃ => ?_
    exact bind_eq_of_settled h₃ (fun _ => rfl) fun _ => ihnext
  | call rule next ih => exact bind_eq_of_settled h (hrules rule s) fun r => ih r.1

/-- Calls may be nested more deeply than they have to be. -/
theorem Rule.run_mono {m n : Nat} (hle : m ≤ n) {rule : Rule} {s : State}
    (h : rule.run g m s ≠ .error .runaway) : rule.run g n s = rule.run g m s := by
  induction m generalizing n rule s with
  | zero => exact absurd rfl h
  | succ m ih =>
    obtain ⟨n, rfl⟩ : ∃ k, n = k + 1 := ⟨n - 1, by omega⟩
    exact Script.run_settled (fun _ _ => ih (by omega)) h

/-- A rule that runs on some budget runs on any greater one. -/
theorem Rule.run_mono_ok {m n : Nat} (hle : m ≤ n) {rule : Rule} {s : State} {r : Bool × State}
    (h : rule.run g m s = .ok r) : rule.run g n s = .ok r := by
  rw [run_mono hle (by simp [h]), h]

/-- The rule leads from one state to another, if calls may be nested deeply enough. -/
def Rule.Reaches (g : Setting) (rule : Rule) (s s' : State) : Prop :=
  ∃ budget a, rule.run g budget s = .ok (a, s')

/-- A rule reaches the state in which its run ends. -/
private theorem Rule.reaches_of_run {budget : Nat} {rule : Rule} {s s' : State} {a : Bool}
    (h : rule.run g budget s = .ok (a, s')) : rule.Reaches g s s' := ⟨budget, a, h⟩

/-- A script that calls two rules may use the same budget for both. -/
theorem Rule.Reaches.common {rule rule' : Rule} {s t s' t' : State} (h : rule.Reaches g s s')
    (h' : rule'.Reaches g t t') : ∃ budget a a', rule.run g budget s = .ok (a, s') ∧
      rule'.run g budget t = .ok (a', t') := by
  obtain ⟨m, a, hrun⟩ := h
  obtain ⟨n, a', hrun'⟩ := h'
  exact ⟨max m n, a, a', run_mono_ok (Nat.le_max_left m n) hrun,
    run_mono_ok (Nat.le_max_right m n) hrun'⟩

/-! ## Imports -/

/-- The imports, step by step. -/
private theorem Rule.script_imports : Rule.imports.script =
    .stopped fun b =>
      if b = true then .done true
      else .look 0 fun k =>
        if (k == .kwImport) = true then
          .call .importDecl fun _ => .call .imports fun _ => .done true
        else .done true := by
  simp only [Rule.script, Grammar.imports, Fragment.unit, Fragment.stopped, Fragment.isAt,
    Fragment.current, Fragment.ahead, Fragment.call, Fragment.bind_apply, Fragment.pure_apply,
    Fragment.ite_apply]

/-- Imports end where there is nothing more, or where there is something else. -/
theorem Rule.run_imports_cases {budget : Nat} {s s' : State} {a : Bool}
    (hrun : Rule.imports.run g (budget + 1) s = .ok (a, s')) :
    (s.skip g).isStopped = true ∧ s' = s.skip g ∨
      (s.skip g).isStopped = false ∧ ∃ k s₁, (s.skip g).look g 0 = .ok (k, s₁) ∧
        (k ≠ .kwImport ∧ s' = s₁ ∨ k = .kwImport ∧ ∃ b s₂ c,
          Rule.importDecl.run g budget s₁ = .ok (b, s₂) ∧
            Rule.imports.run g budget s₂ = .ok (c, s')) := by
  rw [Rule.run, Rule.script_imports, Script.run] at hrun
  -- At the end the loop stops; elsewhere it goes by the kind in front.
  split at hrun
  · next hstopped =>
    cases hrun
    exact .inl ⟨hstopped, rfl⟩
  · next hgoes =>
    rw [Bool.not_eq_true] at hgoes
    obtain ⟨k, s₁, hlook, hrun⟩ := Script.run_look_eq_ok_iff.mp hrun
    refine .inr ⟨hgoes, k, s₁, hlook, ?_⟩
    split at hrun
    · next hk =>
      obtain ⟨b, s₂, himport, hrun⟩ := Script.run_call_eq_ok_iff.mp hrun
      obtain ⟨c, s₃, himports, hdone⟩ := Script.run_call_eq_ok_iff.mp hrun
      cases hdone
      exact .inr ⟨by simpa using hk, b, s₂, c, himport, himports⟩
    · next hk =>
      cases hrun
      exact .inl ⟨by simpa using hk, rfl⟩

namespace Rule

variable {s s₁ s₂ s' : State} {k : Kind}

/-- At the end there are no more imports. -/
private theorem imports_reaches_end (h : (s.skip g).isStopped = true) :
    imports.Reaches g s (s.skip g) := by
  refine ⟨1, true, ?_⟩
  rw [run, script_imports, Script.run, h]
  rfl

/-- At what is no import there are no more imports. -/
private theorem imports_reaches_other (h : (s.skip g).isStopped = false)
    (hlook : (s.skip g).look g 0 = .ok (k, s')) (hk : k ≠ .kwImport) :
    imports.Reaches g s s' := by
  refine ⟨1, true, ?_⟩
  rw [run, script_imports, Script.run, h, if_neg (by simp)]
  refine Script.run_look_eq_ok_iff.mpr ⟨k, s', hlook, ?_⟩
  rw [if_neg (by simpa using hk)]
  rfl

/-- An import comes before the others. -/
private theorem imports_reaches_import (h : (s.skip g).isStopped = false)
    (hlook : (s.skip g).look g 0 = .ok (.kwImport, s₁)) (himport : importDecl.Reaches g s₁ s₂)
    (himports : imports.Reaches g s₂ s') : imports.Reaches g s s' := by
  obtain ⟨budget, a, b, himport, himports⟩ := himport.common himports
  refine ⟨budget + 1, true, ?_⟩
  rw [run, script_imports, Script.run, h, if_neg (by simp)]
  refine Script.run_look_eq_ok_iff.mpr ⟨.kwImport, s₁, hlook, ?_⟩
  rw [if_pos (by simp)]
  refine Script.run_call_eq_ok_iff.mpr ⟨a, s₂, himport, ?_⟩
  exact Script.run_call_eq_ok_iff.mpr ⟨b, s', himports, rfl⟩

end Rule

/-! ## Items -/

/-- One turn of the list of items: an item, and the semicolon after it if there is one. -/
def State.Turn (g : Setting) (s s' : State) : Prop :=
  (s.skip g).isStopped = false ∧ ∃ k s₁ s₂ k' s₃, (s.skip g).look g 0 = .ok (k, s₁) ∧
    k ≠ .semiColon ∧ Rule.item.Reaches g s₁ s₂ ∧ s₂.look g 0 = .ok (k', s₃) ∧
      (k' = .semiColon ∧ s₃.bump g = .ok s' ∨ k' ≠ .semiColon ∧ s' = s₃)

/-- After an item, more of them are read. -/
theorem State.Turn.items {s s₁ s' : State} (h : s.Turn g s₁) (hitems : Rule.items.Reaches g s₁ s') :
    Rule.items.Reaches g s s' := by
  obtain ⟨hgoes, k, s₂, s₃, k', s₄, hlook, hk, hitem, hafter, hmore⟩ := h
  obtain ⟨budget, a, b, hitem, hitems⟩ := hitem.common hitems
  refine ⟨budget + 1, true, ?_⟩
  have hcall : (Script.call .items fun _ => .done true).run g (Rule.run g budget) s₁ =
      .ok (true, s') := Script.run_call_eq_ok_iff.mpr ⟨b, s', hitems, rfl⟩
  rw [Rule.run, Rule.script_items, Script.run, hgoes, if_neg (by simp)]
  refine Script.run_look_eq_ok_iff.mpr ⟨k, s₂, hlook, ?_⟩
  rw [if_neg (by simpa using hk)]
  refine Script.run_call_eq_ok_iff.mpr ⟨a, s₃, hitem, ?_⟩
  refine Script.run_look_eq_ok_iff.mpr ⟨k', s₄, hafter, ?_⟩
  obtain ⟨rfl, hbump⟩ | ⟨hk', rfl⟩ := hmore
  · exact Script.run_bump_eq_ok_iff.mpr ⟨s₁, hbump, hcall⟩
  · rw [if_neg (by simpa using hk')]
    exact hcall

/-- A round of the loop does not go back. -/
theorem State.Turn.later {s s' : State} (h : s.Turn g s') : s.Later g s' := by
  obtain ⟨-, k, s₁, s₂, k', s₃, hlook, -, ⟨budget, a, hitem⟩, hafter, hmore⟩ := h
  have hbefore := (later_skip g s).trans ((later_lasting.look hlook).trans (Rule.run_later hitem))
  refine hbefore.trans ((later_lasting.look hafter).trans ?_)
  obtain ⟨-, hbump⟩ | ⟨-, rfl⟩ := hmore
  · exact later_lasting.bump hbump
  · exact .refl _

/-- At the end there are no more items. -/
theorem Rule.items_reaches_end {s : State} (h : (s.skip g).isStopped = true) :
    Rule.items.Reaches g s (s.skip g) := by
  refine ⟨1, true, ?_⟩
  rw [run, script_items, Script.run, h]
  rfl

/-- A list of items that reports nothing ends where there is nothing more, or goes on after an
    item. -/
theorem Rule.run_items_cases {budget : Nat} {s s' : State} {a : Bool}
    (hreported : s.reported = none) (hrun : Rule.items.run g (budget + 1) s = .ok (a, s'))
    (hsilent : s'.Silent) :
    (s.skip g).isStopped = true ∧ s' = s.skip g ∨
      ∃ s₁ b, s.Turn g s₁ ∧ Rule.items.run g budget s₁ = .ok (b, s') := by
  -- What is left of a round is the next one.
  have hcall {s₁ : State}
      (h : (Script.call .items fun _ => .done true).run g (Rule.run g budget) s₁ = .ok (a, s')) :
      ∃ b, Rule.items.run g budget s₁ = .ok (b, s') := by
    obtain ⟨b, s₂, hitems, hdone⟩ := Script.run_call_eq_ok_iff.mp h
    cases hdone
    exact ⟨b, hitems⟩
  rw [Rule.run, Rule.script_items, Script.run] at hrun
  split at hrun
  · next hstopped =>
    cases hrun
    exact .inl ⟨hstopped, rfl⟩
  · next hgoes =>
    rw [Bool.not_eq_true] at hgoes
    obtain ⟨k, s₁, hlook, hrun⟩ := Script.run_look_eq_ok_iff.mp hrun
    split at hrun
    · -- A semicolon by itself is reported.
      exfalso
      rw [Script.run] at hrun
      have hextends := Script.run_extends (fun _ _ _ _ => Rule.run_extends) hrun
      refine State.not_silent_remark ?_ _ (hsilent.of_extends hextends)
      obtain ⟨-, -, rfl⟩ := State.look_eq_ok_iff.mp hlook
      show (State.skip g (s.skip g)).reported = none
      rw [State.skip_reported, State.skip_reported, hreported]
    · next hk =>
      obtain ⟨b, s₂, hitem, hrun⟩ := Script.run_call_eq_ok_iff.mp hrun
      obtain ⟨k', s₃, hafter, hrun⟩ := Script.run_look_eq_ok_iff.mp hrun
      have hk : k ≠ .semiColon := by simpa using hk
      -- Anything else is an item, and a semicolon may follow it.
      have hitem := Rule.reaches_of_run hitem
      right
      split at hrun
      · next hk' =>
        obtain ⟨s₄, hbump, hrun⟩ := Script.run_bump_eq_ok_iff.mp hrun
        obtain ⟨c, hitems⟩ := hcall hrun
        exact ⟨s₄, c, ⟨hgoes, k, s₁, s₂, k', s₃, hlook, hk, hitem, hafter,
          .inl ⟨by simpa using hk', hbump⟩⟩, hitems⟩
      · next hk' =>
        obtain ⟨c, hitems⟩ := hcall hrun
        exact ⟨s₃, c, ⟨hgoes, k, s₁, s₂, k', s₃, hlook, hk, hitem, hafter,
          .inr ⟨by simpa using hk', rfl⟩⟩, hitems⟩

/-- Where there is nothing more, no item is read. -/
theorem Rule.run_items_end {budget : Nat} {s s' : State} {a : Bool} (hreported : s.reported = none)
    (hempty : s.reading.input = []) (hrun : Rule.items.run g budget s = .ok (a, s'))
    (hsilent : s'.Silent) : s' = s.skip g := by
  cases budget with
  | zero => cases hrun
  | succ budget =>
    obtain ⟨-, rfl⟩ | ⟨s₁, b, ⟨hgoes, -⟩, -⟩ := run_items_cases hreported hrun hsilent
    · rfl
    · have hnone := State.reading_input_isEmpty (g := g) (s := s)
      rw [hempty] at hnone
      rw [State.isStopped, ← hnone] at hgoes
      cases hgoes

/-! ## Where more follows -/

namespace State

variable {s t s' t' s₁ : State} {x : Surplus}

/-- Patience is full, but for one lookahead, where the text ends and more follows. -/
def Rested (x : Surplus) (s : State) : Prop :=
  s.reading.input = [] → x.ahead ≠ [] → fullPatience ≤ s.patience + 1

/-- A silent parse stops at the end of the input. -/
theorem Silent.isStopped (h : (s.skip g).Silent) :
    (s.skip g).isStopped = s.reading.input.isEmpty :=
  isStopped_reading (by rw [← h.supplied, skip_exhausted]) h.running

/-- An unhindered parse stops at the end of the input. -/
theorem Unhindered.isStopped {log : Array Diagnostic × Option Nat} (h : t.Unhindered log) :
    (t.skip e).isStopped = t.reading.input.isEmpty :=
  isStopped_reading h.supplied h.skip.running

/-- A parse that has tokens ahead goes on where more follows. -/
private theorem Beside.goes (h : s.Beside x t) (hsilent : (s.skip g).Silent)
    (hgoes : (s.skip g).isStopped = false) :
    s.reading.input ≠ [] ∧ (t.skip e).isStopped = false := by
  rw [hsilent.isStopped] at hgoes
  have hne : s.reading.input ≠ [] := by simpa using hgoes
  refine ⟨hne, ?_⟩
  rw [h.unhindered.isStopped, h.input]
  simp [hne]

/-- What is next is the same, as long as something of the text is left. -/
theorem Beside.next (h : s.Beside x t) (hcovers : x.Covers s) (hseals : x.Seals s) {k : Kind}
    (hlook : s.look g 0 = .ok (k, s')) :
    ∃ t', t.look e 0 = .ok (k, t') ∧ s'.Beside x t' ∧ s'.reading = s.reading := by
  obtain ⟨hk, -, hreading⟩ := h.waits.look hlook
  obtain ⟨t', hlook', h'⟩ := h.look (e := e) hlook
  rw [hcovers.kindAt hseals (by simp), ← hk] at hlook'
  exact ⟨t', hlook', h', hreading⟩

/-- One turn is the same if more follows, as long as that does not begin with a semicolon. -/
theorem Turn.beside (hlimit : e.depthLimit = g.depthLimit) (h : s.Beside x t) (hseals : x.Seals s)
    (hnext : kindAt x.ahead 0 ≠ .semiColon) (hturn : s.Turn g s') (hsilent : s'.Silent) :
    ∃ t', t.Turn e t' ∧ s'.Beside x t' ∧ s'.Rested x := by
  obtain ⟨hgoes, k, s₁, s₂, k', s₃, hlook, hk, ⟨budget, a, hitem⟩, hafter, hmore⟩ := hturn
  -- Nothing was reported in the item, since nothing is after it.
  have hextends : s₂.Extends s' := by
    refine (extends_lasting.look hafter).trans ?_
    obtain ⟨-, hbump⟩ | ⟨-, rfl⟩ := hmore
    · exact extends_lasting.bump hbump
    · exact .refl _
  have hsilent₂ : s₂.Silent := hsilent.of_extends hextends
  have hskipped : (s.skip g).Silent :=
    hsilent₂.of_extends ((extends_lasting.look hlook).trans (Rule.run_extends hitem))
  obtain ⟨hne, hgoes'⟩ := h.goes (e := e) hskipped hgoes
  -- The item begins in the text.
  have hcovers : x.Covers (s.skip g) := .inr (by rwa [reading_skip])
  obtain ⟨t₁, hlook', h₁, hreading⟩ := h.skip.next hcovers
    (hseals.of_suffix (by rw [reading_skip])) hlook
  rw [reading_skip] at hreading
  have hseals₁ : x.Seals s₁ := hseals.of_suffix (by rw [hreading])
  obtain ⟨t₂, hitem', h₂, hrested⟩ := Rule.run_beside hlimit budget .item _ _ _ _ _ rfl h₁
    (.inl (.inr (by rwa [hreading]))) hseals₁ (by simp) (by simp) hitem hsilent₂
  have hitem' := Rule.reaches_of_run hitem'
  have hseals₂ := hseals₁.of_suffix (Rule.run_later hitem).input_suffix
  by_cases hcovers₂ : x.Covers s₂
  · -- The text goes on, and so what comes next is the same.
    obtain ⟨t₃, hafter', h₃, hreading₂⟩ := h₂.next (e := e) hcovers₂ hseals₂ hafter
    -- A semicolon is consumed on both sides, or there is none.
    obtain ⟨rfl, hbump⟩ | ⟨hne', rfl⟩ := hmore
    · obtain ⟨t', hbump', h'⟩ := h₃.bump (e := e) hbump
      refine ⟨t', ⟨hgoes', k, t₁, t₂, _, t₃, hlook', hk, hitem', hafter', .inl ⟨rfl, hbump'⟩⟩, h',
        fun _ _ => ?_⟩
      obtain ⟨u, us, -, rfl⟩ := bump_eq_ok_iff.mp hbump
      exact Nat.le_succ _
    · refine ⟨t₃, ⟨hgoes', k, t₁, t₂, _, t₃, hlook', hk, hitem', hafter', .inr ⟨hne', rfl⟩⟩, h₃,
        fun hnil hahead => ?_⟩
      rw [hreading₂] at hnil
      exact absurd hnil (hcovers₂.resolve_left hahead)
  · -- The text ends with the item, and no semicolon follows.
    have hnil : s₂.reading.input = [] := by
      by_contra hne
      exact hcovers₂ (.inr hne)
    obtain ⟨hk', -, -⟩ := h₂.waits.look hafter
    obtain ⟨t₃, hafter', h₃⟩ := h₂.look (e := e) hafter
    rw [hnil, List.nil_append] at hafter'
    -- The look behind the item finds the end of the text, which is no semicolon.
    obtain rfl | ⟨-, rfl⟩ : k' = .semiColon ∨ k' ≠ .semiColon ∧ s' = s₃ := hmore.imp And.left id
    · rw [hnil] at hk'
      cases hk'
    · refine ⟨t₃, ⟨hgoes', k, t₁, t₂, _, t₃, hlook', hk, hitem', hafter', .inr ⟨hnext, rfl⟩⟩, h₃,
        fun _ _ => ?_⟩
      obtain ⟨-, hfull⟩ := hrested.resolve_left hcovers₂
      obtain ⟨-, -, rfl⟩ := look_eq_ok_iff.mp hafter
      show fullPatience ≤ s₂.patience - 1 + 1
      rw [hfull]
      decide

/-- The same parse, with the skipped tokens read. -/
private theorem Beside.skip_left (h : s.Beside x t) : (s.skip g).Beside x t :=
  h.congr h.waits.skip skip_reported h.unhindered (by rw [reading_skip]) rfl rfl
    (by rw [reading_skip, h.frame]) skip_depth rfl skip_delimiters rfl
    (by rw [skip_patience]; exact h.patience)

end State

namespace Rule

variable {s t s' t' s₁ : State} {x : Surplus}

/-- Items that report nothing are read in the same way if more follows. -/
theorem items_beside (hlimit : e.depthLimit = g.depthLimit) {budget : Nat} {a : Bool}
    (h : s.Beside x t) (hseals : x.Seals s) (hrested : s.Rested x)
    (hnext : kindAt x.ahead 0 ≠ .semiColon) (hrun : items.run g budget s = .ok (a, s'))
    (hsilent : s'.Silent) :
    ∃ t', (∀ u, items.Reaches e t' u → items.Reaches e t u) ∧ t.Later e t' ∧ s'.Beside x t' ∧
      s'.Rested x ∧ s'.reading.input = [] := by
  induction budget generalizing s t a with
  | zero => cases hrun
  | succ budget ih =>
    obtain ⟨hstopped, rfl⟩ | ⟨s₁, b, hturn, hrun⟩ := run_items_cases h.unreported hrun hsilent
    · rw [hsilent.isStopped, List.isEmpty_iff] at hstopped
      refine ⟨t, fun _ => id, .refl t, h.skip_left, ?_, by rw [State.reading_skip, hstopped]⟩
      rw [State.Rested, State.reading_skip, State.skip_patience]
      exact hrested
    · obtain ⟨t₁, hturn', h₁, hrested₁⟩ := hturn.beside hlimit h hseals hnext
        (hsilent.of_extends (run_extends hrun))
      obtain ⟨t', hgoes, hlater, h'⟩ :=
        ih h₁ (hseals.of_suffix hturn.later.input_suffix) hrested₁ hrun
      exact ⟨t', fun u hu => hturn'.items (hgoes u hu), hturn'.later.trans hlater, h'⟩

/-- Imports that report nothing are read in the same way if more follows, other than imports. -/
theorem imports_beside (hlimit : e.depthLimit = g.depthLimit) {budget : Nat} {a : Bool}
    (h : s.Beside x t) (hseals : x.Seals s)
    (hfull : s.reading.input = [] → x.ahead ≠ [] → s.patience = fullPatience)
    (hnext : kindAt x.ahead 0 ≠ .kwImport) (hrun : imports.run g budget s = .ok (a, s'))
    (hsilent : s'.Silent) :
    ∃ t' p, imports.Reaches e t t' ∧ ({ s' with patience := p } : State).Beside x t' ∧
      ({ s' with patience := p } : State).Rested x ∧ (s'.reading.input ≠ [] → p = s'.patience) := by
  -- Induction on the budget: one import, and then the rest of them.
  induction budget generalizing s t a with
  | zero => cases hrun
  | succ budget ih =>
    have hskip := h.skip (g := g) (e := e)
    obtain ⟨hstopped, rfl⟩ | ⟨hgoes, k, s₁, hlook, hmore⟩ := run_imports_cases hrun
    -- The text has ended.
    · rw [hsilent.isStopped, List.isEmpty_iff] at hstopped
      have hstopped' : (t.skip e).isStopped = x.ahead.isEmpty := by
        rw [h.unhindered.isStopped, h.input, hstopped, List.nil_append]
      by_cases hahead : x.ahead = []
      · rw [hahead] at hstopped'
        exact ⟨t.skip e, (s.skip g).patience, imports_reaches_end hstopped', hskip,
          fun _ hne => absurd hahead hne, fun _ => rfl⟩
      · -- Where more follows, one look shows that it is no import.
        have hpatience : s.patience = fullPatience := hfull hstopped hahead
        obtain ⟨t', hlook, h'⟩ := hskip.look (e := e) (State.look_eq_ok_iff.mpr
          ⟨by rw [State.skip_patience, hpatience]; decide, rfl, rfl⟩)
        rw [State.reading_skip, hstopped, List.nil_append] at hlook
        rw [State.skip_skip, State.skip_patience] at h'
        refine ⟨t', _, imports_reaches_other (by simp [hstopped', hahead]) hlook hnext, h',
          fun _ _ => ?_, fun hne => absurd (by rw [State.reading_skip, hstopped]) hne⟩
        show fullPatience ≤ s.patience - 1 + 1
        rw [hpatience]
        decide
    -- There is more of the text, and so the look at it is the same on both sides.
    · have hextends : s₁.Extends s' := by
        obtain ⟨-, rfl⟩ | ⟨-, b, s₂, c, himport, himports⟩ := hmore
        · exact .refl _
        · exact (run_extends himport).trans (run_extends himports)
      have hsilent₁ := hsilent.of_extends hextends
      obtain ⟨hne, hgoes'⟩ := h.goes (e := e)
        (hsilent₁.of_extends (State.extends_lasting.look hlook)) hgoes
      have hcovers : x.Covers (s.skip g) := .inr (by rwa [State.reading_skip])
      obtain ⟨t₁, hlook', h₁, hreading⟩ := hskip.next hcovers
        (hseals.of_suffix (by rw [State.reading_skip])) hlook
      rw [State.reading_skip] at hreading
      -- What comes is no import, or it is one and the rest follows.
      obtain ⟨hother, rfl⟩ | ⟨rfl, b, s₂, c, himport, himports⟩ := hmore
      · exact ⟨t₁, s'.patience, imports_reaches_other hgoes' hlook' hother, h₁,
          fun hnil => absurd (hreading ▸ hnil) hne, fun _ => rfl⟩
      · have hseals₁ : x.Seals s₁ := hseals.of_suffix (by rw [hreading])
        obtain ⟨t₂, himport', h₂, hrested⟩ := run_beside hlimit budget .importDecl _ _ _ _ _ rfl h₁
          (.inl (.inr (by rwa [hreading]))) hseals₁ (by simp) (by simp) himport
          (hsilent.of_extends (run_extends himports))
        obtain ⟨t', p, himports', h'⟩ := ih h₂ (hseals₁.of_suffix (run_later himport).input_suffix)
          (fun hnil hahead => (hrested.resolve_left
            fun hcovers => hcovers.elim hahead (absurd hnil)).2) himports
        exact ⟨t', p, imports_reaches_import hgoes' hlook' (reaches_of_run himport') himports', h'⟩

end Rule

end ScriptTree
