import ScriptTree.Grammar.Declaration
import ScriptTree.Proofs.Operations

/-!
# Running a script

When a script succeeds, so does each of its steps: one lemma for each constructor of `Script` takes
a run apart (`Script.run_look_eq_ok_iff`, `Script.run_node_eq_ok_iff`, …).  Properties of all rules
follow from them by induction on the script and then on the depth of calls (`Rule.run_induct`).
-/

namespace ScriptTree

/-- What is reported about the text between two delimiters, once it is known whether it is empty. -/
def State.closeEmpty (g : Setting) (ifEmpty : Option Problem) (answer : Bool) (opener : Span)
    (s : State) : Except Fault State :=
  match ifEmpty, answer with
  | some problem, false => s.remarkSince g problem opener
  | _, _ => .ok s

/-- Something is reported exactly if the text is empty that must not be. -/
theorem State.closeEmpty_eq_ok_iff {g : Setting} {ifEmpty : Option Problem} {answer : Bool}
    {opener : Span} {s s' : State} :
    s.closeEmpty g ifEmpty answer opener = .ok s' ↔
      (ifEmpty.isSome = true → answer = true) ∧ s' = s ∨
        ∃ problem, ifEmpty = some problem ∧ answer = false ∧
          s.remarkSince g problem opener = .ok s' := by
  cases ifEmpty <;> cases answer <;> simp [closeEmpty, eq_comm]

namespace Script

variable {g : Setting} {rules : Rule → State → Reply} {s : State} {r : Bool × State}

/-- A lookahead runs if there is patience for it, and what follows runs on what it sees. -/
theorem run_look_eq_ok_iff {n : Nat} {next : Kind → Script} :
    (look n next).run g rules s = .ok r ↔
      ∃ k s₁, s.look g n = .ok (k, s₁) ∧ (next k).run g rules s₁ = .ok r :=
  bind_eq_ok_iff.trans Prod.exists

/-- A token is consumed before what follows runs. -/
theorem run_bump_eq_ok_iff {next : Script} :
    (bump next).run g rules s = .ok r ↔
      ∃ s₁, s.bump g = .ok s₁ ∧ next.run g rules s₁ = .ok r := bind_eq_ok_iff

/-- A complaint is made before what follows runs. -/
theorem run_complain_eq_ok_iff {x : Complaint} {next : Script} :
    (complain x next).run g rules s = .ok r ↔
      ∃ s₁, s.complain g x = .ok s₁ ∧ next.run g rules s₁ = .ok r := bind_eq_ok_iff

/-- The body of a node runs on an empty frame, and what follows on the old frame with the node. -/
theorem run_node_eq_ok_iff {k : Kind} {body next : Script} :
    (node k body next).run g rules s = .ok r ↔
      ∃ a s₁, body.run g rules { s.drain with frame := #[] } = .ok (a, s₁) ∧
        next.run g rules { s₁ with frame := s.drain.frame.push (.node k s₁.frame.toList) } =
          .ok r :=
  bind_eq_ok_iff.trans Prod.exists

/-- The body of a group runs on an empty frame, and what follows on both frames together. -/
theorem run_group_eq_ok_iff {body next : Script} :
    (group body next).run g rules s = .ok r ↔
      ∃ a s₁, body.run g rules { s.drain with frame := #[] } = .ok (a, s₁) ∧
        next.run g rules { s₁ with frame := s.drain.frame ++ s₁.frame } = .ok r :=
  bind_eq_ok_iff.trans Prod.exists

/-- The body of what wraps runs on the frame, and what follows on the one node of it. -/
theorem run_wrap_eq_ok_iff {k : Kind} {body next : Script} :
    (wrap k body next).run g rules s = .ok r ↔
      ∃ a s₁, body.run g rules s = .ok (a, s₁) ∧
        next.run g rules { s₁ with frame := #[.node k s₁.frame.toList] } = .ok r :=
  bind_eq_ok_iff.trans Prod.exists

/-- A level is refused, or it is granted and left behind its body. -/
theorem run_deeper_eq_ok_iff {body : Script} {next : Bool → Script} :
    (deeper body next).run g rules s = .ok r ↔
      (∃ s₁, s.enter g = (false, s₁) ∧ (next false).run g rules s₁ = .ok r) ∨
        ∃ s₁ a s₂, s.enter g = (true, s₁) ∧ body.run g rules s₁ = .ok (a, s₂) ∧
          (next true).run g rules s₂.leave = .ok r := by
  rw [Script.run]
  obtain ⟨granted, s₁⟩ := s.enter g
  cases granted with
  | false => simp
  | true => simp [bind_eq_ok_iff]

/-- Something between two delimiters, in one sequence. -/
theorem run_enclosed_eq {d : Delimiter} {construct : String} {ifEmpty : Option Problem}
    {body next : Script} :
    (enclosed d construct ifEmpty body next).run g rules s =
      (do
        let s₁ ← s.openDelimiter g d
        let (a, s₂) ← body.run g rules s₁
        let s₃ ← s₂.closeDelimiter g d construct
        let s₄ ← s₃.closeEmpty g ifEmpty a ((s.skip g).frontSpan g)
        next.run g rules s₄) := by
  rw [Script.run]
  refine bind_congr fun s₁ => bind_congr fun r₂ => bind_congr fun s₃ => ?_
  obtain ⟨a, s₂⟩ := r₂
  cases ifEmpty with
  | none => rfl
  | some problem => cases a <;> rfl

/-- An opener is consumed, the body runs, and the closer is consumed or reported. -/
theorem run_enclosed_eq_ok_iff {d : Delimiter} {construct : String} {ifEmpty : Option Problem}
    {body next : Script} :
    (enclosed d construct ifEmpty body next).run g rules s = .ok r ↔
      ∃ s₁ a s₂ s₃ s₄, s.openDelimiter g d = .ok s₁ ∧ body.run g rules s₁ = .ok (a, s₂) ∧
        s₂.closeDelimiter g d construct = .ok s₃ ∧
          s₃.closeEmpty g ifEmpty a ((s.skip g).frontSpan g) = .ok s₄ ∧
            next.run g rules s₄ = .ok r := by
  rw [run_enclosed_eq]
  simp only [bind_eq_ok_iff, Prod.exists]
  constructor
  · rintro ⟨s₁, hopen, a, s₂, hbody, s₃, hclose, s₄, hempty, h⟩
    exact ⟨s₁, a, s₂, s₃, s₄, hopen, hbody, hclose, hempty, h⟩
  · rintro ⟨s₁, a, s₂, s₃, s₄, hopen, hbody, hclose, hempty, h⟩
    exact ⟨s₁, hopen, a, s₂, hbody, s₃, hclose, s₄, hempty, h⟩

/-- A rule runs before what follows runs on its answer. -/
theorem run_call_eq_ok_iff {rule : Rule} {next : Bool → Script} :
    (call rule next).run g rules s = .ok r ↔
      ∃ a s₁, rules rule s = .ok (a, s₁) ∧ (next a).run g rules s₁ = .ok r :=
  bind_eq_ok_iff.trans Prod.exists

end Script

namespace Fragment

variable {α β : Type}

/-! ## Fragments as scripts -/

/-- A sequence of fragments is the first one, with the second one in what follows. -/
theorem bind_apply (m : Fragment α) (f : α → Fragment β) (next : β → Script) :
    (m >>= f) next = m fun a => f a next := rfl

/-- Fragments in sequence may be put together in any way. -/
theorem bind_assoc {γ : Type} (m : Fragment α) (f : α → Fragment β) (f' : β → Fragment γ) :
    (m >>= f >>= f') = m >>= fun a => f a >>= f' := rfl

theorem pure_apply (a : α) (next : α → Script) : (pure a : Fragment α) next = next a := rfl

/-- What follows a choice follows either branch. -/
theorem ite_apply (c : Prop) [Decidable c] (m n : Fragment α) (next : α → Script) :
    (if c then m else n) next = if c then m next else n next := by
  split <;> rfl

end Fragment

/-- What every script preserves as long as the rules it calls do, every rule preserves. -/
theorem Rule.run_induct {g : Setting} {P : Rule → State → Bool → State → Prop}
    (h : ∀ (rules : Rule → State → Reply),
      (∀ rule s a s', rules rule s = .ok (a, s') → P rule s a s') →
        ∀ rule s a s', rule.script.run g rules s = .ok (a, s') → P rule s a s')
    {budget : Nat} {rule : Rule} {s : State} {a : Bool} {s' : State}
    (hrun : rule.run g budget s = .ok (a, s')) : P rule s a s' := by
  induction budget generalizing rule s a s' with
  | zero => cases hrun
  | succ budget ih => exact h (Rule.run g budget) (fun _ _ _ _ => ih) rule s a s' hrun

end ScriptTree
