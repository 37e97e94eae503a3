/-!
# Spans

A `Span` is a range of byte offsets of a source text.  That it does not run backwards is part of
the type, so the only way to make one from two loose offsets is `Span.make?`.
-/

namespace ScriptTree

/-- A range of byte offsets, `stop` excluded. -/
structure Span where
  start : Nat
  stop : Nat
  start_le_stop : start ≤ stop
  deriving DecidableEq, Repr

namespace Span

/-- The span between two offsets, unless they run backwards. -/
def make? (start stop : Nat) : Option Span :=
  if h : start ≤ stop then some ⟨start, stop, h⟩ else none

/-- The empty span at an offset. -/
def point (offset : Nat) : Span := ⟨offset, offset, Nat.le_refl _⟩

instance : Inhabited Span := ⟨point 0⟩

/-- Number of bytes. -/
def length (s : Span) : Nat := s.stop - s.start

/-- Does `inner` start later than `outer` and end no later? -/
def strictlyContains (outer inner : Span) : Bool :=
  outer.start < inner.start && inner.stop ≤ outer.stop

/-- The span as `start..stop`. -/
def render (s : Span) : String := toString s.start ++ ".." ++ toString s.stop

/-- A span is made of its ends. -/
theorem make?_eq_some_iff {start stop : Nat} {s : Span} :
    make? start stop = some s ↔ s.start = start ∧ s.stop = stop := by
  unfold make?
  split
  · constructor
    · intro h; cases h; exact ⟨rfl, rfl⟩
    · rintro ⟨rfl, rfl⟩; rfl
  · constructor
    · intro h; cases h
    · rintro ⟨rfl, rfl⟩; exact absurd s.start_le_stop ‹_›

end Span

end ScriptTree
