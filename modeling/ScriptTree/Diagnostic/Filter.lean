import ScriptTree.Diagnostic

/-!
# Diagnostics without their consequences

One mistake often leads to several reports.  `Diagnostic.suppresses` says when a report makes
another one superfluous, and `Diagnostic.filtered` sweeps over a collection: each report that is
still there, in order, removes all others that it suppresses.
-/

namespace ScriptTree.Diagnostic

/-- A report makes superfluous those of lower priority that lie inside its region and start after
    the region does. -/
def suppressesInside (a b : Diagnostic) : Bool :=
  a.region.strictlyContains b.span && a.problem.outranks b.problem

/-- Of two reports that start at one place, the missing part wins over the unclosed delimiter, and
    otherwise the higher priority wins. -/
def suppressesAtStart (a b : Diagnostic) : Bool :=
  a.span.start == b.span.start &&
    if a.problem.isRootCause && b.problem.isStructural then true
    else if a.problem.isStructural && b.problem.isRootCause then false
    else a.problem.outranks b.problem

/-- Does the first report make the second superfluous? -/
def suppresses (a b : Diagnostic) : Bool := suppressesInside a b || suppressesAtStart a b

/-- The reports that a given one does not suppress. -/
def spared (a : Diagnostic) (ds : List Diagnostic) : List Diagnostic := ds.filter (!a.suppresses ·)

theorem length_spared_le (a : Diagnostic) (ds : List Diagnostic) :
    (a.spared ds).length ≤ ds.length := List.length_filter_le _ _

/-- Each of `todo`, in order, removes what it suppresses among the survivors so far and among those
    still to come. -/
def sweep (survivors : List Diagnostic) : List Diagnostic → List Diagnostic
  | [] => survivors
  | a :: todo => sweep (a.spared survivors ++ [a]) (a.spared todo)
termination_by todo => todo.length
decreasing_by exact Nat.lt_succ_of_le (length_spared_le a todo)

/-- The diagnostics without those that others make superfluous. -/
def filtered (ds : List Diagnostic) : List Diagnostic := sweep [] ds

end ScriptTree.Diagnostic
