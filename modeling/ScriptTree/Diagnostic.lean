import ScriptTree.Diagnostic.Problem
import ScriptTree.Span

/-!
# Diagnostics

A `Diagnostic` reports a `Problem` at a place.  Reports are collected in the order of discovery
and stay in it; `Diagnostic.filtered` (in `ScriptTree.Diagnostic.Filter`) is a view without the
reports that only follow from others.
-/

namespace ScriptTree

/-- A further place that explains a diagnostic. -/
structure Related where
  span : Span
  message : String
  deriving DecidableEq, Repr

/-- A report of one problem. -/
structure Diagnostic where
  problem : Problem
  /-- The place shown to the reader. -/
  span : Span
  /-- Reports inside this region may be consequences of this one. -/
  region : Span
  message : String
  /-- What the grammar was looking for. -/
  expected : Option String
  /-- What stood there instead. -/
  found : Option String
  related : List Related
  deriving DecidableEq, Repr

namespace Diagnostic

/-- The plain report of a problem: its own message, and its own span as region. -/
def ofProblem (problem : Problem) (span : Span) : Diagnostic :=
  ⟨problem, span, span, problem.summary, none, none, []⟩

/-- The severity of the problem. -/
def severity (d : Diagnostic) : Severity := d.problem.severity

/-- Is the problem an error? -/
def isError (d : Diagnostic) : Bool := d.severity == .error

/-- Is the problem only worth a warning? -/
def isWarning (d : Diagnostic) : Bool := d.severity == .warning

/-- The report with a detail in its message. -/
def withDetail (d : Diagnostic) (detail : String) : Diagnostic :=
  { d with message := d.problem.message (some detail) }

/-- The diagnostic on one line. -/
def plain (d : Diagnostic) : String :=
  d.severity.render ++ " at " ++ d.span.render ++ ": " ++ d.message
    ++ (match d.found with
      | some found => ", found " ++ found
      | none => "")
    ++ String.join (d.related.map fun r =>
      " (related: " ++ r.message ++ " at " ++ r.span.render ++ ")")

/-- The diagnostics, one on a line. -/
def plainLines (ds : List Diagnostic) : String := "\n".intercalate (ds.map plain)

/-- The lexical diagnostics. -/
def lexical (ds : List Diagnostic) : List Diagnostic := ds.filter (·.problem.isLexical)

/-- The diagnostics of the grammar. -/
def grammatical (ds : List Diagnostic) : List Diagnostic := ds.filter (!·.problem.isLexical)

end Diagnostic

end ScriptTree
