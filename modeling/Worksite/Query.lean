import Worksite.Pattern.Syntax
import Worksite.Error

/-!
Search queries: a text that is looked for as it is, or a pattern; in any case or as written.
-/
namespace Worksite

structure Query where
  text : String
  regex : Bool := false
  caseSensitive : Bool := false
  deriving DecidableEq, Repr

namespace Query

/-- The pattern that a query looks for. -/
def pattern (q : Query) : Except WorkspaceError Pattern :=
  if q.text = "" then .error (.invalidArgument "search query must not be empty")
  else
    let text := if q.regex then q.text else Pattern.escape q.text
    match Pattern.parse? (!q.caseSensitive) text with
    | none => .error (.invalidPattern q.text "regex parse error")
    | some p =>
      if p.weight ≤ Pattern.maxWeight then .ok p
      else
        .error (.invalidPattern q.text "Compiled regex exceeds size limit of 10485760 bytes.")

end Query

end Worksite
