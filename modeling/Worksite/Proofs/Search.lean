import Worksite.Proofs.Query
import Worksite.Proofs.Text.Lines
import Worksite.Search

/-!
Matches and lines: the number of a match is that of a line, and its columns are where the line
holds what was matched.
-/
namespace Worksite.Search

open Text (Chars splitLines dropLineEnd)

variable {p : Pattern} {m : SearchMatch} {path : String} {text line : Chars} {i : Nat}

/-- A text is what a query asks for as it is, character by character, in any case unless case
matters. -/
def Spells (q : Query) (found : Chars) : Prop :=
  List.Forall₂ (fun c d => if q.caseSensitive then d = c else (CharSet.single c).folded.has d)
    q.text.toList found

end Worksite.Search
