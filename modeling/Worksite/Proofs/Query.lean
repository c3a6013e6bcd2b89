import Mathlib
import Worksite.Proofs.Pattern.Occurrences
import Worksite.Proofs.Unicode.Case
import Worksite.Query

/-!
Queries. A query that is no pattern is looked for as it is: its signs mean nothing, and what it
finds is what a plain scan for its characters finds.
-/
namespace Worksite.Query

open Pattern (Span literal oneOf occurrences)

variable {q : Query} {p : Pattern}

/-- What a query takes for one of its characters: the character, or one that differs from it only
in case. -/
def alike (q : Query) (c d : Char) : Bool :=
  if q.caseSensitive then c = d else Unicode.FoldsAlike c d

theorem has_single (c d : Char) : (CharSet.single c).has d = decide (c = d) := by
  rw [CharSet.single, CharSet.has, ← Bool.decide_and, decide_eq_decide]
  constructor
  · intro h
    exact le_antisymm h.1 h.2
  · intro h
    exact ⟨h.le, h.ge⟩

theorem has_folded_single (c d : Char) :
    (CharSet.single c).folded.has d = decide (Unicode.FoldsAlike c d) := by
  rw [Bool.eq_iff_iff, decide_eq_true_iff, CharSet.has, List.any_eq_true]
  constructor
  · intro h
    obtain ⟨e, he, hc⟩ := h
    rw [has_single, decide_eq_true_iff] at hc
    exact Unicode.foldsAlike_equivalence.symm (Unicode.mem_caseClass.mp (hc ▸ he))
  · intro h
    refine ⟨c, Unicode.mem_caseClass.mpr (Unicode.foldsAlike_equivalence.symm h), ?_⟩
    rw [has_single, decide_eq_true_iff]

theorem has_oneOf (q : Query) (c d : Char) : (oneOf (!q.caseSensitive) c).has d = q.alike c d := by
  rw [alike, oneOf]
  cases q.caseSensitive with
  | true => exact has_single c d
  | false => exact has_folded_single c d

/-- The pattern of a query that is none itself, unless it grows too large. -/
theorem pattern_eq (hregex : q.regex = false) (hne : q.text ≠ "") :
    q.pattern =
      if (literal (!q.caseSensitive) q.text.toList).weight ≤ Pattern.maxWeight then
        .ok (literal (!q.caseSensitive) q.text.toList)
      else
        .error (.invalidPattern q.text "Compiled regex exceeds size limit of 10485760 bytes.") := by
  simp [pattern, hregex, hne, Pattern.parse?_escape]

theorem eq_literal (hregex : q.regex = false) (hp : q.pattern = .ok p) :
    p = literal (!q.caseSensitive) q.text.toList := by
  simp only [pattern, hregex, Bool.false_eq_true, ↓reduceIte, Pattern.parse?_escape] at hp
  split_ifs at hp
  exact (Except.ok.inj hp).symm

/-- What the characters of a query match in a text is what the plain scan finds. -/
theorem allMatches_literal (q : Query) (hne : q.text ≠ "") (text : List Char) :
    (literal (!q.caseSensitive) q.text.toList).allMatches text =
      (occurrences q.alike q.text.toList 0 text).map (Span.piece text q.text.toList.length) := by
  have hword : q.text.toList ≠ [] := by simpa using hne
  have halike : (fun c d => (oneOf (!q.caseSensitive) c).has d) = q.alike := by
    funext c d
    exact has_oneOf q c d
  rw [Pattern.allMatches_literal hword, halike]

end Worksite.Query
