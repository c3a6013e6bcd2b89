import Mathlib
import Worksite.Dependency
import Worksite.Proofs.Text.Lines

/-!
Dependencies of a text: what its lines name, each where it comes first. Of texts that are put
together it makes no difference whether repetitions are dropped before or after.
-/
namespace Worksite

namespace Dependency

variable {α : Type} [DecidableEq α]

theorem foldl_eq_eraseDups (l kept : List α) :
    l.foldl (fun kept a => if a ∈ kept then kept else kept ++ [a]) kept =
      kept ++ (l.filter (· ∉ kept)).eraseDups := by
  induction l generalizing kept with
  | nil => simp
  | cons a l ih =>
    rw [List.foldl_cons]
    by_cases ha : a ∈ kept
    · rw [if_pos ha, ih, List.filter_cons_of_neg (by simpa using ha)]
    · rw [if_neg ha, ih, List.filter_cons_of_pos (by simpa using ha), List.eraseDups_cons,
        List.filter_filter, List.append_assoc, List.singleton_append]
      congr 3
      refine List.filter_congr fun b _ => ?_
      by_cases hb : b = a <;> simp [hb, ha]

theorem distinct_eq_eraseDups (l : List α) : distinct l = l.eraseDups := by
  rw [distinct, foldl_eq_eraseDups]
  simp

theorem filter_eraseDups (p : α → Bool) (l : List α) :
    l.eraseDups.filter p = (l.filter p).eraseDups := by
  cases l with
  | nil => simp
  | cons a l =>
    have hrest := filter_eraseDups p (l.filter fun b => !b == a)
    rw [List.filter_comm] at hrest
    rw [List.eraseDups_cons]
    by_cases ha : p a
    · rw [List.filter_cons_of_pos ha, List.filter_cons_of_pos ha, List.eraseDups_cons, hrest]
    · have hnot : (l.filter p).filter (fun b => !b == a) = l.filter p :=
        List.filter_eq_self.mpr fun b hb => by
          have hp := (List.mem_filter.mp hb).2
          have hne : b ≠ a := fun h => ha (h ▸ hp)
          simpa using hne
      rw [List.filter_cons_of_neg ha, List.filter_cons_of_neg ha, hrest, hnot]
termination_by l.length
decreasing_by exact Nat.lt_succ_of_le (List.length_filter_le ..)

theorem nodup_eraseDups (l : List α) : l.eraseDups.Nodup := by
  cases l with
  | nil => simp
  | cons a l =>
    rw [List.eraseDups_cons, List.nodup_cons, List.mem_eraseDups]
    exact ⟨by simp, nodup_eraseDups (l.filter fun b => !b == a)⟩
termination_by l.length
decreasing_by exact Nat.lt_succ_of_le (List.length_filter_le ..)

theorem eraseDups_of_nodup {l : List α} (h : l.Nodup) : l.eraseDups = l := by
  induction l with
  | nil => simp
  | cons a l ih =>
    obtain ⟨ha, hl⟩ := List.nodup_cons.mp h
    have hother : l.filter (fun b => !b == a) = l :=
      List.filter_eq_self.mpr fun b hb => by
        have hne : b ≠ a := fun h => ha (h ▸ hb)
        simpa using hne
    rw [List.eraseDups_cons, hother, ih hl]

theorem eraseDups_append_eraseDups (k l : List α) :
    (k.eraseDups ++ l.eraseDups).eraseDups = (k ++ l).eraseDups := by
  have hkept : l.eraseDups.removeAll k.eraseDups = (l.removeAll k).eraseDups := by
    rw [List.removeAll, List.removeAll, ← filter_eraseDups]
    exact List.filter_congr fun a _ => by simp
  rw [List.eraseDups_append, List.eraseDups_append, hkept,
    eraseDups_of_nodup (nodup_eraseDups k), eraseDups_of_nodup (nodup_eraseDups (l.removeAll k))]

theorem eraseDups_append_eq_iff {k l : List α} :
    (k ++ l).eraseDups = k.eraseDups ↔ ∀ a ∈ l, a ∈ k := by
  constructor
  · intro h a ha
    rw [← List.mem_eraseDups, ← h, List.mem_eraseDups]
    exact List.mem_append_right k ha
  · intro h
    have hnone : l.removeAll k = [] := List.filter_eq_nil_iff.mpr fun a ha => by simp [h a ha]
    rw [List.eraseDups_append, hnone, List.eraseDups_nil, List.append_nil]

/-- Of as many elements none is dropped. -/
theorem eraseDups_eq_iff {k l : List α} (hlen : k.length = l.length) (hl : l.Nodup) :
    k.eraseDups = l ↔ k = l := by
  constructor
  · intro h
    have hsubset : l ⊆ k := fun a ha => List.mem_eraseDups.mp (h ▸ ha)
    have hperm : l.Perm k := (hl.subperm hsubset).perm_of_length_le hlen.le
    rw [← h, eraseDups_of_nodup (hperm.nodup hl)]
  · rintro rfl
    exact eraseDups_of_nodup hl

end Dependency

/-- What the lines of a text name, by the kind of its language. -/
def dependencyLine (language : Language) : Text.Chars → List Text.Chars :=
  match language.extraction with
  | .parsed => Dependency.pythonLine
  | .pattern => Dependency.scriptLine
  | .unsupported => fun _ => []

theorem extractDependencies_eq (text : String) (language : Language) :
    extractDependencies text language =
      (((Text.lines text.toList).flatMap (dependencyLine language)).map
        String.ofList).eraseDups := by
  unfold extractDependencies dependencyLine
  cases language.extraction with
  | parsed => exact Dependency.distinct_eq_eraseDups _
  | pattern => exact Dependency.distinct_eq_eraseDups _
  | unsupported => rw [List.flatMap_eq_nil_iff.mpr fun _ _ => rfl, List.map_nil, List.eraseDups_nil]

/-- A text of one line has the dependencies of the line. -/
theorem extractDependencies_line {line : Text.Chars} (h : '\n' ∉ line) (hne : line ≠ [])
    (language : Language) :
    extractDependencies (String.ofList line) language =
      ((dependencyLine language line).map String.ofList).eraseDups := by
  rw [extractDependencies_eq, String.toList_ofList, Text.lines_unended h hne,
    List.flatMap_singleton]

end Worksite
