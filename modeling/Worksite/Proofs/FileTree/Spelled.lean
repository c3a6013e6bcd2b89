import Worksite.Proofs.Path.Spelling
import Worksite.Proofs.FileTree.Trail

/-!
Paths by the names that they spell. Segments that stay where they are can be left out of what is
followed, so that a path without climbs is followed to where its names lead.
-/
namespace Worksite

variable {t : FileTree} {l x : Location} {path s : String} {n : Nat} {names a b : List String}

/-! ## Steps -/

namespace Path

open FileTree (spelled)

theorem ofSegment_eq_here_iff : Step.ofSegment s = .here ↔ s = "." := by
  unfold Step.ofSegment
  split_ifs with h₁ h₂ <;> simp [h₁]

theorem text_ofSegment (s : String) : (Step.ofSegment s).text = s := by
  unfold Step.ofSegment
  split_ifs with h₁ h₂
  · exact h₁.symm
  · exact h₂.symm
  · rfl

/-- Without the dots, the steps are those of the spelled names. -/
theorem filter_turns (names : List String) :
    (turns names).filter (· ≠ .here) = (spelled names).map Step.ofSegment := by
  unfold turns
  rw [List.filter_map, List.filter_filter, spelled]
  congr 1
  apply List.filter_congr
  intro s _
  simp [isSilent, ofSegment_eq_here_iff, Bool.and_comm]

/-- A path that a dot does not open has no steps but the names it spells. -/
theorem steps_of_head? (h : (segments path).head? ≠ some ".") :
    steps path = (spelled (segments path)).map Step.ofSegment := by
  rw [← filter_turns, steps]
  simp only [turns]
  split
  · next rest hall =>
    rw [hall, if_neg h, List.filter_cons_of_neg (by simp)]
  · rfl

/-- A path without climbs is folded to the names it spells. -/
theorem fold_of_noClimb (l : Location) (h : ".." ∉ segments path) :
    fold l (steps path) = some (l ++ spelled (segments path)) := by
  have hname : ∀ s ∈ spelled (segments path), Step.ofSegment s = .name s := by
    intro s hs
    obtain ⟨hmem, hsilent⟩ := List.mem_filter.mp hs
    have hnot : s ≠ "" ∧ s ≠ "." := by simpa [isSilent] using hsilent
    apply ofSegment_of_isName
    exact ⟨hnot.1, hnot.2, fun hup => h (hup ▸ hmem)⟩
  rw [fold_steps, ← fold_filter, filter_turns, List.map_congr_left hname]
  exact fold_names l _

theorem mem_of_mem_segments (h : s ∈ segments path) : ∀ c ∈ s.toList, c ∈ path.toList := by
  obtain ⟨cs, hcs, rfl⟩ := List.mem_map.mp h
  intro c hc
  rw [String.toList_ofList] at hc
  have hwhole : ['/'].intercalate (path.toList.splitOn '/') = path.toList :=
    List.intercalate_splitOn '/'
  have hpart : cs ∈ (path.toList.splitOn '/').intersperse ['/'] := by
    obtain ⟨i, hi⟩ := List.mem_iff_getElem?.mp hcs
    exact List.mem_iff_getElem?.mpr ⟨2 * i, by rw [List.getElem?_intersperse_two_mul, hi]⟩
  rw [← hwhole]
  exact List.mem_flatten.mpr ⟨cs, hpart, hc⟩

theorem contains_nul_of_mem_segments (hnul : path.contains '\x00' = false)
    (h : s ∈ segments path) : s.contains '\x00' = false := by
  have hpath : '\x00' ∉ path.toList := by simpa using hnul
  have hname : '\x00' ∉ s.toList := fun hc => hpath (mem_of_mem_segments h _ hc)
  simpa using hname

end Path

/-! ## Following -/

namespace FileTree

/-- Names behind others are walked from where those arrive, also if there are none. -/
theorem course_append_last (a b : List String) : t.course true l (a ++ b) =
    match t.course true l a with
    | .arrived l' => t.course true l' b
    | .led d target rest => .led d target (rest ++ b)
    | .refused e => .refused e := by
  by_cases hb : b = []
  · subst hb
    rw [List.append_nil]
    cases t.course true l a with
    | arrived l' => rfl
    | led d target rest => simp only [List.append_nil]
    | refused e => rfl
  · exact course_append hb

/-- A course that is not refused is the same along the spelled names alone. -/
theorem course_spelled :
    (∀ x, t.course true l names = .arrived x → t.course true l (spelled names) = .arrived x) ∧
      ∀ d target rest, t.course true l names = .led d target rest →
        t.course true l (spelled names) = .led d target (spelled rest) := by
  induction names generalizing l with
  | nil => simp [course, spelled]
  | cons s names ih =>
    by_cases hd : t.isDirectory l
    · by_cases hstay : s = "" ∨ s = "."
      · have hcourse : t.course true l (s :: names) = t.course true l names := by
          rw [course]
          simp [hd, hstay]
        rw [hcourse, spelled_cons_of_silent hstay]
        exact ih
      · rw [spelled_cons hstay, course, course]
        simp only [hd, Bool.not_true, Bool.false_eq_true, ↓reduceIte, Bool.or_eq_true,
          decide_eq_true_eq, hstay, Bool.and_false]
        split_ifs with hup hlong
        · exact ih
        · simp
        · cases t.entry? (l ++ [s]) with
          | none => simp
          | some e =>
            cases e with
            | link target => simp +contextual
            | file | directory | socket => exact ih
    · rw [course]
      simp [hd]

/-- No course by itself leads through too many links. -/
theorem course_ne_tooManyLinks : t.course true l names ≠ .refused .tooManyLinks := by
  fun_induction course t true l names with
  | case1 | case2 | case5 | case6 | case7 | case8 => simp
  | case3 l s rest _ _ ih => exact ih
  | case4 l rest _ _ ih => exact ih
  | case9 l s rest _ _ _ _ e _ _ ih => exact ih

/-- Segments that stay where they are may be left out of the end of what is followed, as to where
it leads and as to whether there are too many links. -/
theorem follow_append_spelled_eq {r : Except SystemError Location}
    (hr : ∀ e, r = .error e → e = .tooManyLinks) (h : t.follow true n l (a ++ b) = r) :
    t.follow true n l (a ++ spelled b) = r := by
  have hrefused : ∀ l names e, t.course true l names = .refused e → r ≠ .error e := by
    rintro l names e hc rfl
    rw [hr e rfl] at hc
    exact course_ne_tooManyLinks hc
  -- on the links that may be followed: what a link leads to is put before the rest
  induction n generalizing l a b with
  | zero =>
    rw [follow, course_append_last] at h ⊢
    cases ha : t.course true l a with
    | refused e => exact absurd (by simpa [ha] using h.symm) (hrefused _ _ e ha)
    | led d target rest => simpa only [ha] using h
    | arrived l' =>
      simp only [ha] at h ⊢
      cases hb : t.course true l' b with
      | arrived l'' =>
        rw [course_spelled.1 l'' hb]
        simpa only [hb] using h
      | refused e => exact absurd (by simpa [hb] using h.symm) (hrefused _ _ e hb)
      | led d target rest =>
        rw [course_spelled.2 d target rest hb]
        simpa only [hb] using h
  | succ n ih =>
    rw [follow, course_append_last] at h ⊢
    cases ha : t.course true l a with
    | refused e => exact absurd (by simpa [ha] using h.symm) (hrefused _ _ e ha)
    | led d target rest =>
      simp only [ha] at h ⊢
      rw [← List.append_assoc] at h ⊢
      exact ih h
    | arrived l' =>
      simp only [ha] at h ⊢
      cases hb : t.course true l' b with
      | arrived l'' =>
        rw [course_spelled.1 l'' hb]
        simpa only [hb] using h
      | refused e => exact absurd (by simpa [hb] using h.symm) (hrefused _ _ e hb)
      | led d target rest =>
        rw [course_spelled.2 d target rest hb]
        simp only [hb] at h
        exact ih h

theorem follow_append_spelled (h : t.follow true n l (a ++ b) = .ok x) :
    t.follow true n l (a ++ spelled b) = .ok x :=
  follow_append_spelled_eq nofun h

end FileTree

end Worksite
