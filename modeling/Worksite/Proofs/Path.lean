import Mathlib
import Worksite.Path

/-!
The names of a path that was folded by its text: none is blank or a dot. What a location is called
from a root above it.
-/
namespace Worksite.Path

/-- A name that stands for an entry of a directory. -/
def IsName (s : String) : Prop := s ≠ "" ∧ s ≠ "." ∧ s ≠ ".."

instance (s : String) : Decidable (IsName s) := inferInstanceAs (Decidable (_ ∧ _))

theorem isName_of_ofSegment {s n : String} (hs : s ≠ "") (h : Step.ofSegment s = .name n) :
    IsName n := by
  unfold Step.ofSegment at h
  split_ifs at h with h₁ h₂
  simp only [Step.name.injEq] at h
  exact h ▸ ⟨hs, h₁, h₂⟩

/-- A name in the steps of a path is one of its segments. -/
theorem mem_segments_of_mem_steps {path n : String} (h : .name n ∈ steps path) :
    n ∈ segments path ∧ IsName n := by
  have hall : ∀ n, .name n ∈ ((segments path).filter (· ≠ "")).map Step.ofSegment →
      n ∈ segments path ∧ IsName n := by
    intro n hn
    obtain ⟨s, hs, hn⟩ := List.mem_map.mp hn
    obtain ⟨hs, hne⟩ := List.mem_filter.mp hs
    have hname := isName_of_ofSegment (by simpa using hne) hn
    unfold Step.ofSegment at hn
    split_ifs at hn
    exact ⟨Step.name.inj hn ▸ hs, hname⟩
  simp only [steps] at h
  apply hall n
  -- what is dropped from the steps is no name
  split at h
  · next rest heq =>
    rw [heq]
    split_ifs at h
    · simp only [List.mem_cons, reduceCtorEq, false_or] at h
      exact List.mem_cons_of_mem _ (List.mem_filter.mp h).1
    · exact List.mem_cons_of_mem _ (List.mem_filter.mp h).1
  · exact (List.mem_filter.mp h).1

theorem forall_mem_fold {P : String → Prop} {l l' : Location} {steps : List Step}
    (hl : ∀ s ∈ l, P s) (hs : ∀ n, .name n ∈ steps → P n) (h : fold l steps = some l') :
    ∀ s ∈ l', P s := by
  fun_induction fold l steps with
  | case1 l =>
    simp only [Option.some.injEq] at h
    exact h ▸ hl
  | case2 l rest ih => exact ih hl (fun n hn => hs n (List.mem_cons_of_mem _ hn)) h
  | case3 => simp at h
  | case4 l rest _ ih =>
    exact ih (fun s hm => hl s (List.dropLast_subset l hm))
      (fun n hn => hs n (List.mem_cons_of_mem _ hn)) h
  | case5 l n rest ih =>
    refine ih (fun s hm => ?_) (fun n hn => hs n (List.mem_cons_of_mem _ hn)) h
    rcases List.mem_append.mp hm with hm | hm
    · exact hl s hm
    · exact List.mem_singleton.mp hm ▸ hs n List.mem_cons_self

/-- What holds of the names of a root and of a path holds of those that the path is folded to. -/
theorem forall_mem_locate {P : String → Prop} {root l : Location} {path : String}
    (hr : ∀ s ∈ root, P s) (hp : ∀ s ∈ segments path, IsName s → P s)
    (h : locate root path = some l) : ∀ s ∈ l, P s := by
  have hs : ∀ n, .name n ∈ steps path → P n := fun n hn =>
    hp n (mem_segments_of_mem_steps hn).1 (mem_segments_of_mem_steps hn).2
  unfold locate at h
  split_ifs at h
  · exact forall_mem_fold (by simp) hs h
  · exact forall_mem_fold hr hs h

/-- A path folded from a root of names gives names. -/
theorem isName_of_mem_locate {root l : Location} {path : String} (hr : ∀ s ∈ root, IsName s)
    (h : locate root path = some l) : ∀ s ∈ l, IsName s :=
  forall_mem_locate hr (fun _ _ hs => hs) h

theorem slash_notMem_of_mem_segments {path s : String} (h : s ∈ segments path) :
    '/' ∉ s.toList := by
  obtain ⟨cs, hcs, rfl⟩ := List.mem_map.mp h
  clear h
  rw [String.toList_ofList]
  generalize path.toList = text at hcs
  induction text generalizing cs with
  | nil =>
    obtain rfl : cs = [] := by simpa using hcs
    simp
  | cons c text ih =>
    rw [List.splitOn_cons_eq_if_modifyHead] at hcs
    split_ifs at hcs with hc
    · rcases List.mem_cons.mp hcs with rfl | hcs
      · simp
      · exact ih cs hcs
    · -- the character joins the first segment of the rest
      obtain ⟨first, more, hsplit⟩ := List.exists_cons_of_ne_nil (List.splitOn_ne_nil '/' text)
      rw [hsplit, List.modifyHead_cons] at hcs
      rw [hsplit] at ih
      rcases List.mem_cons.mp hcs with rfl | hcs
      · have hfirst := ih first List.mem_cons_self
        have hslash : '/' ≠ c := by
          rintro rfl
          simp at hc
        simp [hslash, hfirst]
      · exact ih cs (List.mem_cons_of_mem _ hcs)

/-- A name as it can stand between the slashes of a path. -/
def IsNormal (s : String) : Prop := IsName s ∧ '/' ∉ s.toList

instance (s : String) : Decidable (IsNormal s) := inferInstanceAs (Decidable (_ ∧ _))

/-- A path folded from a root of names is spelled as it is read. -/
theorem isNormal_of_mem_locate {root l : Location} {path : String} (hr : ∀ s ∈ root, IsNormal s)
    (h : locate root path = some l) : ∀ s ∈ l, IsNormal s :=
  forall_mem_locate hr (fun _ hs hn => ⟨hn, slash_notMem_of_mem_segments hs⟩) h

/-! ## Paths as they are shown -/

theorem segments_relativeText {l : Location} (hne : l ≠ []) (hs : ∀ s ∈ l, '/' ∉ s.toList) :
    segments l.relativeText = l := by
  unfold segments Location.relativeText
  rw [String.toList_intercalate, show "/".toList = ['/'] from rfl, List.splitOn_intercalate]
  · simp [Function.comp_def]
  · simpa using hs
  · simpa using hne

theorem ofSegment_of_isName {s : String} (h : IsName s) : Step.ofSegment s = .name s := by
  simp [Step.ofSegment, h.2.1, h.2.2]

/-- A location below the root is named by how it is shown. -/
theorem steps_relativeText {l : Location} (hne : l ≠ [])
    (hn : ∀ s ∈ l, IsName s ∧ '/' ∉ s.toList) : steps l.relativeText = l.map .name := by
  have hall : ((segments l.relativeText).filter (· ≠ "")).map Step.ofSegment = l.map .name := by
    rw [segments_relativeText hne fun s hs => (hn s hs).2, List.filter_eq_self.mpr]
    · exact List.map_congr_left fun s hs => ofSegment_of_isName (hn s hs).1
    · exact fun s hs => by simpa using (hn s hs).1.1
  rw [steps]
  simp only [hall]
  split
  · next rest heq =>
    cases l <;> simp at heq
  · exact List.filter_eq_self.mpr (by simp)

theorem isAbsolute_relativeText {l : Location} (hn : ∀ s ∈ l, IsName s ∧ '/' ∉ s.toList) :
    isAbsolute l.relativeText = false := by
  cases l with
  | nil => rfl
  | cons s l =>
    obtain ⟨hs, hslash⟩ := hn s List.mem_cons_self
    unfold isAbsolute Location.relativeText
    have hne : s.toList ≠ [] := by simpa using hs.1
    obtain ⟨c, cs, hc⟩ := List.exists_cons_of_ne_nil hne
    have hcs : c ≠ '/' := by
      rintro rfl
      simp [hc] at hslash
    cases l with
    | nil => simp [hc, hcs]
    | cons s' l => simp [String.intercalate_cons_cons, hc, hcs]

theorem fold_names (root l : Location) : fold root (l.map .name) = some (root ++ l) := by
  induction l generalizing root with
  | nil => simp [fold]
  | cons s l ih => simp [fold, ih]

theorem locate_relativeText (root : Location) {l : Location} (hne : l ≠ [])
    (hn : ∀ s ∈ l, IsName s ∧ '/' ∉ s.toList) : locate root l.relativeText = some (root ++ l) := by
  rw [locate, isAbsolute_relativeText hn, steps_relativeText hne hn, if_neg (by simp), fold_names]

end Worksite.Path

namespace Worksite.Location

theorem relativeTo?_eq_some {l root relative : Location} :
    l.relativeTo? root = some relative ↔ l = root ++ relative := by
  unfold relativeTo?
  split_ifs with h
  · obtain ⟨m, rfl⟩ := List.isPrefixOf_iff_prefix.mp h
    simp
  · simp only [false_iff]
    rintro rfl
    exact h (List.isPrefixOf_iff_prefix.mpr (List.prefix_append root relative))

theorem utf8ByteSize_relativeText_le {l l' : Location} (h : l <+: l') :
    l.relativeText.utf8ByteSize ≤ l'.relativeText.utf8ByteSize := by
  unfold relativeText
  obtain ⟨m, rfl⟩ := h
  induction l with
  | nil => simp
  | cons s l ih =>
    cases l with
    | nil =>
      cases m with
      | nil => simp
      | cons s' m => simp [String.intercalate_cons_cons]; omega
    | cons s' l =>
      simp only [List.cons_append, String.intercalate_cons_cons, String.utf8ByteSize_append] at ih ⊢
      omega

end Worksite.Location
