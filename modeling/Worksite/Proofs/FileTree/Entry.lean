import Mathlib
import Worksite.FileTree.Change

/-!
What a change of a file tree does to its entries, location by location, and trees in which every
entry stands in a directory.
-/
namespace Worksite.FileTree

variable {t : FileTree} {l x : Location} {e : Entry}

/-- Every entry stands in a directory. -/
def Closed (t : FileTree) : Prop := ∀ e ∈ t.entries, t.isDirectory e.1.dropLast

instance (t : FileTree) : Decidable t.Closed :=
  inferInstanceAs (Decidable (∀ e ∈ t.entries, t.isDirectory e.1.dropLast))

@[simp] theorem entry?_nil (t : FileTree) : t.entry? [] = some .directory := rfl

theorem entry?_eq_lookup (h : l ≠ []) : t.entry? l = t.entries.lookup l := by
  cases l with
  | nil => exact absurd rfl h
  | cons s l => rfl

theorem isDirectory_iff : t.isDirectory l ↔ t.entry? l = some .directory := by
  unfold isDirectory
  split <;> simp_all

theorem ext_entries {t t' : FileTree} (h : t.entries = t'.entries) : t = t' := by
  cases t
  cases t'
  simpa using h

theorem mem_entries_of_eq_some (h : l ≠ []) (he : t.entry? l = some e) : (l, e) ∈ t.entries := by
  rw [entry?_eq_lookup h, List.lookup_eq_some_iff] at he
  obtain ⟨l₁, l₂, he, -⟩ := he
  simp [he]

theorem entry?_of_mem_entries (h : l ≠ []) (he : (l, e) ∈ t.entries) : t.entry? l = some e := by
  obtain ⟨l₁, l₂, hl⟩ := List.append_of_mem he
  rw [entry?_eq_lookup h, List.lookup_eq_some_iff]
  refine ⟨l₁, l₂, hl, fun p hp => ?_⟩
  have hd := t.distinct
  rw [hl, List.map_append, List.map_cons, List.nodup_append] at hd
  have hne := hd.2.2 _ (List.mem_map_of_mem hp) l (by simp)
  simpa using Ne.symm hne

theorem closed_iff : t.Closed ↔ ∀ l, l ≠ [] → t.entry? l ≠ none → t.isDirectory l.dropLast := by
  constructor
  · intro h l hl he
    obtain ⟨e, he⟩ := Option.ne_none_iff_exists'.mp he
    exact h _ (mem_entries_of_eq_some hl he)
  · intro h e he
    by_cases hl : e.1 = []
    · simp [hl, isDirectory_iff]
    · exact h _ hl (by simp [entry?_of_mem_entries hl he])

/-! ## Entries after a change -/

theorem lookup_filter_fst (entries : List (Location × Entry)) (keep : Location → Bool)
    (x : Location) : (entries.filter fun e => keep e.1).lookup x =
      if keep x then entries.lookup x else none := by
  induction entries with
  | nil => simp
  | cons e entries ih =>
    obtain ⟨l, e⟩ := e
    by_cases hx : x = l
    · subst hx
      by_cases hk : keep x
      · simp [hk]
      · simp [hk, ih]
    · have hb : (x == l) = false := by simpa using hx
      by_cases hk : keep l <;> simp [hk, List.lookup_cons, hb, ih]

theorem entry?_restrict (keep : Location → Bool) (h : x ≠ []) :
    entry? (t.restrict keep) x = if keep x then t.entry? x else none := by
  rw [entry?_eq_lookup h, entry?_eq_lookup h]
  exact lookup_filter_fst t.entries keep x

theorem entry?_put_self (h : l ≠ []) : entry? (t.put l e) l = some e := by
  simp [entry?_eq_lookup h, put]

theorem entry?_put_of_ne (h : x ≠ l) : entry? (t.put l e) x = t.entry? x := by
  by_cases hx : x = []
  · simp [hx]
  · have hb : (x == l) = false := by simpa using h
    have hr := entry?_restrict (t := t) (· ≠ l) hx
    rw [entry?_eq_lookup hx] at hr
    rw [entry?_eq_lookup hx, put, List.lookup_cons, hb, hr]
    simp [h]

theorem entry?_erase_self (h : l ≠ []) : entry? (t.erase l) l = none := by
  simp [erase, entry?_restrict _ h]

theorem entry?_erase_of_ne (h : x ≠ l) : entry? (t.erase l) x = t.entry? x := by
  by_cases hx : x = []
  · simp [hx]
  · simp [erase, entry?_restrict _ hx, h]

theorem entry?_eraseTree_below (hx : x ≠ []) (h : l <+: x) :
    entry? (t.eraseTree l) x = none := by
  have hb : l.isPrefixOf x := List.isPrefixOf_iff_prefix.mpr h
  simp [eraseTree, entry?_restrict _ hx, hb]

theorem entry?_eraseTree_elsewhere (h : ¬ l <+: x) :
    entry? (t.eraseTree l) x = t.entry? x := by
  by_cases hx : x = []
  · simp [hx]
  · simp [eraseTree, entry?_restrict _ hx, h]

/-! ## Changes that undo each other -/

theorem restrict_eq_self {keep : Location → Bool} (h : ∀ e ∈ t.entries, keep e.1) :
    t.restrict keep = t :=
  ext_entries (List.filter_eq_self.mpr h)

theorem erase_of_absent (hl : l ≠ []) (h : t.entry? l = none) : t.erase l = t := by
  apply restrict_eq_self
  intro e he
  simp only [decide_eq_true_eq]
  rintro rfl
  rw [entry?_of_mem_entries hl he] at h
  exact Option.some_ne_none _ h

theorem erase_put (t : FileTree) (l : Location) (e : Entry) : (t.put l e).erase l = t.erase l := by
  apply ext_entries
  simp [erase, put, restrict]

theorem put_put (t : FileTree) (l : Location) (e e' : Entry) :
    (t.put l e).put l e' = t.put l e' := by
  apply ext_entries
  simp [put, restrict]

/-- Undoing what was put where nothing stood. -/
theorem erase_put_of_absent (hl : l ≠ []) (h : t.entry? l = none) : (t.put l e).erase l = t := by
  rw [erase_put, erase_of_absent hl h]

/-! ## Closed trees -/

theorem Closed.isDirectory_of_prefix (h : t.Closed) (hx : t.entry? x ≠ none) (hl : l <+: x)
    (hne : l ≠ x) : t.isDirectory l := by
  induction x using List.reverseRecOn generalizing l with
  | nil => exact absurd (List.prefix_nil.mp hl) hne
  | append_singleton x s ih =>
    have hd : t.isDirectory x := by
      simpa using closed_iff.mp h (x ++ [s]) (by simp) hx
    rcases List.prefix_concat_iff.mp hl with hl | hl
    · exact absurd hl hne
    · by_cases hlx : l = x
      · exact hlx ▸ hd
      · exact ih (by simp [isDirectory_iff.mp hd]) hl hlx

/-- Below what is no directory there is nothing. -/
theorem Closed.absent_below (h : t.Closed) (hd : ¬ t.isDirectory l) (hl : l <+: x) (hne : l ≠ x) :
    t.entry? x = none := by
  by_contra hx
  exact hd (h.isDirectory_of_prefix hx hl hne)

theorem Closed.absent_of_absent (h : t.Closed) (ha : t.entry? l = none) (hl : l <+: x) :
    t.entry? x = none := by
  by_cases hne : l = x
  · exact hne ▸ ha
  · exact h.absent_below (by simp [isDirectory_iff, ha]) hl hne

theorem Closed.put (h : t.Closed) (hp : t.isDirectory l.dropLast) (hd : ¬ t.isDirectory l) :
    (t.put l e).Closed := by
  rw [closed_iff] at h ⊢
  intro x hx hne
  by_cases hxl : x = l
  · subst hxl
    have hself : x.dropLast ≠ x := fun h' => hd (h' ▸ hp)
    rw [isDirectory_iff, entry?_put_of_ne hself]
    exact isDirectory_iff.mp hp
  · rw [entry?_put_of_ne hxl] at hne
    have hxd := h x hx hne
    have hxp : x.dropLast ≠ l := fun h' => hd (h' ▸ hxd)
    rw [isDirectory_iff, entry?_put_of_ne hxp]
    exact isDirectory_iff.mp hxd

theorem Closed.erase (h : t.Closed) (he : ∀ s, t.entry? (l ++ [s]) = none) :
    (t.erase l).Closed := by
  rw [closed_iff] at h ⊢
  intro x hx hne
  have hxl : x ≠ l := by
    rintro rfl
    exact hne (entry?_erase_self hx)
  rw [entry?_erase_of_ne hxl] at hne
  have hxd := h x hx hne
  have hxp : x.dropLast ≠ l := by
    rintro rfl
    exact hne (by simpa [List.dropLast_concat_getLast hx] using he (x.getLast hx))
  rw [isDirectory_iff, entry?_erase_of_ne hxp]
  exact isDirectory_iff.mp hxd

theorem Closed.eraseTree (h : t.Closed) (l : Location) : (t.eraseTree l).Closed := by
  rw [closed_iff] at h ⊢
  intro x hx hne
  have hlx : ¬ l <+: x := fun hlx => hne (entry?_eraseTree_below hx hlx)
  rw [entry?_eraseTree_elsewhere hlx] at hne
  have hlp : ¬ l <+: x.dropLast := fun h' => hlx (h'.trans (List.dropLast_prefix x))
  rw [isDirectory_iff, entry?_eraseTree_elsewhere hlp]
  exact isDirectory_iff.mp (h x hx hne)

end Worksite.FileTree
