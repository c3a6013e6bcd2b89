import Worksite.Proofs.Walk.Capped
import Worksite.Proofs.Walk.Scanning

/-!
What a rebuild collects. Root after root, the wanted files of a walk are added that are not there
yet. The cap of a walk is what the files so far leave of the cap of the scope, but it counts all
files of the walk, also those that are there already or are not wanted; so a scope is complete just
as long as no walk is cut before something new.
-/
namespace Worksite.Index

open Walk

variable {s : Sandbox} {t : FileTree} {scope : IndexScope} {languages : List Language}
  {files more walk : List FoundFile} {walks : List (List FoundFile)} {roots : List Place}
  {cap : Option Nat} {f : FoundFile} {r : Location} {text : String} {maxBytes : Nat}

/-! ## Adding files -/

/-- Whether files of a name are scanned. -/
def WantedName (languages : List Language) (r : Location) : Prop :=
  isWanted languages (Language.classify r.relativeText)

instance (languages : List Language) (r : Location) : Decidable (WantedName languages r) :=
  inferInstanceAs (Decidable (_ = true))

theorem addFiles_cons (languages : List Language) (files : List FoundFile) (f : FoundFile)
    (more : List FoundFile) : addFiles languages files (f :: more) =
      addFiles languages (if WantedName languages f.relative ∧ f.relative ∉ namesOf files
        then files ++ [f] else files) more := by
  have hany : files.any (·.relative = f.relative) = decide (f.relative ∈ namesOf files) := by
    rw [Bool.eq_iff_iff, List.any_eq_true, decide_eq_true_iff, namesOf, List.mem_map]
    simp only [decide_eq_true_eq]
  rw [addFiles, List.foldl_cons, ← addFiles, hany]
  congr 1
  exact if_congr (by simp [WantedName, FoundFile.language]) rfl rfl

theorem addFiles_append (languages : List Language) (files a b : List FoundFile) :
    addFiles languages files (a ++ b) = addFiles languages (addFiles languages files a) b :=
  List.foldl_append

/-- The names that are there in the end. -/
theorem mem_namesOf_addFiles : r ∈ namesOf (addFiles languages files more) ↔
    r ∈ namesOf files ∨ WantedName languages r ∧ r ∈ namesOf more := by
  induction more generalizing files with
  | nil => simp [addFiles, namesOf]
  | cons f more ih =>
    have hstep : r ∈ namesOf (if WantedName languages f.relative ∧ f.relative ∉ namesOf files
        then files ++ [f] else files) ↔
          r ∈ namesOf files ∨ WantedName languages r ∧ r = f.relative := by
      split_ifs with h
      · rw [namesOf_append, List.mem_append]
        refine or_congr_right ⟨fun hr => ?_, fun hr => by simp [namesOf, hr.2]⟩
        obtain rfl : r = f.relative := by simpa [namesOf] using hr
        exact ⟨h.1, rfl⟩
      · refine ⟨.inl, ?_⟩
        rintro (hr | ⟨hw, rfl⟩)
        · exact hr
        · exact not_not.mp fun hno => h ⟨hw, hno⟩
    rw [addFiles_cons, ih, hstep, or_assoc, ← and_or_left]
    simp [namesOf]

theorem nodup_namesOf_addFiles (h : (namesOf files).Nodup) :
    (namesOf (addFiles languages files more)).Nodup := by
  induction more generalizing files with
  | nil => exact h
  | cons f more ih =>
    rw [addFiles_cons]
    apply ih
    split_ifs with hnew
    · rw [namesOf_append]
      exact List.nodup_append.mpr ⟨h, by simp [namesOf], by
        rintro a ha b hb rfl
        obtain rfl : a = f.relative := by simpa [namesOf] using hb
        exact hnew.2 ha⟩
    · exact h

/-- Files of names that are there, or not wanted, add nothing. -/
theorem addFiles_of_known (h : ∀ r ∈ namesOf more, WantedName languages r → r ∈ namesOf files) :
    addFiles languages files more = files := by
  induction more with
  | nil => rfl
  | cons f more ih =>
    have hknown : ¬ (WantedName languages f.relative ∧ f.relative ∉ namesOf files) :=
      fun hnew => hnew.2 (h _ List.mem_cons_self hnew.1)
    rw [addFiles_cons, if_neg hknown]
    exact ih fun r hr => h r (List.mem_cons_of_mem _ hr)

/-! ## Collecting -/

/-- The files of a scope after one more walk. -/
def keep (languages : List Language) (cap : Option Nat) (files walk : List FoundFile) :
    List FoundFile :=
  addFiles languages files (capped (cap.map (· - files.length)) walk)

/-- A full scope stays as it is. -/
theorem foldl_keep_of_full (h : cap.map (· - files.length) = some 0)
    (walks : List (List FoundFile)) : walks.foldl (keep languages cap) files = files := by
  induction walks with
  | nil => rfl
  | cons walk walks ih =>
    have hkeep : keep languages cap files walk = files := by
      rw [keep, h]
      rfl
    rw [List.foldl_cons, hkeep, ih]

/-- With all the time, the roots of a scope are walked one after the other. -/
theorem collect_of_time {filter : FileFilter}
    (hf : FileFilter.ofTexts scope.walk.including scope.walk.excluding = .ok filter)
    (hroots : ∀ root ∈ roots, ∃ e, t.find true root.absolute = .ok e) :
    collect s t scope files .unbounded roots =
      .ok ((roots.map (found s t scope.walk)).foldl (keep scope.languages scope.walk.maxCount)
        files, .unbounded) := by
  induction roots generalizing files with
  | nil => rfl
  | cons root roots ih =>
    rw [collect]
    by_cases hfull : scope.walk.maxCount.map (· - files.length) = some 0
    · simp only [hfull, ↓reduceIte, foldl_keep_of_full hfull]
    · obtain ⟨e, hroot⟩ := hroots root List.mem_cons_self
      obtain ⟨e, he, hfiles, htime⟩ :=
        enumerate_of_time (s := s) hf hroot (scope.walk.maxCount.map (· - files.length))
      simp only [hfull, Deadline.expired_unbounded, Deadline.next_unbounded, he, ok_bind, htime,
        Bool.false_eq_true, ↓reduceIte, hfiles,
        ih fun root hroot => hroots root (List.mem_cons_of_mem _ hroot)]
      rfl

/-! ## Loading -/

theorem load_of_time (s : Sandbox) (t : FileTree) (maxBytes : Nat) (files : List FoundFile) :
    load s t maxBytes .unbounded files = files.filterMap fun f =>
      (t.loadText (s.root ++ f.relative) maxBytes).map (f, ·) := by
  induction files with
  | nil => rfl
  | cons f files ih =>
    rw [load, if_neg (by decide), Deadline.next_unbounded, ih, List.filterMap_cons]
    cases t.loadText (s.root ++ f.relative) maxBytes <;> rfl

/-- Loading adds no files. -/
theorem map_fst_load_sublist (s : Sandbox) (t : FileTree) (maxBytes : Nat) (d : Deadline)
    (files : List FoundFile) : ((load s t maxBytes d files).map Prod.fst).Sublist files := by
  fun_induction load s t maxBytes d files with
  | case1 => exact List.Sublist.refl _
  | case2 => exact List.nil_sublist _
  | case3 d f rest _ ih =>
    rw [List.map_append]
    cases t.loadText (s.root ++ f.relative) maxBytes with
    | none => exact ih.cons f
    | some text => exact ih.cons_cons f

/-- Under a cap no walk is cut before a wanted file of a new name. The wanted files of the walks
before it, `kept`, count against the cap. -/
def Uncut (languages : List Language) (cap : Option Nat) (kept : List FoundFile) :
    List (List FoundFile) → Prop
  | [] => True
  | walk :: walks =>
    (∀ n, cap = some n → ∀ r ∈ namesOf (walk.drop (n - kept.length)), WantedName languages r →
      r ∈ namesOf kept) ∧ Uncut languages cap (addFiles languages kept walk) walks

theorem keep_of_uncut (h : ∀ n, cap = some n → ∀ r ∈ namesOf (walk.drop (n - files.length)),
    WantedName languages r → r ∈ namesOf files) :
    keep languages cap files walk = addFiles languages files walk := by
  cases cap with
  | none => rfl
  | some n =>
    calc addFiles languages files (walk.take (n - files.length))
        = addFiles languages (addFiles languages files (walk.take (n - files.length)))
            (walk.drop (n - files.length)) :=
          (addFiles_of_known fun r hr hw => mem_namesOf_addFiles.mpr (.inl (h n rfl r hr hw))).symm
      _ = addFiles languages files walk := by rw [← addFiles_append, List.take_append_drop]

theorem length_addFiles_le (languages : List Language) (files more : List FoundFile) :
    (addFiles languages files more).length ≤ files.length + more.length := by
  induction more generalizing files with
  | nil => exact Nat.le_refl _
  | cons f more ih =>
    rw [addFiles_cons, List.length_cons]
    refine (ih _).trans ?_
    split_ifs
    · rw [List.length_append, List.length_singleton]
      omega
    · omega

/-- The walks of a scope are not cut just if after each of them its wanted files are there. -/
theorem uncut_iff (hwalks : ∀ walk ∈ walks, (namesOf walk).Nodup) :
    Uncut languages cap files walks ↔ ∀ before walk, before ++ [walk] <+: walks →
      ∀ r ∈ namesOf walk, WantedName languages r →
        r ∈ namesOf ((before ++ [walk]).foldl (keep languages cap) files) := by
  induction walks generalizing files with
  | nil => simp [Uncut]
  | cons walk walks ih =>
    have hnodup : (namesOf walk).Nodup := hwalks walk List.mem_cons_self
    have ih' (files : List FoundFile) : Uncut languages cap files walks ↔ _ :=
      ih fun walk hwalk => hwalks walk (List.mem_cons_of_mem _ hwalk)
    constructor
    · rintro ⟨hwalk, hrest⟩ before last hpre r hr hw
      cases before with
      | nil =>
        obtain ⟨rfl, -⟩ := List.cons_prefix_cons.mp hpre
        rw [List.nil_append, List.foldl_cons, List.foldl_nil, keep_of_uncut hwalk]
        exact mem_namesOf_addFiles.mpr (.inr ⟨hw, hr⟩)
      | cons first before =>
        rw [List.cons_append] at hpre
        obtain ⟨rfl, hbefore⟩ := List.cons_prefix_cons.mp hpre
        rw [List.cons_append, List.foldl_cons, keep_of_uncut hwalk]
        exact (ih' _).mp hrest before last hbefore r hr hw
    · intro h
      -- a wanted name behind the cut is there after the first walk, so it was there before
      have hwalk : ∀ n, cap = some n → ∀ r ∈ namesOf (walk.drop (n - files.length)),
          WantedName languages r → r ∈ namesOf files := by
        rintro n rfl r hr hw
        have hthere := h [] walk (by simp) r (List.map_subset _ (List.drop_subset _ _) hr) hw
        refine (mem_namesOf_addFiles.mp hthere).resolve_right fun htaken => ?_
        -- a walk finds no name twice
        rw [← List.take_append_drop (n - files.length) walk, namesOf_append] at hnodup
        exact List.disjoint_of_nodup_append hnodup htaken.2 hr
      refine ⟨hwalk, (ih' _).mpr fun before last hpre r hr hw => ?_⟩
      have hthere := h (walk :: before) last (List.cons_prefix_cons.mpr ⟨rfl, hpre⟩) r hr hw
      rwa [List.cons_append, List.foldl_cons, keep_of_uncut hwalk] at hthere

/-- With all the time, a rebuild loads what its walks leave under the cap. -/
theorem scan_of_time {filter : FileFilter}
    (hf : FileFilter.ofTexts scope.walk.including scope.walk.excluding = .ok filter)
    (hroots : ∀ root ∈ scope.roots, ∃ e, t.find true root.absolute = .ok e) :
    scan s t scope .unbounded = .ok (load s t scope.maxFileBytes .unbounded
      ((scope.roots.map (found s t scope.walk)).foldl
        (keep scope.languages scope.walk.maxCount) [])) := by
  rw [scan, collect_of_time hf hroots, ok_bind]
  rfl

end Worksite.Index
