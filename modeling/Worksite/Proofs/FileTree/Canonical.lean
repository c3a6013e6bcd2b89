import Worksite.Proofs.Path
import Worksite.Proofs.FileTree.Entry

/-!
Canonical locations, which are reached through directories alone. Following links from a canonical
location arrives at one, and the names of a canonical location lead nowhere else.
-/
namespace Worksite.FileTree

variable {t t' : FileTree} {l l' d : Location} {s target : String} {last : Bool} {n m : Nat}
  {names a b rest : List String} {e : SystemError}

/-- A location whose names pass only directories and end at no link. -/
structure Canonical (t : FileTree) (l : Location) : Prop where
  names : ∀ s ∈ l, Path.IsName s ∧ s.utf8ByteSize ≤ maxName
  above : ∀ q, q <+: l → q ≠ l → t.isDirectory q
  here : ∃ e, t.entry? l = some e ∧ ∀ target, e ≠ .link target

theorem canonical_nil (t : FileTree) : t.Canonical [] where
  names := by simp
  above q hq hne := absurd (List.prefix_nil.mp hq) hne
  here := ⟨.directory, rfl, by simp⟩

theorem Canonical.isName (h : t.Canonical l) : ∀ s ∈ l, Path.IsName s :=
  fun s hs => (h.names s hs).1

theorem Canonical.entry?_ne_link (h : t.Canonical l) (target : String) :
    t.entry? l ≠ some (.link target) := by
  intro hl
  obtain ⟨e, he, hlink⟩ := h.here
  exact hlink target (Option.some.inj (he.symm.trans hl))

theorem Canonical.of_prefix (h : t.Canonical l) (hq : d <+: l) : t.Canonical d := by
  by_cases hne : d = l
  · exact hne ▸ h
  · refine ⟨fun s hs => h.names s (hq.subset hs), fun q hqd hqne => ?_, ?_⟩
    · apply h.above q (hqd.trans hq)
      rintro rfl
      exact hqne (hqd.eq_of_length_le hq.length_le)
    · exact ⟨.directory, isDirectory_iff.mp (h.above d hq hne), by simp⟩

theorem Canonical.dropLast (h : t.Canonical l) : t.Canonical l.dropLast :=
  h.of_prefix (List.dropLast_prefix l)

theorem Canonical.concat (h : t.Canonical l) (hd : t.isDirectory l) (hs : Path.IsName s)
    (hlen : s.utf8ByteSize ≤ maxName) (he : ∃ e, t.entry? (l ++ [s]) = some e ∧
      ∀ target, e ≠ .link target) : t.Canonical (l ++ [s]) := by
  refine ⟨fun n hn => ?_, fun q hq hne => ?_, he⟩
  · rcases List.mem_append.mp hn with hn | hn
    · exact h.names n hn
    · exact List.mem_singleton.mp hn ▸ ⟨hs, hlen⟩
  · rcases List.prefix_concat_iff.mp hq with hq | hq
    · exact absurd hq hne
    · by_cases hql : q = l
      · exact hql ▸ hd
      · exact h.above q hq hql

/-- Only the entries on the way count. -/
theorem Canonical.congr (h : t.Canonical l) (hsame : ∀ q, q <+: l → t'.entry? q = t.entry? q) :
    t'.Canonical l := by
  refine ⟨h.names, fun q hq hne => ?_, ?_⟩
  · rw [isDirectory_iff, hsame q hq]
    exact isDirectory_iff.mp (h.above q hq hne)
  · rw [hsame l (List.prefix_refl l)]
    exact h.here

/-! ## One course -/

theorem canonical_of_arrived (h : t.Canonical l) (hc : t.course true l names = .arrived l') :
    t.Canonical l' := by
  fun_induction course t true l names with
  | case1 l =>
    simp only [Course.arrived.injEq] at hc
    exact hc ▸ h
  | case2 => simp at hc
  | case3 l s rest _ _ ih => exact ih h hc
  | case4 l rest _ _ ih => exact ih h.dropLast hc
  | case5 => simp at hc
  | case6 => simp at hc
  | case7 l s rest hd hs _ hlen target he hlast => simp at hlast
  | case8 => simp at hc
  | case9 l s rest hd hs hdots hlen e hlink he ih =>
    refine ih (h.concat (by simpa using hd) ?_ (by omega) ⟨e, he, ?_⟩) hc
    · simp only [Bool.or_eq_true, decide_eq_true_eq, not_or] at hs
      exact ⟨hs.1, hs.2, hdots⟩
    · rintro target rfl
      exact hlink target rfl

theorem canonical_of_led (h : t.Canonical l) (hc : t.course last l names = .led d target rest) :
    t.Canonical d ∧ t.isDirectory d := by
  fun_induction course t last l names with
  | case1 => simp at hc
  | case2 => simp at hc
  | case3 l s names _ _ ih => exact ih h hc
  | case4 l names _ _ ih => exact ih h.dropLast hc
  | case5 => simp at hc
  | case6 => simp at hc
  | case7 => simp at hc
  | case8 l s names hd =>
    simp only [Course.led.injEq] at hc
    exact hc.1 ▸ ⟨h, by simpa using hd⟩
  | case9 l s names hd hs hdots hlen e hlink he ih =>
    refine ih (h.concat (by simpa using hd) ?_ (by omega) ⟨e, he, ?_⟩) hc
    · simp only [Bool.or_eq_true, decide_eq_true_eq, not_or] at hs
      exact ⟨hs.1, hs.2, hdots⟩
    · rintro target rfl
      exact hlink target rfl

/-- A name is walked by what stands under it. -/
theorem course_cons (last : Bool) (rest : List String) (hd : t.isDirectory l)
    (hs : Path.IsName s) (hlen : s.utf8ByteSize ≤ maxName) : t.course last l (s :: rest) =
      match t.entry? (l ++ [s]) with
      | none => .refused .noEntry
      | some (.link target) =>
        if rest.isEmpty && !last then .arrived (l ++ [s]) else .led l target rest
      | some _ => t.course last (l ++ [s]) rest := by
  have hstay : ¬ (s = "" || s = ".") = true := by simp [hs.1, hs.2.1]
  rewrite [course, if_neg (by simp [hd]), if_neg hstay, if_neg hs.2.2,
    if_neg (Nat.not_lt.mpr hlen)]
  cases he : t.entry? (l ++ [s]) with
  | none => simp only
  | some e => cases e <;> simp only

/-- Names that stay canonical are walked one by one. -/
theorem course_of_canonical (h : t.Canonical (l ++ a)) (b : List String) :
    t.course last l (a ++ b) = t.course last (l ++ a) b := by
  induction a generalizing l with
  | nil => simp
  | cons s a ih =>
    have hd : t.isDirectory l := h.above l (List.prefix_append _ _) (by simp)
    have hs := h.names s (by simp)
    have hl : l ++ s :: a = l ++ [s] ++ a := by simp
    obtain ⟨e, he, hlink⟩ := (h.of_prefix (d := l ++ [s]) (hl ▸ List.prefix_append _ _)).here
    rw [hl] at h ⊢
    rw [← ih h, List.cons_append, course_cons last (a ++ b) hd hs.1 hs.2, he]
    cases e with
    | link target => exact absurd rfl (hlink target)
    | file | directory | socket => rfl

/-- Names behind others are walked from where those arrive. -/
theorem course_append (hb : b ≠ []) : t.course last l (a ++ b) =
    match t.course true l a with
    | .arrived l' => t.course last l' b
    | .led d target rest => .led d target (rest ++ b)
    | .refused e => .refused e := by
  induction a generalizing l with
  | nil => simp [course]
  | cons s a ih =>
    have hab : (a ++ b).isEmpty = false := by simp [hb]
    rw [List.cons_append, course, course]
    -- with names behind it no link is the last
    simp only [hab, Bool.false_and, Bool.not_true, Bool.and_false, Bool.false_eq_true, ↓reduceIte]
    split_ifs
    · rfl
    · exact ih
    · exact ih
    · rfl
    · rcases t.entry? (l ++ [s]) with - | e
      · rfl
      · cases e with
        | link target => rfl
        | file | directory | socket => exact ih

/-! ## Following links -/

theorem follow_congr_course {m : Location} {names' : List String}
    (h : t.course last l names = t.course last m names') :
    t.follow last n l names = t.follow last n m names' := by
  rw [follow, follow, h]

theorem canonical_start (target : String) (h : t.Canonical d) :
    t.Canonical (if Path.isAbsolute target then [] else d) := by
  split_ifs
  · exact canonical_nil t
  · exact h

theorem canonical_of_follow (h : t.Canonical l) (hf : t.follow true n l names = .ok l') :
    t.Canonical l' := by
  induction n generalizing l names with
  | zero =>
    rw [follow] at hf
    split at hf
    · next l'' hc =>
      simp only [Except.ok.injEq] at hf
      exact hf ▸ canonical_of_arrived h hc
    · simp at hf
    · simp at hf
  | succ n ih =>
    rw [follow] at hf
    split at hf
    · next l'' hc =>
      simp only [Except.ok.injEq] at hf
      exact hf ▸ canonical_of_arrived h hc
    · simp at hf
    · next d target rest hc => exact ih (canonical_start target (canonical_of_led h hc).1) hf

theorem follow_of_canonical (h : t.Canonical (l ++ a)) (b : List String) :
    t.follow last n l (a ++ b) = t.follow last n (l ++ a) b := by
  rw [follow, follow, course_of_canonical h]

/-- A canonical location leads to itself. -/
theorem follow_canonical (h : t.Canonical l) : t.follow last n [] l = .ok l := by
  have hc : t.follow last n [] (l ++ []) = t.follow last n ([] ++ l) [] := follow_of_canonical h []
  rw [List.append_nil, List.nil_append] at hc
  rw [hc, follow, course]

/-- Where a path leads, as it is written. -/
theorem follow_of_canonicalText {here : Location} {path : String}
    (h : t.canonicalText here path = .ok l) :
    t.follow true maxLinks (if Path.isAbsolute path then [] else here) (Path.segments path) =
      .ok l := by
  unfold canonicalText at h
  by_cases hempty : path = ""
  · simp [hempty] at h
  · rw [if_neg hempty] at h
    by_cases hnul : path.contains '\x00' = true
    · simp [hnul] at h
    · rwa [if_neg hnul] at h

theorem follow_append_of_error (hb : b ≠ []) (h : t.follow true n l a = .error e) :
    t.follow last n l (a ++ b) = .error e := by
  induction n generalizing l a with
  | zero =>
    rw [follow] at h ⊢
    rw [course_append hb]
    cases hc : t.course true l a with
    | arrived => simp [hc] at h
    | refused => simpa [hc] using h
    | led => simpa [hc] using h
  | succ n ih =>
    rw [follow] at h ⊢
    rw [course_append hb]
    cases hc : t.course true l a with
    | arrived => simp [hc] at h
    | refused => simpa [hc] using h
    | led d target rest =>
      simp only [hc] at h ⊢
      rw [← List.append_assoc]
      exact ih h

/-- Names behind others start with the links that are left. -/
theorem follow_append_of_ok (hb : b ≠ []) (h : t.follow true n l a = .ok l') :
    ∃ k ≤ n, t.follow last n l (a ++ b) = t.follow last k l' b := by
  -- on the links that may be followed; those left in the end are what the names behind start with
  induction n generalizing l a with
  | zero =>
    rw [follow] at h
    refine ⟨0, le_rfl, ?_⟩
    cases hc : t.course true l a with
    | arrived l'' =>
      simp only [hc, Except.ok.injEq] at h
      rw [follow, follow, course_append hb, hc, h]
    | refused => simp [hc] at h
    | led => simp [hc] at h
  | succ n ih =>
    rw [follow] at h
    cases hc : t.course true l a with
    | arrived l'' =>
      simp only [hc, Except.ok.injEq] at h
      refine ⟨n + 1, le_rfl, ?_⟩
      rw [follow, follow, course_append hb, hc, h]
    | refused => simp [hc] at h
    | led d target rest =>
      simp only [hc] at h
      obtain ⟨k, hk, heq⟩ := ih h
      refine ⟨k, by omega, ?_⟩
      rw [follow, course_append hb, hc, ← heq, List.append_assoc]

/-- More links to follow change nothing once they suffice. -/
theorem follow_mono (hnm : n ≤ m) (h : t.follow last n l names ≠ .error .tooManyLinks) :
    t.follow last m l names = t.follow last n l names := by
  induction n generalizing l names m with
  | zero =>
    rw [follow] at h
    rw [follow, follow]
    cases hc : t.course last l names with
    | arrived => rfl
    | refused => rfl
    | led => simp [hc] at h
  | succ n ih =>
    obtain ⟨m, rfl⟩ : ∃ k, m = k + 1 := ⟨m - 1, by omega⟩
    rw [follow] at h
    rw [follow, follow]
    cases hc : t.course last l names with
    | arrived => rfl
    | refused => rfl
    | led d target rest =>
      simp only [hc] at h
      exact ih (by omega) h

end Worksite.FileTree
