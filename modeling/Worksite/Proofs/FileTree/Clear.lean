import Worksite.Proofs.FileTree.Passing

/-!
Clear ways: where nothing but directories stands on the way, names lead to themselves, and what is
missing can be made.
-/
namespace Worksite.FileTree

variable {t : FileTree} {l p q d : Location} {last : Bool} {names rest : List String} {n : Nat}
  {s x : String} {e : Entry}

/-- All that stands at a location or on the way to it is directories. -/
def Clear (t : FileTree) (l : Location) : Prop :=
  ∀ q, q <+: l → ∀ e, t.entry? q = some e → e = .directory

theorem Clear.of_prefix (h : t.Clear l) (hp : p <+: l) : t.Clear p :=
  fun q hq => h q (hq.trans hp)

theorem Canonical.clear (h : t.Canonical l) (hd : t.isDirectory l) : t.Clear l := by
  intro q hq e he
  by_cases hql : q = l
  · exact Option.some.inj (he.symm.trans (hql ▸ isDirectory_iff.mp hd))
  · exact Option.some.inj (he.symm.trans (isDirectory_iff.mp (h.above q hq hql)))

/-- Nothing stands on the way below a name that a directory does not hold. -/
theorem clear_below_missing (hc : t.Closed) (h : t.Canonical d) (hd : t.isDirectory d)
    (ha : t.entry? (d ++ [s]) = none) (hp : d ++ [s] <+: p) : t.Clear p := by
  intro q hq e he
  rcases List.prefix_or_prefix_of_prefix hq hp with hqs | hsq
  · rcases List.prefix_concat_iff.mp hqs with rfl | hqd
    · simp [ha] at he
    · exact h.clear hd q hqd e he
  · simp [hc.absent_of_absent ha hsq] at he

theorem course_of_clear (last : Bool) (hd : t.isDirectory l)
    (hn : ∀ s ∈ names, Path.IsName s ∧ s.utf8ByteSize ≤ maxName) (h : t.Clear (l ++ names)) :
    t.course last l names = .arrived (l ++ names) ∧ t.isDirectory (l ++ names) ∨
      t.course last l names = .refused .noEntry := by
  induction names generalizing l with
  | nil => exact .inl ⟨by simp [course], by simpa using hd⟩
  | cons s rest ih =>
    obtain ⟨hs, hlen⟩ := hn s List.mem_cons_self
    have hls : l ++ s :: rest = l ++ [s] ++ rest := by simp
    rw [hls] at h ⊢
    rw [course_cons last rest hd hs hlen]
    cases he : t.entry? (l ++ [s]) with
    | none => exact .inr rfl
    | some e =>
      obtain rfl := h _ (List.prefix_append _ _) e he
      exact ih (isDirectory_iff.mpr he) (fun x hx => hn x (List.mem_cons_of_mem _ hx)) h

theorem follow_of_clear (last : Bool) (n : Nat)
    (hn : ∀ s ∈ l, Path.IsName s ∧ s.utf8ByteSize ≤ maxName) (h : t.Clear l) :
    t.follow last n [] l = .ok l ∧ t.isDirectory l ∨ t.follow last n [] l = .error .noEntry := by
  rw [follow]
  rcases course_of_clear (t := t) (l := []) last rfl hn h with ⟨hc, hd⟩ | hc
  · exact .inl ⟨by rw [hc]; rfl, hd⟩
  · exact .inr (by rw [hc])

theorem straight_of_clear (hn : ∀ s ∈ l, Path.IsName s ∧ s.utf8ByteSize ≤ maxName)
    (h : t.Clear l) : t.Straight l := by
  intro q hq d hd
  have hn' := fun s hs => hn s (hq.subset hs)
  rcases follow_of_clear true maxLinks hn' (h.of_prefix hq) with ⟨hf, -⟩ | hf
  · exact (Except.ok.inj (hf.symm.trans hd)).symm
  · simp [hf] at hd

/-- An entry of a canonical directory is found under its own name, a link as itself. -/
theorem follow_entry (h : t.Canonical d) (hd : t.isDirectory d) (hx : Path.IsName x)
    (hlen : x.utf8ByteSize ≤ maxName) (he : t.entry? (d ++ [x]) = some e) :
    t.follow false n [] (d ++ [x]) = .ok (d ++ [x]) := by
  have hstart : t.follow false n [] (d ++ [x]) = t.follow false n ([] ++ d) [x] :=
    follow_of_canonical h [x]
  rw [hstart, List.nil_append, follow]
  have hcourse : t.course false d [x] = .arrived (d ++ [x]) := by
    rw [course_cons false [] hd hx hlen, he]
    cases e <;> simp [course]
  rw [hcourse]

/-! ## Making what is missing -/

theorem checkPath_above (h : checkPath l = .ok ()) (hq : q <+: l) :
    checkPath q = .ok () := by
  have hnul := contains_nul_of_checkPath h
  have hsize := Location.utf8ByteSize_relativeText_le hq
  unfold checkPath at h ⊢
  split_ifs at h with h₁ h₂
  rw [if_neg, if_neg]
  · simp only [Location.absoluteText, String.utf8ByteSize_append] at h₂ ⊢
    unfold Location.relativeText at hsize
    omega
  · intro hany
    obtain ⟨s, hs, hc⟩ := List.any_eq_true.mp hany
    simp [hnul s (hq.subset hs)] at hc

/-- Where nothing but directories is in the way and nothing is too long, the directories are
made. -/
theorem makeDirectories_of_clear (names : List String) (hc : t.Closed)
    (hn : ∀ s ∈ names.reverse, Path.IsName s ∧ s.utf8ByteSize ≤ maxName)
    (hp : checkPath names.reverse = .ok ()) (h : t.Clear names.reverse) :
    (t.makeDirectories names).1 = .ok () := by
  induction names with
  | nil => rfl
  | cons s above ih =>
    simp only [List.reverse_cons] at hn hp h
    have hpre : above.reverse <+: above.reverse ++ [s] := List.prefix_append _ _
    have hn' : ∀ s ∈ above.reverse, Path.IsName s ∧ s.utf8ByteSize ≤ maxName :=
      fun s hs => hn s (hpre.subset hs)
    have hlen := (hn s (by simp)).2
    rw [makeDirectories]
    simp only [List.reverse_cons]
    rcases follow_of_clear true maxLinks hn' (h.of_prefix hpre) with ⟨hf, hd⟩ | hf
    · -- the directory above is there
      have hcan := canonical_of_follow (canonical_nil t) hf
      rw [makeDirectory_concat hcan hd hp, if_neg (by omega)]
      by_cases he : t.entry? (above.reverse ++ [s]) = none
      · simp [he]
      · obtain ⟨e, he'⟩ := Option.ne_none_iff_exists'.mp he
        obtain rfl := h _ (List.prefix_refl _) e he'
        have hcan' := hcan.concat hd (hn s (by simp)).1 hlen ⟨_, he', by simp⟩
        have hleads := hcan'.straight.leadsToDirectory_iff.mpr
          ⟨hp, hcan', isDirectory_iff.mpr he'⟩
        simp [he, hleads]
    · -- it is missing, and made first
      have hmake : t.makeDirectory (above.reverse ++ [s]) = .error .noEntry := by
        simp [makeDirectory, seat, hp, hf]
      have hok := ih hn' (checkPath_above hp hpre) (h.of_prefix hpre)
      have hmade := made_makeDirectories above hc (straight_of_clear hn' (h.of_prefix hpre))
        fun x hx => (hn' x (List.mem_reverse.mpr hx)).1
      rw [hmake]
      rcases hr : t.makeDirectories above with ⟨e | ⟨⟨⟩⟩, t₁⟩
      · simp [hr] at hok
      · rw [hr] at hmade
        obtain ⟨-, hcan, hdir⟩ := hmade.there rfl
        have habsent : t₁.entry? (above.reverse ++ [s]) = none :=
          hmade.grows.entry?_below hc hcan (makeDirectory_eq_noEntry hmake).2
        simp [makeDirectory_concat hcan hdir hp, habsent, Nat.not_lt.mpr hlen]

end Worksite.FileTree
