import Worksite.Proofs.FileTree.Straight

/-!
Ways that are kept. A tree in which all directories of another are directories, and all links that
lead somewhere are the same, leads to whatever is there by the names that led to it.
-/
namespace Worksite.FileTree

variable {t t' : FileTree} {l d here : Location} {names rest : List String} {s target : String}
  {last : Bool} {n : Nat}

/-- A tree keeps the ways of another, but for a link at `l` that leads nowhere. -/
structure KeepsWays (t : FileTree) (l : Location) (t' : FileTree) : Prop where
  directory : ∀ x, t.isDirectory x → t'.isDirectory x
  link : ∀ x target, x ≠ l → t.entry? x = some (.link target) → t'.entry? x = some (.link target)
  names : ∀ s ∈ l, Path.IsName s ∧ s.utf8ByteSize ≤ maxName
  dead : ∀ target, t.entry? l = some (.link target) → ∃ e, t.follow true maxLinks [] l = .error e

/-- Behind what is no directory a course goes no further. -/
theorem course_of_end (hd : ¬ t.isDirectory here) :
    names = [] ∨ ∃ e, t.course true here names = .refused e := by
  cases names with
  | nil => exact .inl rfl
  | cons s names => exact .inr ⟨.notDirectory, by rw [course, if_pos (by simp [hd])]⟩

/-- What is arrived at is arrived at again, and what a course is led by leads it again. -/
theorem KeepsWays.course (h : t.KeepsWays l t') (here : Location) (names : List String) :
    (∀ d, t.course true here names = .arrived d → t'.Canonical d →
      t'.course true here names = .arrived d) ∧
    ∀ d target rest, t.course true here names = .led d target rest →
      t'.course true here names = .led d target rest ∨
        ∃ s, d ++ [s] = l ∧ t.entry? l = some (.link target) := by
  induction names generalizing here with
  | nil => exact ⟨fun d hc _ => hc, fun d target rest hc => by cases hc⟩
  | cons s names ih =>
    by_cases hdir : t.isDirectory here
    · have hdir' := h.directory here hdir
      simp only [FileTree.course, hdir, hdir', Bool.not_true, Bool.false_eq_true, ↓reduceIte,
        Bool.and_false]
      split_ifs
      · exact ih here
      · exact ih here.dropLast
      · exact ⟨by simp, by simp⟩
      · cases he : t.entry? (here ++ [s]) with
        | none => exact ⟨by simp, by simp⟩
        | some e =>
          cases e with
          | link target =>
            by_cases hl : here ++ [s] = l
            · refine ⟨by simp, fun d target' rest hc => .inr ⟨s, ?_⟩⟩
              obtain ⟨rfl, rfl, -⟩ := Course.led.inj hc
              exact ⟨hl, hl ▸ he⟩
            · rw [h.link _ _ hl he]
              exact ⟨by simp, fun d target' rest hc => .inl hc⟩
          | directory =>
            rw [isDirectory_iff.mp (h.directory _ (isDirectory_iff.mpr he))]
            exact ih (here ++ [s])
          | file | socket =>
            have hend : ¬ t.isDirectory (here ++ [s]) := by simp [isDirectory_iff, he]
            have hstop : names = [] ∨ ∃ e, t.course true (here ++ [s]) names = .refused e :=
              course_of_end hend
            obtain rfl | ⟨e, hrefused⟩ := hstop
            · refine ⟨fun d hc hd => ?_, fun d target rest hc => by cases hc⟩
              obtain rfl := Course.arrived.inj hc
              obtain ⟨e, he', hlink⟩ := hd.here
              rw [he']
              cases e with
              | link target => exact absurd rfl (hlink target)
              | file | directory | socket => rfl
            · simp [hrefused]
    · simp [FileTree.course, hdir]

/-- A link that leads nowhere is on the way to nothing. -/
theorem ne_of_follow {e : SystemError} {x : Location} (hc : t.Canonical d) (hd : t.isDirectory d)
    (hs : Path.IsName s) (hlen : s.utf8ByteSize ≤ maxName)
    (he : t.entry? (d ++ [s]) = some (.link target))
    (hdead : t.follow true maxLinks [] (d ++ [s]) = .error e) (hn : n < maxLinks) :
    t.follow true n (if Path.isAbsolute target then [] else d) (Path.segments target ++ rest) ≠
      .ok x := by
  intro hf
  have hmore : n ≤ maxLinks - 1 := by omega
  rw [← follow_mono hmore (by simp [hf])] at hf
  have hstart : t.follow true maxLinks [] (d ++ [s]) = t.follow true maxLinks ([] ++ d) [s] :=
    follow_of_canonical hc [s]
  have hcourse : t.course true d [s] = .led d target [] := by
    rw [course_cons true [] hd hs hlen, he]
    rfl
  have hlinks : maxLinks = maxLinks - 1 + 1 := rfl
  rw [hstart, List.nil_append, hlinks, FileTree.follow, hcourse] at hdead
  simp only [List.append_nil] at hdead
  by_cases hrest : rest = []
  · rw [hrest, List.append_nil, hdead] at hf
    cases hf
  · rw [follow_append_of_error hrest hdead] at hf
    cases hf

/-- Names lead somewhere by a course that arrives there or by a link that leads on. -/
theorem follow_eq_ok : t.follow last n here names = .ok d ↔
    t.course last here names = .arrived d ∨ ∃ m x target rest, n = m + 1 ∧
      t.course last here names = .led x target rest ∧
      t.follow last m (if Path.isAbsolute target then [] else x)
        (Path.segments target ++ rest) = .ok d := by
  cases n <;> rw [FileTree.follow] <;> cases t.course last here names <;> simp

/-- What names lead to is led to again. -/
theorem KeepsWays.follow (h : t.KeepsWays l t') (hn : n ≤ maxLinks) (hc : t.Canonical here)
    (hf : t.follow true n here names = .ok d) (hd : t'.Canonical d) :
    t'.follow true n here names = .ok d := by
  -- on the links that may be followed
  induction n using Nat.strong_induction_on generalizing here names with
  | h n ih =>
    rcases follow_eq_ok.mp hf with harrived | ⟨m, x, target, rest, rfl, hled, hrest⟩
    · exact follow_eq_ok.mpr (.inl ((h.course here names).1 d harrived hd))
    · obtain ⟨hx, hdir⟩ := canonical_of_led hc hled
      rcases (h.course here names).2 x target rest hled with hled' | ⟨s, rfl, he⟩
      · have hagain := ih m (by omega) (by omega) (canonical_start target hx) hrest
        exact follow_eq_ok.mpr (.inr ⟨m, x, target, rest, rfl, hled', hagain⟩)
      · obtain ⟨e, hdead⟩ := h.dead target he
        obtain ⟨hs, hlen⟩ := h.names s (by simp)
        exact absurd hrest (ne_of_follow hx hdir hs hlen he hdead (by omega))

end Worksite.FileTree
