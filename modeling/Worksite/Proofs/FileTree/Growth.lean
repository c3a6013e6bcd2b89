import Worksite.Proofs.FileTree.Straight

/-!
Making the directories of a location. A tree grows along the location, one missing directory after
the other, and nothing else changes; where it stops after a directory was made, a name or the whole
path is too long.
-/
namespace Worksite.FileTree

variable {t t₁ t' t'' : FileTree} {l l' x p : Location} {s : String} {e : SystemError}

/-- Directories were made along a location, from above. -/
inductive Grows (t : FileTree) (l : Location) : FileTree → Prop where
  | refl : Grows t l t
  | make {t' : FileTree} {p : Location} {s : String} (before : Grows t l t') (way : p ++ [s] <+: l)
      (canonical : t'.Canonical p) (directory : t'.isDirectory p)
      (short : s.utf8ByteSize ≤ maxName) (absent : t'.entry? (p ++ [s]) = none) :
      Grows t l (t'.put (p ++ [s]) .directory)

theorem Grows.trans (h : t.Grows l t') (h' : t'.Grows l t'') : t.Grows l t'' := by
  induction h' with
  | refl => exact h
  | make _ way canonical directory short absent ih =>
    exact ih.make way canonical directory short absent

theorem Grows.mono (h : t.Grows l t') (hl : l <+: l') : t.Grows l' t' := by
  induction h with
  | refl => exact .refl
  | make _ way canonical directory short absent ih =>
    exact ih.make (way.trans hl) canonical directory short absent

theorem Grows.entry? (h : t.Grows l t') (x : Location) : t'.entry? x = t.entry? x ∨
    x <+: l ∧ t.entry? x = none ∧ t'.entry? x = some .directory := by
  induction h with
  | refl => exact .inl rfl
  | @make t' p s _ way _ _ _ absent ih =>
    by_cases hx : x = p ++ [s]
    · subst hx
      refine .inr ⟨way, ?_, entry?_put_self (by simp)⟩
      rcases ih with ih | ⟨-, ih, -⟩
      · exact ih ▸ absent
      · exact ih
    · rw [entry?_put_of_ne hx]
      exact ih

theorem Grows.entry?_of_ne_none (h : t.Grows l t') (hx : t.entry? x ≠ none) :
    t'.entry? x = t.entry? x :=
  (h.entry? x).resolve_right fun hn => hx hn.2.1

theorem Grows.entry?_of_not_prefix (h : t.Grows l t') (hx : ¬ x <+: l) :
    t'.entry? x = t.entry? x :=
  (h.entry? x).resolve_right fun hn => hx hn.1

theorem Grows.canonical (h : t.Grows l t') (hc : t.Canonical x) : t'.Canonical x := by
  refine hc.congr fun q hq => h.entry?_of_ne_none ?_
  obtain ⟨e, he, -⟩ := (hc.of_prefix hq).here
  simp [he]

theorem Grows.isDirectory (h : t.Grows l t') (hd : t.isDirectory x) : t'.isDirectory x := by
  rw [isDirectory_iff] at hd ⊢
  rw [h.entry?_of_ne_none (by simp [hd]), hd]

theorem Grows.closed (h : t.Grows l t') (hc : t.Closed) : t'.Closed := by
  induction h with
  | refl => exact hc
  | make _ _ _ directory _ absent ih =>
    exact ih.put (by simpa using directory) (by simp [isDirectory_iff, absent])

theorem Grows.straight (h : t.Grows l t') (hc : t.Closed) (hs : t.Straight l')
    (hn : ∀ x ∈ l', Path.IsName x) (hl : l <+: l') : t'.Straight l' := by
  induction h with
  | refl => exact hs
  | make before way canonical directory short absent ih =>
    exact Straight.put (before.closed hc) canonical directory short absent hn (way.trans hl)

/-- What stands in a closed tree behind short names, and is no link, is canonical. -/
theorem Closed.canonical (h : t.Closed) (hn : ∀ s ∈ l, Path.IsName s ∧ s.utf8ByteSize ≤ maxName)
    (he : ∃ e, t.entry? l = some e ∧ ∀ target, e ≠ .link target) : t.Canonical l where
  names := hn
  above q hq hne := by
    obtain ⟨e, he, -⟩ := he
    exact h.isDirectory_of_prefix (by simp [he]) hq hne
  here := he

/-- Nothing stands below a directory that was missing until it was made. -/
theorem Grows.entry?_below (h : t.Grows l t') (hc : t.Closed) (hl : t'.Canonical l)
    (hmissing : ¬ (t.Canonical l ∧ t.isDirectory l)) : t'.entry? (l ++ [s]) = none := by
  rw [h.entry?_of_not_prefix fun hpre => absurd hpre.length_le (by simp)]
  by_contra he
  have hd := closed_iff.mp hc _ (by simp) he
  rw [List.dropLast_concat] at hd
  exact hmissing ⟨hc.canonical hl.names ⟨_, isDirectory_iff.mp hd, by simp⟩, hd⟩

/-! ## Making directories -/

theorem Straight.leadsToDirectory_iff (h : t.Straight l) :
    t.leadsToDirectory l ↔ checkPath l = .ok () ∧ t.Canonical l ∧ t.isDirectory l := by
  rw [leadsToDirectory_eq, isDirectory_iff]
  exact ⟨h.find_eq_ok, fun ⟨hp, hc, hd⟩ => hc.find hp hd⟩

/-- A directory is made where nothing stood, in a directory. -/
theorem makeDirectory_eq_ok (h : t.Straight p) (hm : t.makeDirectory (p ++ [s]) = .ok t') :
    t.Canonical p ∧ t.isDirectory p ∧ s.utf8ByteSize ≤ maxName ∧ checkPath (p ++ [s]) = .ok () ∧
      t.entry? (p ++ [s]) = none ∧ t' = t.put (p ++ [s]) .directory := by
  obtain ⟨q, hs, hm⟩ := bind_eq_ok.mp hm
  obtain ⟨rfl, hc, hd, hp, hlen⟩ := seat_eq_ok (by simpa using h) hs
  rw [List.dropLast_concat] at hc hd
  split at hm
  · simp at hm
  · next he => exact ⟨hc, hd, hlen s (by simp), hp, he, (Except.ok.inj hm).symm⟩

theorem makeDirectory_concat (hc : t.Canonical p) (hd : t.isDirectory p)
    (hp : checkPath (p ++ [s]) = .ok ()) : t.makeDirectory (p ++ [s]) =
      if maxName < s.utf8ByteSize then .error .nameTooLong
      else if t.entry? (p ++ [s]) = none then .ok (t.put (p ++ [s]) .directory)
      else .error .exists := by
  rw [makeDirectory, seat_concat hc hd, hp, ok_bind]
  split_ifs with hlen he
  · rfl
  · simp [he]
  · obtain ⟨e, he⟩ := Option.ne_none_iff_exists'.mp he
    simp [he]

theorem checkPath_ne_noEntry (l : Location) : checkPath l ≠ .error .noEntry := by
  unfold checkPath
  split_ifs <;> simp

/-- Only a missing directory above is answered by a missing entry. -/
theorem makeDirectory_eq_noEntry (hm : t.makeDirectory (p ++ [s]) = .error .noEntry) :
    checkPath (p ++ [s]) = .ok () ∧ ¬ (t.Canonical p ∧ t.isDirectory p) := by
  have hp : checkPath (p ++ [s]) = .ok () := by
    cases hc : checkPath (p ++ [s]) with
    | ok => rfl
    | error e =>
      simp only [makeDirectory, seat, hc, error_bind, Except.error.injEq] at hm
      exact absurd (hm ▸ hc) (checkPath_ne_noEntry _)
  refine ⟨hp, ?_⟩
  rintro ⟨hc, hd⟩
  rw [makeDirectory_concat hc hd hp] at hm
  split_ifs at hm <;> simp at hm

/-- What making the directories of a location comes to: they are there, or no more was made than
stood before a name or the path was too long. -/
structure Made (t : FileTree) (l : Location) (outcome : Except SystemError Unit × FileTree) :
    Prop where
  grows : t.Grows l outcome.2
  there : outcome.1 = .ok () →
    checkPath l = .ok () ∧ outcome.2.Canonical l ∧ outcome.2.isDirectory l
  failed : ∀ e, outcome.1 = .error e → outcome.2 = t ∨ e = .nameTooLong

/-- Something in the way is fine if it is a directory. -/
theorem made_settled (hg : t.Grows l t') (hs : t'.Straight l) (he : t' = t ∨ e = .nameTooLong) :
    t.Made l (if t'.leadsToDirectory l then (.ok (), t') else (.error e, t')) := by
  split_ifs with h
  · exact ⟨hg, fun _ => hs.leadsToDirectory_iff.mp h, by simp⟩
  · refine ⟨hg, by simp, fun e' he' => ?_⟩
    exact Except.error.inj he' ▸ he

theorem made_makeDirectory (hg : t.Grows p t₁) (hs : t₁.Straight p) (hn : Path.IsName s)
    (hm : t₁.makeDirectory (p ++ [s]) = .ok t') : t.Made (p ++ [s]) (.ok (), t') := by
  obtain ⟨hc, hd, hlen, hp, ha, rfl⟩ := makeDirectory_eq_ok hs hm
  have hmake : t₁.Grows (p ++ [s]) (t₁.put (p ++ [s]) .directory) :=
    .make .refl (List.prefix_refl _) hc hd hlen ha
  have hself : entry? (t₁.put (p ++ [s]) .directory) (p ++ [s]) = some .directory :=
    entry?_put_self (by simp)
  refine ⟨(hg.mono (List.prefix_append _ _)).trans hmake, fun _ => ⟨hp, ?_, ?_⟩, by nofun⟩
  · exact (hmake.canonical hc).concat (hmake.isDirectory hd) hn hlen ⟨_, hself, by simp⟩
  · exact isDirectory_iff.mpr hself

/-- A directory is tried again after those above it were made. It is there then, unless its name is
too long. -/
theorem made_again (hmade : t.Made p (.ok (), t₁)) (hc : t.Closed) (hs : t.Straight (p ++ [s]))
    (hn : ∀ x ∈ p ++ [s], Path.IsName x) (hm : t.makeDirectory (p ++ [s]) = .error .noEntry) :
    t.Made (p ++ [s]) (match t₁.makeDirectory (p ++ [s]) with
      | .ok t' => (.ok (), t')
      | .error e => if t₁.leadsToDirectory (p ++ [s]) then (.ok (), t₁) else (.error e, t₁)) := by
  have hpre : p <+: p ++ [s] := List.prefix_append _ _
  obtain ⟨hp, hmissing⟩ := makeDirectory_eq_noEntry hm
  obtain ⟨-, hcan, hdir⟩ := hmade.there rfl
  have hs₁ : t₁.Straight (p ++ [s]) := hmade.grows.straight hc hs hn hpre
  cases hm₁ : t₁.makeDirectory (p ++ [s]) with
  | ok t' => exact made_makeDirectory hmade.grows (hs₁.of_prefix hpre) (hn s (by simp)) hm₁
  | error e =>
    refine made_settled (hmade.grows.mono hpre) hs₁ (.inr ?_)
    rw [makeDirectory_concat hcan hdir hp,
      if_pos (hmade.grows.entry?_below hc hcan hmissing)] at hm₁
    split_ifs at hm₁
    exact (Except.error.inj hm₁).symm

theorem made_makeDirectories (names : List String) (hc : t.Closed) (hs : t.Straight names.reverse)
    (hn : ∀ x ∈ names, Path.IsName x) : t.Made names.reverse (t.makeDirectories names) := by
  induction names with
  | nil =>
    exact ⟨.refl, fun _ => ⟨by decide, canonical_nil t, isDirectory_iff.mpr rfl⟩,
      fun e he => by simp [makeDirectories] at he⟩
  | cons s above ih =>
    simp only [List.reverse_cons] at hs ⊢
    have hpre : above.reverse <+: above.reverse ++ [s] := List.prefix_append _ _
    have hnl : ∀ x ∈ above.reverse ++ [s], Path.IsName x :=
      fun x hx => hn x (by simpa [or_comm] using hx)
    rw [makeDirectories]
    simp only [List.reverse_cons]
    cases hm : t.makeDirectory (above.reverse ++ [s]) with
    | ok t' => exact made_makeDirectory .refl (hs.of_prefix hpre) (hn s List.mem_cons_self) hm
    | error e =>
      by_cases he : e = .noEntry
      · subst he
        have hmade := ih (hs.of_prefix hpre) fun x hx => hn x (List.mem_cons_of_mem _ hx)
        rcases hr : t.makeDirectories above with ⟨e' | ⟨⟨⟩⟩, t₁⟩
        · rw [hr] at hmade
          exact ⟨hmade.grows.mono hpre, by simp, hmade.failed⟩
        · rw [hr] at hmade
          exact made_again hmade hc hs hnl hm
      · have hsettled := made_settled (e := e) .refl hs (.inl rfl)
        cases e <;> first | exact hsettled | exact absurd rfl he

end Worksite.FileTree
