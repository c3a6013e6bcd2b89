import Worksite.Proofs.FileTree.Growth

/-!
Passing files: each is made under the first passing name that is not taken, and renamed over what
it replaces.
-/
namespace Worksite.FileTree

variable {t t' : FileTree} {d l : Location} {s x : String} {e : Entry} {n : Nat}

/-- The name of the passing file of a number. -/
def passingName (n : Nat) : String :=
  let digits := toString n
  ".tmp" ++ String.ofList (List.replicate (6 - digits.length) '0') ++ digits

theorem toList_passingName (n : Nat) : (passingName n).toList =
    ".tmp".toList ++ (List.replicate (6 - (toString n).length) '0' ++ Nat.toDigits 10 n) := by
  simp [passingName]

theorem passingName_injective : Function.Injective passingName := by
  intro n m h
  have hl := congrArg String.toList h
  rw [toList_passingName, toList_passingName, List.append_cancel_left_eq] at hl
  have hd := congrArg (Nat.ofDigitChars 10 · 0) hl
  simpa [Nat.ofDigitChars_append] using hd

theorem not_mem_passingName {c : Char} (hp : c ∉ ".tmp".toList) (hd : c.isDigit = false) :
    c ∉ (passingName n).toList := by
  rw [toList_passingName]
  intro h
  rcases List.mem_append.mp h with h | h
  · exact hp h
  · rcases List.mem_append.mp h with h | h
    · rw [List.eq_of_mem_replicate h] at hd
      exact absurd hd (by decide)
    · rw [Nat.isDigit_of_mem_toDigits (by decide) (by decide) h] at hd
      exact absurd hd (by decide)

theorem passingName_ne_backup (n : Nat) (s : String) : passingName n ≠ s ++ ".bak" := by
  intro h
  apply not_mem_passingName (n := n) (c := 'k') (by decide) (by decide)
  simp [h]

theorem contains_nul_passingName (n : Nat) : (passingName n).contains '\x00' = false := by
  have h := not_mem_passingName (n := n) (c := '\x00') (by decide) (by decide)
  simpa using h

theorem mem_names : s ∈ t.names d ↔ t.entry? (d ++ [s]) ≠ none := by
  simp only [names, List.mem_mergeSort, List.mem_filterMap]
  constructor
  · rintro ⟨⟨l, e⟩, he, hs⟩
    split_ifs at hs with hd
    have hl : d ++ [s] = l := by
      rw [← hd]
      exact List.dropLast_append_getLast? s hs
    rw [hl, entry?_of_mem_entries (by simp [← hl]) he]
    simp
  · intro h
    obtain ⟨e, he⟩ := Option.ne_none_iff_exists'.mp h
    exact ⟨_, mem_entries_of_eq_some (by simp) he, by simp⟩

theorem freshName_eq (t : FileTree) (d : Location) : t.freshName d =
    (((List.range ((t.names d).length + 1)).map passingName).find? (· ∉ t.names d)).getD ".tmp" :=
  rfl

/-- The fresh name is the first passing name that is not taken. -/
theorem freshName_spec (t : FileTree) (d : Location) : ∃ n, t.freshName d = passingName n ∧
    t.entry? (d ++ [passingName n]) = none ∧
    ∀ m < n, t.entry? (d ++ [passingName m]) ≠ none := by
  rw [freshName_eq, List.find?_map]
  cases hf : (List.range ((t.names d).length + 1)).find?
      ((fun x => decide (x ∉ t.names d)) ∘ passingName) with
  | some n =>
    rw [List.find?_range_eq_some] at hf
    simp only [Function.comp_apply, decide_eq_true_eq, mem_names, not_not] at hf
    exact ⟨n, rfl, hf.1, fun m hm => by simpa using hf.2.2 m hm⟩
  | none =>
    -- more passing names than there are names would all be taken
    exfalso
    rw [List.find?_eq_none] at hf
    have hsub : (List.range ((t.names d).length + 1)).map passingName ⊆ t.names d := by
      intro x hx
      obtain ⟨n, hn, rfl⟩ := List.mem_map.mp hx
      simpa using hf n hn
    have hnodup : ((List.range ((t.names d).length + 1)).map passingName).Nodup :=
      List.Nodup.map passingName_injective List.nodup_range
    have hlen := (hnodup.subperm hsub).length_le
    simp only [List.length_map, List.length_range] at hlen
    omega

theorem entry?_freshName (t : FileTree) (d : Location) :
    t.entry? (d ++ [t.freshName d]) = none := by
  obtain ⟨n, hn, ha, -⟩ := freshName_spec t d
  rw [hn, ha]

/-- The fresh name depends on nothing but which passing names are taken. -/
theorem freshName_congr
    (h : ∀ n, t'.entry? (d ++ [passingName n]) = t.entry? (d ++ [passingName n])) :
    t'.freshName d = t.freshName d := by
  obtain ⟨n, hn, ha, hb⟩ := freshName_spec t d
  obtain ⟨n', hn', ha', hb'⟩ := freshName_spec t' d
  have hlt : ¬ n < n' := fun hlt => hb' n hlt ((h n).trans ha)
  have hgt : ¬ n' < n := fun hgt => hb n' hgt ((h n').symm.trans ha')
  rw [hn, hn', show n' = n by omega]

/-! ## Changes in a canonical directory -/

theorem Canonical.put_below (h : t.Canonical d) (x : String) (e : Entry) :
    (t.put (d ++ [x]) e).Canonical d := by
  refine h.congr fun q hq => entry?_put_of_ne ?_
  rintro rfl
  exact absurd hq.length_le (by simp)

theorem isDirectory_put_below (h : t.isDirectory d) (x : String) (e : Entry) :
    (t.put (d ++ [x]) e).isDirectory d := by
  rw [isDirectory_iff, entry?_put_of_ne (by simp)]
  exact isDirectory_iff.mp h

/-- What is put in a directory does not move the seats there. -/
theorem seat_put_below (hc : t.Canonical d) (hd : t.isDirectory d) (x s : String) (e : Entry) :
    (t.put (d ++ [x]) e).seat (d ++ [s]) = t.seat (d ++ [s]) := by
  rw [seat_concat hc hd, seat_concat (hc.put_below x e) (isDirectory_put_below hd x e)]

theorem seat_concat_eq_ok (hc : t.Canonical d) (hd : t.isDirectory d)
    (h : t.seat (d ++ [s]) = .ok l) :
    l = d ++ [s] ∧ checkPath (d ++ [s]) = .ok () ∧ s.utf8ByteSize ≤ maxName := by
  rw [seat_concat hc hd] at h
  obtain ⟨⟨⟩, hp, h⟩ := bind_eq_ok.mp h
  split_ifs at h with hlen
  exact ⟨(Except.ok.inj h).symm, hp, Nat.le_of_not_lt hlen⟩

theorem create_freshName (t : FileTree) (hc : t.Canonical d) (hd : t.isDirectory d) (mode : Nat) :
    t.create (d ++ [t.freshName d]) mode = (t.seat (d ++ [t.freshName d])).map fun _ =>
      t.put (d ++ [t.freshName d]) (.file .empty mode) := by
  unfold create
  cases hs : t.seat (d ++ [t.freshName d]) with
  | error e => rfl
  | ok p =>
    obtain ⟨rfl, -, -⟩ := seat_concat_eq_ok hc hd hs
    simp [entry?_freshName, Except.map]

/-- A passing file that is renamed leaves nothing but itself at its new place. -/
theorem rename_passing {bytes : ByteArray} {mode : Nat} (hc : t.Canonical d) (hd : t.isDirectory d)
    (ha : t.entry? (d ++ [x]) = none) (hx : t.seat (d ++ [x]) = .ok (d ++ [x])) (s : String) :
    (t.put (d ++ [x]) (.file bytes mode)).rename (d ++ [x]) (d ++ [s]) =
      t.seat (d ++ [s]) >>= fun _ =>
        if t.isDirectory (d ++ [s]) then .error .isDirectory
        else .ok (t.put (d ++ [s]) (.file bytes mode)) := by
  unfold rename
  rw [seat_put_below hc hd, hx, ok_bind, seat_put_below hc hd]
  cases hs : t.seat (d ++ [s]) with
  | error e => rfl
  | ok q =>
    obtain ⟨rfl, -, -⟩ := seat_concat_eq_ok hc hd hs
    simp only [ok_bind, entry?_put_self (l := d ++ [x]) (by simp)]
    by_cases hsx : s = x
    · -- renamed to itself
      subst hsx
      simp [entry?_put_self, isDirectory_iff, ha, erase_put_of_absent]
    · rw [entry?_put_of_ne (by simpa using hsx), erase_put_of_absent (by simp) ha]
      by_cases hdir : t.isDirectory (d ++ [s])
      · simp [hdir, isDirectory_iff.mp hdir]
      · simp only [hdir, Bool.false_eq_true, ↓reduceIte]
        split
        · next heq => simp at heq
        · next heq => exact absurd (isDirectory_iff.mpr heq) hdir
        · next heq _ => rw [Option.some.inj heq]

/-! ## What a seat is refused for -/

theorem checkPath_eq_error {e : SystemError} (hn : ∀ s ∈ l, s.contains '\x00' = false)
    (h : checkPath l = .error e) : e = .nameTooLong := by
  unfold checkPath at h
  split_ifs at h with hnul hlen
  · obtain ⟨s, hs, hc⟩ := List.any_eq_true.mp hnul
    rw [hn s hs] at hc
    exact absurd hc (by simp)
  · exact (Except.error.inj h).symm

theorem contains_nul_of_checkPath (h : checkPath l = .ok ()) :
    ∀ s ∈ l, s.contains '\x00' = false := by
  unfold checkPath at h
  split_ifs at h with hnul
  intro s hs
  by_contra hc
  exact hnul (List.any_eq_true.mpr ⟨s, hs, by simpa using hc⟩)

/-- In a canonical directory only the length of a name, or of its path, is refused. -/
theorem seat_concat_eq_error {e : SystemError} (hc : t.Canonical d) (hd : t.isDirectory d)
    (hp : checkPath d = .ok ()) (hs : s.contains '\x00' = false)
    (h : t.seat (d ++ [s]) = .error e) : e = .nameTooLong := by
  rw [seat_concat hc hd] at h
  cases hcheck : checkPath (d ++ [s]) with
  | error e' =>
    rw [hcheck, error_bind] at h
    refine checkPath_eq_error (fun x hx => ?_) (Except.error.inj h ▸ hcheck)
    rcases List.mem_append.mp hx with hx | hx
    · exact contains_nul_of_checkPath hp x hx
    · exact List.mem_singleton.mp hx ▸ hs
  | ok =>
    rw [hcheck, ok_bind] at h
    split_ifs at h
    exact (Except.error.inj h).symm

end Worksite.FileTree
