import Worksite.Place.Delete
import Worksite.Proofs.FileTree.Clear

/-!
What a delete changes: the entry goes, with all below it, and nothing else.
-/
namespace Worksite

open FileTree

variable {p : Place} {t t' : FileTree} {l x root : Location} {recursive : Bool} {e : Entry}

/-- An entry is gone with all below it. -/
structure FileTree.Removed (t : FileTree) (l : Location) (t' : FileTree) : Prop where
  there : t.entry? l ≠ none
  gone : ∀ x, l <+: x → t'.entry? x = none
  kept : ∀ x, ¬ l <+: x → t'.entry? x = t.entry? x
  closed : t'.Closed

namespace FileTree

theorem removed_erase (hc : t.Closed) (hl : l ≠ []) (he : t.entry? l ≠ none)
    (hb : ∀ s, t.entry? (l ++ [s]) = none) : t.Removed l (t.erase l) where
  there := he
  gone x hx := by
    by_cases hne : x = l
    · rw [hne, entry?_erase_self hl]
    · rw [entry?_erase_of_ne hne]
      obtain ⟨m, rfl⟩ := hx
      cases m with
      | nil => simp at hne
      | cons s m => exact hc.absent_of_absent (hb s) ⟨m, by simp⟩
  kept _ hx := entry?_erase_of_ne fun h => hx (h ▸ List.prefix_refl l)
  closed := hc.erase hb

theorem removed_eraseTree (hc : t.Closed) (hl : l ≠ []) (he : t.entry? l ≠ none) :
    t.Removed l (t.eraseTree l) where
  there := he
  gone _ hx := entry?_eraseTree_below (fun h => hl (List.prefix_nil.mp (h ▸ hx))) hx
  kept _ hx := entry?_eraseTree_elsewhere hx
  closed := hc.eraseTree l

theorem removed_of_remove (hc : t.Closed) (hl : l ≠ []) (hs : t.Straight l.dropLast)
    (h : t.remove l = .ok t') : t.Removed l t' := by
  obtain ⟨q, hq, hm⟩ := bind_eq_ok.mp h
  obtain rfl := (seat_eq_ok hs hq).1
  split at hm
  · simp at hm
  · simp at hm
  · next e hne he =>
    obtain rfl := Except.ok.inj hm
    have hd : ¬ t.isDirectory q := by
      intro hd
      rw [isDirectory_iff, he] at hd
      exact hne (Option.some.inj hd)
    -- only a directory has anything below it
    exact removed_erase hc hl (by simp [he]) fun s =>
      hc.absent_below hd (List.prefix_append q [s]) (by simp)

theorem removed_of_removeDirectory (hc : t.Closed) (hl : l ≠ []) (hs : t.Straight l.dropLast)
    (h : t.removeDirectory l = .ok t') : t.Removed l t' := by
  obtain ⟨q, hq, hm⟩ := bind_eq_ok.mp h
  obtain rfl := (seat_eq_ok hs hq).1
  split at hm
  · next he =>
    split_ifs at hm with hempty
    obtain rfl := Except.ok.inj hm
    refine removed_erase hc hl (by simp [he]) fun s => ?_
    by_contra hx
    have hmem := mem_names.mpr hx
    rw [List.isEmpty_iff.mp hempty] at hmem
    simp at hmem
  · simp at hm
  · simp at hm

theorem removed_of_removeTree (hc : t.Closed) (hl : l ≠ []) (hs : t.Straight l.dropLast)
    (h : t.removeTree l = .ok t') : t.Removed l t' := by
  obtain ⟨q, hq, hm⟩ := bind_eq_ok.mp h
  obtain rfl := (seat_eq_ok hs hq).1
  split at hm
  · next he =>
    obtain rfl := Except.ok.inj hm
    exact removed_eraseTree hc hl (by simp [he])
  · simp at hm
  · simp at hm

end FileTree

/-- A delete that succeeds removes the entry that stands at its place. -/
theorem Place.delete_eq_ok (hp : p.absolute = root ++ p.relative) (hc : t.Closed)
    (hs : t.Straight p.absolute.dropLast) (h : p.delete t recursive = .ok t') :
    p.relative ≠ [] ∧ t.Removed p.absolute t' := by
  unfold Place.delete at h
  split_ifs at h with hroot
  have hne : p.relative ≠ [] := by simpa [isRoot] using hroot
  have hl : p.absolute ≠ [] := by simp [hp, hne]
  refine ⟨hne, ?_⟩
  split at h
  · simp at h
  · next e he =>
    split at h
    · next t₁ hr =>
      obtain rfl := Except.ok.inj h
      unfold removal at hr
      split at hr
      · split_ifs at hr
        · exact removed_of_removeTree hc hl hs hr
        · exact removed_of_removeDirectory hc hl hs hr
      · exact removed_of_remove hc hl hs hr
    · simp at h
    · simp at h

/-- A delete that succeeds is of what the system can look at. -/
theorem Place.seat_of_delete (h : p.delete t recursive = .ok t') :
    ∃ q, t.seat p.absolute = .ok q := by
  unfold Place.delete at h
  split_ifs at h
  split at h
  · cases h
  · next e he =>
    split at h
    · next hr =>
      unfold removal at hr
      split at hr
      · split_ifs at hr
        · obtain ⟨q, hq, -⟩ := bind_eq_ok.mp hr
          exact ⟨q, hq⟩
        · obtain ⟨q, hq, -⟩ := bind_eq_ok.mp hr
          exact ⟨q, hq⟩
      · obtain ⟨q, hq, -⟩ := bind_eq_ok.mp hr
        exact ⟨q, hq⟩
    · cases h
    · cases h

/-- What stands in a canonical directory can be deleted. -/
theorem Place.delete_of_there {d : Location} {s : String} (hp : p.absolute = d ++ [s])
    (hroot : p.relative ≠ []) (h : t.Canonical d) (hd : t.isDirectory d) (hs : Path.IsName s)
    (hlen : s.utf8ByteSize ≤ maxName) (hpath : checkPath p.absolute = .ok ())
    (he : t.entry? p.absolute = some e) : ∃ t', p.delete t true = .ok t' := by
  rw [hp] at hpath he
  have hfind : t.find false (d ++ [s]) = .ok e :=
    find_eq_ok.mpr ⟨hpath, _, follow_entry h hd hs hlen he, he⟩
  have hseat : t.seat (d ++ [s]) = .ok (d ++ [s]) := by
    rw [seat_concat h hd, hpath, ok_bind, if_neg (by omega)]
  have hremoval : ∃ t', p.removal t true e = .ok t' := by
    unfold Place.removal
    rw [hp]
    cases e with
    | directory => exact ⟨_, by simp [removeTree, hseat, he]; rfl⟩
    | file | link | socket => exact ⟨_, by simp [remove, hseat, he]; rfl⟩
  obtain ⟨t', ht⟩ := hremoval
  refine ⟨t', ?_⟩
  simp only [Place.delete, Place.isRoot, List.isEmpty_iff, hroot, ↓reduceIte, hp, hfind, ht]

/-- A directory that holds anything is deleted only on demand. -/
theorem Place.delete_with_children {d : Location} {s x : String} (hp : p.absolute = d ++ [s])
    (hroot : p.relative ≠ []) (h : t.Straight d) (hd : t.isDirectory d) (hs : Path.IsName s)
    (hf : t.find false p.absolute = .ok .directory) (he : t.isDirectory p.absolute)
    (hx : t.entry? (p.absolute ++ [x]) ≠ none) : p.delete t false = .error (.invalidArgument
      (p.relative.display ++ " is not empty; pass recursive to delete it")) := by
  obtain ⟨hpath, l, hfollow, -⟩ := find_eq_ok.mp hf
  rw [hp] at hpath hfollow he hx
  have hcan : t.Canonical d := by
    cases hd' : t.follow true maxLinks [] d with
    | ok d' =>
      obtain rfl := h d (List.prefix_refl d) d' hd'
      exact canonical_of_follow (canonical_nil t) hd'
    | error e =>
      rw [follow_append_of_error (by simp) hd'] at hfollow
      cases hfollow
  have hlen : s.utf8ByteSize ≤ maxName := by
    by_contra hlong
    have hstart : t.follow false maxLinks [] (d ++ [s]) =
      t.follow false maxLinks ([] ++ d) [s] := follow_of_canonical hcan [s]
    rw [hstart, List.nil_append, follow, course] at hfollow
    simp [hd, hs.1, hs.2.1, hs.2.2, Nat.lt_of_not_ge hlong] at hfollow
  have hseat : t.seat (d ++ [s]) = .ok (d ++ [s]) := by
    rw [seat_concat hcan hd, hpath, ok_bind, if_neg (by omega)]
  have hnames : t.names (d ++ [s]) ≠ [] := List.ne_nil_of_mem (mem_names.mpr hx)
  have hremoval : p.removal t false .directory = .error .notEmpty := by
    simp [removal, removeDirectory, hp, hseat, isDirectory_iff.mp he, hnames]
  simp only [Place.delete, Place.isRoot, List.isEmpty_iff, hroot, ↓reduceIte, hf, hremoval]

end Worksite
