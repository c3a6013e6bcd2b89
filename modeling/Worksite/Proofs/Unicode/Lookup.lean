import Mathlib
import Worksite.Unicode.Class
import Worksite.Proofs.Unicode.Case

/-!
Characters looked up in the tables. If the runs that start at or before a character come first,
the last of these is the run that is found. So one pass over a table tells what is found for a
character, with no bisection.
-/
namespace Worksite.Unicode

/-! ## The run that is found -/

section Runs

variable {α : Type} {first : α → Nat} {holds : α → Bool} {x i lo hi : Nat}
  {l below above : List α} {r d : α}

/-- The place where the keys pass over `x` is found. -/
theorem lastAtMost_eq_of_parted {keys : Array Nat} (hlo : lo ≤ i) (hhi : i < hi)
    (hle : ∀ j ≤ i, keys.getD j 0 ≤ x) (hlt : ∀ j, i < j → j < hi → x < keys.getD j 0) :
    lastAtMost keys x lo hi = i := by
  fun_induction lastAtMost keys x lo hi with
  | case1 lo hi _ mid hmid ih =>
    exact ih (not_lt.mp fun h => absurd hmid (hlt mid h (by omega)).not_ge) hhi hlt
  | case2 lo hi _ mid hmid ih =>
    exact ih hlo (not_le.mp fun h => hmid (hle mid h)) fun j hj hj' => hlt j hj (by omega)
  | case3 lo hi hend => omega

theorem getD_lastAtMost (hbelow : ∀ q ∈ below, first q ≤ x) (habove : ∀ q ∈ above, x < first q)
    (hr : below.getLast? = some r) :
    (below ++ above).toArray.getD (lastAtMost ((below ++ above).toArray.map first) x 0
      ((below ++ above).toArray.map first).size) d = r := by
  have hpos : 0 < below.length := by
    rw [List.length_pos_iff, ← List.getLast?_isSome, hr]
    rfl
  have hkey : ∀ {j} (hj : j < (below ++ above).length),
      ((below ++ above).toArray.map first).getD j 0 = first (below ++ above)[j] := fun hj => by
    rw [Array.getD, dif_pos (by simpa using hj)]
    simp only [Array.getInternal_eq_getElem, Array.getElem_map, List.getElem_toArray]
  have hfound : lastAtMost ((below ++ above).toArray.map first) x 0
      ((below ++ above).toArray.map first).size = below.length - 1 := by
    refine lastAtMost_eq_of_parted (Nat.zero_le _) ?_ (fun j hj => ?_) fun j hj hj' => ?_
    · simp only [Array.size_map, List.size_toArray, List.length_append]
      omega
    · have hj : j < below.length := by omega
      rw [hkey (by simp; omega), List.getElem_append_left hj]
      exact hbelow _ (List.getElem_mem hj)
    · have hj' : j < (below ++ above).length := by simpa using hj'
      rw [hkey hj', List.getElem_append_right (by omega)]
      exact habove _ (List.getElem_mem _)
  have hlast : (below ++ above)[below.length - 1]? = some r := by
    rw [List.getElem?_append_left (by omega), ← List.getLast?_eq_getElem?, hr]
  rw [hfound, Array.getD_eq_getD_getElem?, List.getElem?_toArray, hlast, Option.getD_some]

/-- Whether the run that is found for `x` has a property, and those behind it start after `x`. -/
def findsRun (first : α → Nat) (x : Nat) (holds : α → Bool) (l : List α) : Bool :=
  (l.takeWhile (first · ≤ x)).getLast?.any holds && (l.dropWhile (first · ≤ x)).all (x < first ·)

theorem holds_of_findsRun (h : findsRun first x holds l) :
    holds (l.toArray.getD (lastAtMost (l.toArray.map first) x 0 (l.toArray.map first).size) d) := by
  obtain ⟨hany, hall⟩ := Bool.and_eq_true_iff.mp h
  obtain ⟨r, hr, hholds⟩ := Option.any_eq_true _ _ |>.mp hany
  have hfound := getD_lastAtMost (d := d)
    (fun q hq => by simpa using List.mem_takeWhile_imp hq)
    (fun q hq => of_decide_eq_true (List.all_eq_true.mp hall q hq)) hr
  rw [List.takeWhile_append_dropWhile] at hfound
  rwa [hfound]

end Runs

variable {c : Char}

theorem category_eq {k : Category}
    (h : findsRun Category.Run.first c.toNat
      (fun r => (if (c.toNat - r.first) % 2 = 0 then r.even else r.odd) == k)
      ((tableWords Category.table).map Category.Run.ofWord)) : Category.of c = k := by
  unfold Category.of Category.starts Category.runs
  generalize (tableWords Category.table).map Category.Run.ofWord = l at h ⊢
  exact eq_of_beq (holds_of_findsRun h)

theorem isCased_of_category (h : Category.of c = .Ll) : isCased c = true := by
  simp [isCased, isLower, h]

theorem isCaseIgnorable_of_category (h : Category.of c = .Ll) :
    isCaseIgnorable c = midWord.has c := by
  rw [isCaseIgnorable, h]
  rfl

/-- A character in no run of the table is its own lower case. -/
theorem lowerChar_eq
    (h : findsRun CaseRun.first c.toNat
      (fun r => decide ¬(r.first ≤ c.toNat ∧ c.toNat ≤ r.last ∧ (c.toNat - r.first) % r.step = 0))
      ((tableWords lowerTable).map CaseRun.ofWord)) : lowerChar c = c := by
  unfold lowerChar lowerStarts lowerRuns
  generalize (tableWords lowerTable).map CaseRun.ofWord = l at h ⊢
  have hholds := holds_of_findsRun (d := ⟨0, 0, 1, 0⟩) h
  exact if_neg (of_decide_eq_true hholds)

/-! ## The letter a -/

/-- A table spelled out line by line, as the kernel is slow to take a text apart. -/
theorem map_toList_cons {s : String} {l : List Char} {ss : List String} {ls : List (List Char)}
    (h : s = String.ofList l) (h' : ss.map String.toList = ls) :
    (s :: ss).map String.toList = l :: ls := by
  rw [List.map_cons, h, h', String.toList_ofList]

theorem of_spelled {t : List String} {ls : List (List Char)} {p : List (List Char) → Bool}
    (h : t.map String.toList = ls) (hp : p ls) : p (t.map String.toList) := h ▸ hp

theorem category_a : Category.of 'a' = .Ll := by
  refine category_eq ?_
  rw [tableWords_eq]
  dsimp only [Category.table]
  apply of_spelled (p := fun ls => findsRun _ _ _ ((ls.flatMap (·.splitOn ' ')).map _))
  · repeat apply map_toList_cons rfl
    exact List.map_nil
  · decide +kernel

theorem lowerChar_a : lowerChar 'a' = 'a' := by
  refine lowerChar_eq ?_
  rw [tableWords_eq]
  dsimp only [lowerTable]
  apply of_spelled (p := fun ls => findsRun _ _ _ ((ls.flatMap (·.splitOn ' ')).map _))
  · repeat apply map_toList_cons rfl
    exact List.map_nil
  · decide +kernel

theorem isCased_a : isCased 'a' = true := isCased_of_category category_a

theorem isCaseIgnorable_a : isCaseIgnorable 'a' = false :=
  (isCaseIgnorable_of_category category_a).trans (by decide)

end Worksite.Unicode
