import Mathlib
import Worksite.Unicode.Case

/-!
Letter case. The characters that differ from one only in case are looked up by bisection in a table
sorted by character; as no character is in two classes of the table, they are those of its class.
-/
namespace Worksite.Unicode

/-- Two characters are one but for their case. -/
def FoldsAlike (c d : Char) : Prop := c = d ∨ ∃ k ∈ caseClasses, c.toNat ∈ k ∧ d.toNat ∈ k

instance (c d : Char) : Decidable (FoldsAlike c d) := inferInstanceAs (Decidable (_ ∨ _))

/-! ## Bisection -/

section Bisection

variable {keys : Array Nat} {x lo hi i : Nat}

theorem lastAtMost_lt (h : lo < hi) : lastAtMost keys x lo hi < hi := by
  fun_induction lastAtMost keys x lo hi with
  | case1 lo hi _ mid _ ih => exact ih (by omega)
  | case2 lo hi _ mid _ ih => exact (ih (by omega)).trans (by omega)
  | case3 => exact h

/-- A key among ascending ones is found where it is. -/
theorem lastAtMost_eq (hlo : lo ≤ i) (hhi : i < hi) (hx : keys.getD i 0 = x)
    (hasc : ∀ a b, a < b → b < hi → keys.getD a 0 < keys.getD b 0) :
    lastAtMost keys x lo hi = i := by
  fun_induction lastAtMost keys x lo hi with
  | case1 lo hi _ mid hmid ih =>
    refine ih (not_lt.mp fun hi' => ?_) hhi hasc
    have := hasc i mid hi' (by omega)
    omega
  | case2 lo hi _ mid hmid ih =>
    refine ih hlo (not_le.mp fun hi' => hmid ?_) fun a b hab hb => hasc a b hab (by omega)
    rcases hi'.eq_or_lt with rfl | hlt
    · exact hx.le
    · exact hx ▸ (hasc mid i hlt hhi).le
  | case3 lo hi hle => omega

end Bisection

/-! ## The table -/

/-- All numbers are those of characters, none comes twice, and none is in the mask. -/
def areFresh : Nat → List Nat → Bool
  | _, [] => true
  | seen, n :: rest =>
    decide n.isValidChar && !seen.testBit n && areFresh (seen ||| (1 <<< n)) rest

theorem areFresh_iff {seen : Nat} {ns : List Nat} :
    areFresh seen ns ↔ ns.Nodup ∧ ∀ n ∈ ns, n.isValidChar ∧ seen.testBit n = false := by
  induction ns generalizing seen with
  | nil => simp [areFresh]
  | cons n ns ih =>
    simp only [areFresh, Bool.and_eq_true, decide_eq_true_eq, Bool.not_eq_true', ih,
      Nat.testBit_or, Nat.one_shiftLeft, Nat.testBit_two_pow, Bool.or_eq_false_iff,
      decide_eq_false_iff_not, List.nodup_cons, List.forall_mem_cons]
    constructor
    · rintro ⟨⟨hn, hseen⟩, hnodup, hall⟩
      exact ⟨⟨fun hmem => (hall n hmem).2.2 rfl, hnodup⟩, ⟨hn, hseen⟩,
        fun m hm => ⟨(hall m hm).1, (hall m hm).2.1⟩⟩
    · rintro ⟨⟨hmem, hnodup⟩, ⟨hn, hseen⟩, hall⟩
      exact ⟨⟨hn, hseen⟩, hnodup, fun m hm =>
        ⟨(hall m hm).1, (hall m hm).2, fun heq => hmem (heq ▸ hm)⟩⟩

theorem tableWords_eq (lines : List String) :
    tableWords lines = (lines.map String.toList).flatMap (·.splitOn ' ') := by
  rw [List.flatMap_map]
  rfl

-- the lines are spelled out first, as the kernel is slow to take a text apart
theorem check_caseClasses :
    areFresh 0 caseClasses.flatten = true ∧ caseClasses.flatten.isEmpty = false := by
  simp only [caseClasses, tableWords_eq, pairTable, classTable, List.map_cons, List.map_nil]
  repeat rw [String.toList_ofList]
  decide +kernel

theorem nodup_caseClasses : caseClasses.flatten.Nodup := (areFresh_iff.mp check_caseClasses.1).1

variable {k l : List Nat} {n : Nat} {c d : Char}

theorem isValidChar_of_mem (hk : k ∈ caseClasses) (hn : n ∈ k) : n.isValidChar :=
  ((areFresh_iff.mp check_caseClasses.1).2 n (List.mem_flatten_of_mem hk hn)).1

theorem mem_caseIndex {e : Nat × List Nat} :
    e ∈ caseIndex.toList ↔ e.2 ∈ caseClasses ∧ e.1 ∈ e.2 := by
  obtain ⟨n, k⟩ := e
  simp only [caseIndex, List.mem_mergeSort, List.mem_flatMap, List.mem_map, Prod.mk.injEq]
  constructor
  · rintro ⟨_, hk, _, hn, rfl, rfl⟩
    exact ⟨hk, hn⟩
  · exact fun ⟨hk, hn⟩ => ⟨k, hk, n, hn, rfl, rfl⟩

theorem ascending_caseIndex : caseIndex.toList.Pairwise fun a b => a.1 < b.1 := by
  have hflat : ((caseClasses.flatMap fun k => k.map fun c => (c, k)).map Prod.fst) =
      caseClasses.flatten := by
    simp [List.map_flatMap, Function.comp_def]
  have hkeys : (caseIndex.toList.map Prod.fst).Nodup :=
    ((List.mergeSort_perm _ _).map Prod.fst).nodup_iff.mpr (hflat ▸ nodup_caseClasses)
  have hle : caseIndex.toList.Pairwise fun a b => decide (a.1 ≤ b.1) := by
    refine List.pairwise_mergeSort (fun a b c hab hbc => ?_) (fun a b => ?_) _
    · exact decide_eq_true ((of_decide_eq_true hab).trans (of_decide_eq_true hbc))
    · simp [Nat.le_total]
  exact hle.imp₂ (fun _ _ h hne => lt_of_le_of_ne (of_decide_eq_true h) hne)
    (List.pairwise_map.mp hkeys)

theorem caseKeys_getD {i : Nat} (h : i < caseIndex.size) : caseKeys.getD i 0 = caseIndex[i].1 := by
  simp [caseKeys, Array.getD, h]

/-- An entry of the table is found by its character. -/
theorem caseIndex_lastAtMost {i : Nat} (h : i < caseIndex.size) :
    lastAtMost caseKeys caseIndex[i].1 0 caseKeys.size = i := by
  have hsize : caseKeys.size = caseIndex.size := Array.size_map
  refine lastAtMost_eq (Nat.zero_le i) (hsize ▸ h) (caseKeys_getD h) fun a b hab hb => ?_
  rw [hsize] at hb
  rw [caseKeys_getD (hab.trans hb), caseKeys_getD hb]
  exact List.pairwise_iff_getElem.mp ascending_caseIndex a b (hab.trans hb) hb hab

theorem caseIndex_size_pos : 0 < caseIndex.size := by
  rw [Nat.pos_iff_ne_zero]
  intro h
  have hnil : caseClasses.flatten = [] := by
    rw [List.eq_nil_iff_forall_not_mem]
    intro n hn
    obtain ⟨k, hk, hn⟩ := List.mem_flatten.mp hn
    have := mem_caseIndex (e := (n, k)).mpr ⟨hk, hn⟩
    rw [Array.size_eq_zero_iff.mp h] at this
    cases this
  simpa [hnil] using check_caseClasses.2

theorem caseClass_of_mem (hk : k ∈ caseClasses) (hc : c.toNat ∈ k) :
    caseClass c = k.map Char.ofNat := by
  obtain ⟨i, hi, hget⟩ :=
    List.getElem_of_mem (mem_caseIndex (e := (c.toNat, k)).mpr ⟨hk, hc⟩)
  have hi : i < caseIndex.size := hi
  have hget : caseIndex[i] = (c.toNat, k) := hget
  have hfound := caseIndex_lastAtMost hi
  rw [hget] at hfound
  simp [caseClass, hfound, Array.getD, hi, hget]

theorem caseClass_of_not_mem (h : ∀ k ∈ caseClasses, c.toNat ∉ k) : caseClass c = [c] := by
  have hsize : caseKeys.size = caseIndex.size := Array.size_map
  obtain ⟨i, hi, hfound⟩ : ∃ i, i < caseIndex.size ∧
      lastAtMost caseKeys c.toNat 0 caseKeys.size = i := by
    refine ⟨_, ?_, rfl⟩
    rw [← hsize]
    exact lastAtMost_lt (by rw [hsize]; exact caseIndex_size_pos)
  obtain ⟨hk, hmem⟩ := mem_caseIndex.mp (Array.getElem_mem_toList hi)
  have hne : caseIndex[i].1 ≠ c.toNat := by
    intro heq
    rw [heq] at hmem
    exact h _ hk hmem
  simp [caseClass, hfound, Array.getD, hi, hne]

/-- What is looked up for a character are the characters that differ from it only in case. -/
theorem mem_caseClass : d ∈ caseClass c ↔ FoldsAlike c d := by
  by_cases h : ∃ k ∈ caseClasses, c.toNat ∈ k
  · obtain ⟨k, hk, hc⟩ := h
    rw [caseClass_of_mem hk hc, List.mem_map]
    constructor
    · rintro ⟨n, hn, rfl⟩
      exact .inr ⟨k, hk, hc, by rwa [Char.toNat_ofNat, if_pos (isValidChar_of_mem hk hn)]⟩
    · rintro (rfl | ⟨l, hl, hcl, hd⟩)
      · exact ⟨_, hc, Char.ofNat_toNat c⟩
      · have heq : l.map Char.ofNat = k.map Char.ofNat := by
          rw [← caseClass_of_mem hk hc, ← caseClass_of_mem hl hcl]
        have hmem : d ∈ l.map Char.ofNat := List.mem_map.mpr ⟨_, hd, Char.ofNat_toNat d⟩
        exact List.mem_map.mp (heq ▸ hmem)
  · push Not at h
    rw [caseClass_of_not_mem h, List.mem_singleton]
    constructor
    · rintro rfl
      exact .inl rfl
    · rintro (rfl | ⟨k, hk, hc, -⟩)
      · rfl
      · exact absurd hc (h k hk)

/-- To be one but for case is to have the same characters that differ only in case. -/
theorem foldsAlike_iff : FoldsAlike c d ↔ caseClass c = caseClass d := by
  constructor
  · rintro (rfl | ⟨k, hk, hc, hd⟩)
    · rfl
    · rw [caseClass_of_mem hk hc, caseClass_of_mem hk hd]
  · intro h
    rw [← mem_caseClass, h, mem_caseClass]
    exact .inl rfl

theorem foldsAlike_equivalence : Equivalence FoldsAlike where
  refl _ := .inl rfl
  symm h := foldsAlike_iff.mpr (foldsAlike_iff.mp h).symm
  trans h h' := foldsAlike_iff.mpr ((foldsAlike_iff.mp h).trans (foldsAlike_iff.mp h'))

end Worksite.Unicode
