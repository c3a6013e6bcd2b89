import Worksite.Proofs.Unicode.Lookup

/-!
White space. No character of white space belongs to a word or to an identifier: below 128 there are
six of them, and above they lie in runs of separators and controls.
-/
namespace Worksite.Unicode

section Runs

variable {α : Type} {first : α → Nat} {p : α → Bool} {x lo hi : Nat} {l : List α} {d : α}

/-- Whether one run is found for all from `lo` to `hi`, and has a property. -/
def findsRunOn (first : α → Nat) (lo hi : Nat) (p : α → Bool) (l : List α) : Bool :=
  (l.takeWhile (first · ≤ lo)).getLast?.any p && (l.dropWhile (first · ≤ lo)).all (hi < first ·)

theorem of_findsRunOn (h : findsRunOn first lo hi p l) (hlo : lo ≤ x) (hhi : x ≤ hi) :
    p (l.toArray.getD (lastAtMost (l.toArray.map first) x 0 (l.toArray.map first).size) d) := by
  obtain ⟨hany, hall⟩ := Bool.and_eq_true_iff.mp h
  obtain ⟨r, hr, hholds⟩ := Option.any_eq_true _ _ |>.mp hany
  have hbelow : ∀ q ∈ l.takeWhile (first · ≤ lo), first q ≤ x := fun q hq => by
    have hfirst : first q ≤ lo := by simpa using List.mem_takeWhile_imp hq
    exact hfirst.trans hlo
  have habove : ∀ q ∈ l.dropWhile (first · ≤ lo), x < first q := fun q hq =>
    hhi.trans_lt (of_decide_eq_true (List.all_eq_true.mp hall q hq))
  have hfound := getD_lastAtMost (d := d) hbelow habove hr
  rw [List.takeWhile_append_dropWhile] at hfound
  rwa [hfound]

end Runs

/-- Separators and controls. -/
def Category.isBlank : Category → Bool
  | Zs | Zl | Zp | Cc => true
  | _ => false

theorem Category.isBlank_disjoint {k : Category} (h : k.isBlank) :
    k.isLetter = false ∧ k.isMark = false ∧ ∀ l ∈ [Mn, Mc, Nd, Nl, Pc], (k == l) = false := by
  revert h
  cases k <;> decide

/-- Whether no range of the one meets a range of the other. -/
def Ranges.apart (r s : Ranges) : Bool :=
  r.all fun p => s.all fun q => p.2 < q.1 || q.2 < p.1

theorem Ranges.has_of_apart {r s : Ranges} {c : Char} (h : r.apart s) (hs : s.has c) :
    r.has c = false := by
  obtain ⟨q, hq, hc⟩ := List.any_eq_true.mp hs
  obtain ⟨hqlo, hqhi⟩ := Bool.and_eq_true_iff.mp hc
  refine List.any_eq_false.mpr fun p hp hp' => ?_
  obtain ⟨hplo, hphi⟩ := Bool.and_eq_true_iff.mp hp'
  have happart := List.all_eq_true.mp (List.all_eq_true.mp h p hp) q hq
  simp only [Bool.or_eq_true, decide_eq_true_eq] at happart hqlo hqhi hplo hphi
  omega

/-- The white space from 128 on, cut so that each part lies in one run. -/
def wideSpaces : Ranges :=
  [(0x85, 0x85), (0xA0, 0xA0), (0x1680, 0x1680), (0x2000, 0x200A), (0x2028, 0x2028),
   (0x2029, 0x2029), (0x202F, 0x202F), (0x205F, 0x205F), (0x3000, 0x3000)]

variable {c : Char}

theorem findsRunOn_wideSpaces : wideSpaces.all fun (lo, hi) =>
    findsRunOn Category.Run.first lo hi (fun r => r.even.isBlank && r.odd.isBlank)
      ((tableWords Category.table).map Category.Run.ofWord) := by
  rw [tableWords_eq]
  dsimp only [Category.table]
  apply of_spelled (p := fun ls => wideSpaces.all fun (lo, hi) => findsRunOn _ lo hi _
    ((ls.flatMap (·.splitOn ' ')).map _))
  · repeat apply map_toList_cons rfl
    exact List.map_nil
  · decide +kernel

theorem isBlank_category (hspace : isSpace c) (hwide : 128 ≤ c.toNat) :
    (Category.of c).isBlank := by
  have hrange : ∃ r ∈ wideSpaces, r.1 ≤ c.toNat ∧ c.toNat ≤ r.2 := by
    simp only [isSpace, spaceRanges, Ranges.has, List.any_cons, List.any_nil, Bool.or_eq_true,
      Bool.and_eq_true, decide_eq_true_eq, Bool.or_false] at hspace
    simp only [wideSpaces, List.mem_cons, List.not_mem_nil, or_false, exists_eq_or_imp,
      exists_eq_left]
    omega
  obtain ⟨r, hr, hlo, hhi⟩ := hrange
  have hrun := List.all_eq_true.mp findsRunOn_wideSpaces r hr
  unfold Category.of Category.starts Category.runs
  generalize (tableWords Category.table).map Category.Run.ofWord = l at hrun ⊢
  have hboth := of_findsRunOn (p := fun r : Category.Run => r.even.isBlank && r.odd.isBlank)
    (d := ⟨0, .Cn, .Cn⟩) hrun hlo hhi
  obtain ⟨heven, hodd⟩ := Bool.and_eq_true_iff.mp hboth
  dsimp only
  split_ifs
  · exact heven
  · exact hodd

def narrowSpaces : List Char := ['\t', '\n', '\x0b', '\x0c', '\r', ' ']

/-- What is false of the white space below 128. -/
theorem of_isSpace_of_lt {p : Char → Bool} (hspace : isSpace c) (hnarrow : c.toNat < 128)
    (h : narrowSpaces.all (!p ·)) : p c = false := by
  have hnat : c.toNat ∈ [9, 10, 11, 12, 13, 32] := by
    simp only [isSpace, spaceRanges, Ranges.has, List.any_cons, List.any_nil, Bool.or_eq_true,
      Bool.and_eq_true, decide_eq_true_eq, Bool.or_false] at hspace
    simp only [List.mem_cons, List.not_mem_nil, or_false]
    omega
  refine Bool.not_eq_true' _ |>.mp (List.all_eq_true.mp h c ?_)
  rw [← Char.ofNat_toNat c]
  revert hnat
  generalize c.toNat = n
  simp only [List.mem_cons, List.not_mem_nil, or_false]
  rintro (rfl | rfl | rfl | rfl | rfl | rfl) <;> decide

theorem isWord_of_isSpace (hspace : isSpace c) : isWord c = false := by
  by_cases hnarrow : c.toNat < 128
  · exact of_isSpace_of_lt hspace hnarrow (by decide)
  · obtain ⟨hletter, hmark, hother⟩ :=
      Category.isBlank_disjoint (isBlank_category hspace (by omega))
    have hupper : circledUpper.has c = false := Ranges.has_of_apart (by decide) hspace
    have hlower : circledLower.has c = false := Ranges.has_of_apart (by decide) hspace
    have hjoiners : Ranges.has [(0x200C, 0x200D)] c = false :=
      Ranges.has_of_apart (by decide) hspace
    simp only [Ranges.has, List.any_cons, List.any_nil, Bool.or_false, Bool.and_eq_false_iff,
      decide_eq_false_iff_not] at hjoiners
    have hnon : (c.toNat == 0x200C) = false := beq_eq_false_iff_ne.mpr (by omega)
    have hjoin : (c.toNat == 0x200D) = false := beq_eq_false_iff_ne.mpr (by omega)
    rw [isWord, if_neg hnarrow]
    dsimp only
    rw [hletter, hmark, hother .Nd (by decide), hother .Nl (by decide), hother .Pc (by decide),
      hupper, hlower, hnon, hjoin]
    rfl

theorem isIdentifierContinue_of_isSpace (hspace : isSpace c) :
    isIdentifierContinue c = false := by
  by_cases hnarrow : c.toNat < 128
  · exact of_isSpace_of_lt hspace hnarrow (by decide)
  · obtain ⟨hletter, -, hother⟩ :=
      Category.isBlank_disjoint (isBlank_category hspace (by omega))
    have hstart : otherStart.has c = false := Ranges.has_of_apart (by decide) hspace
    have hcontinue : otherContinue.has c = false := Ranges.has_of_apart (by decide) hspace
    rw [isIdentifierContinue, if_neg hnarrow]
    dsimp only
    rw [hletter, hother .Nl (by decide), hstart, hother .Mn (by decide), hother .Mc (by decide),
      hother .Nd (by decide), hother .Pc (by decide), hcontinue]
    rfl

/-- What may start an identifier may continue it. -/
theorem isIdentifierContinue_of_isIdentifierStart (h : isIdentifierStart c) :
    isIdentifierContinue c := by
  have hform : notContinue.has c → notStart.has c := by
    simp only [Ranges.has, notContinue, notStart, List.any_cons, List.any_nil, Bool.or_eq_true,
      Bool.or_false, Bool.and_eq_true, decide_eq_true_eq]
    omega
  unfold isIdentifierStart at h
  unfold isIdentifierContinue
  split_ifs at h ⊢ with hnarrow
  · rw [isAsciiWord, Char.isAlphanum, h]
    rfl
  · simp only [Bool.and_eq_true, Bool.not_eq_true', Bool.or_eq_true] at h ⊢
    refine ⟨.inl (.inl (.inl (.inl (.inl h.1)))), ?_⟩
    rw [← Bool.not_eq_true]
    exact fun hcontinue => Bool.false_ne_true (h.2.symm.trans (hform hcontinue))

end Worksite.Unicode
