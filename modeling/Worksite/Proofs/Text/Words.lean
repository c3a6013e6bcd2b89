import Mathlib
import Worksite.Text

/-!
White space around texts, and the words between. What is blank changes no word: a text may be
trimmed, and blank space put in front of a word or behind it.
-/
namespace Worksite.Text

open Unicode (isSpace)

variable {lead rest s t g : Chars} {c : Char}

theorem afterLead?_eq_some : afterLead? lead s = some rest ↔ s = lead ++ rest := by
  rw [afterLead?]
  constructor
  · intro h
    split_ifs at h with hlead
    obtain ⟨behind, rfl⟩ := List.isPrefixOf_iff_prefix.mp hlead
    rw [List.drop_left] at h
    rw [Option.some.inj h]
  · rintro rfl
    rw [if_pos (List.isPrefixOf_iff_prefix.mpr (List.prefix_append lead rest)), List.drop_left]

theorem afterLead?_append (lead rest : Chars) : afterLead? lead (lead ++ rest) = some rest :=
  afterLead?_eq_some.mpr rfl

/-- A text that begins otherwise has no such lead. -/
theorem afterLead?_of_head?_ne (hlead : lead ≠ []) (h : s.head? ≠ lead.head?) :
    afterLead? lead s = none := by
  cases hfound : afterLead? lead s with
  | none => rfl
  | some rest =>
    rw [afterLead?_eq_some.mp hfound, List.head?_append_of_ne_nil _ hlead] at h
    exact absurd rfl h

/-! ## Blank ends -/

def Blank (s : Chars) : Prop := ∀ c ∈ s, isSpace c

theorem blank_append : Blank (s ++ t) ↔ Blank s ∧ Blank t := List.forall_mem_append

theorem not_blank_cons (h : isSpace c = false) (s : Chars) : ¬ Blank (c :: s) := fun hblank =>
  Bool.false_ne_true (h.symm.trans (hblank c List.mem_cons_self))

theorem trimStart_blank_append (hg : Blank g) (s : Chars) : trimStart (g ++ s) = trimStart s :=
  List.dropWhile_append_of_pos hg

theorem trimStart_eq_self (h : ∀ c ∈ s.head?, isSpace c = false) : trimStart s = s := by
  cases s with
  | nil => rfl
  | cons c s => exact List.dropWhile_cons_of_neg (by simp [h c rfl])

theorem head?_trimStart (s : Chars) : ∀ c ∈ (trimStart s).head?, isSpace c = false := by
  intro c hc
  have hnot := List.head?_dropWhile_not isSpace s
  rwa [show (s.dropWhile isSpace).head? = some c from hc] at hnot

theorem exists_trimStart (s : Chars) : ∃ g, Blank g ∧ s = g ++ trimStart s :=
  ⟨s.takeWhile isSpace, fun _ hc => List.mem_takeWhile_imp hc,
    List.takeWhile_append_dropWhile.symm⟩

theorem trimEnd_eq (s : Chars) : trimEnd s = (trimStart s.reverse).reverse := rfl

theorem exists_trimEnd (s : Chars) : ∃ g, Blank g ∧ s = trimEnd s ++ g := by
  obtain ⟨g, hg, hs⟩ := exists_trimStart s.reverse
  refine ⟨g.reverse, fun c hc => hg c (List.mem_reverse.mp hc), ?_⟩
  rw [trimEnd_eq, ← List.reverse_append, ← hs, List.reverse_reverse]

theorem trimEnd_append_blank (hg : Blank g) (s : Chars) : trimEnd (s ++ g) = trimEnd s := by
  rw [trimEnd_eq, List.reverse_append, trimStart_blank_append, ← trimEnd_eq]
  exact fun c hc => hg c (List.mem_reverse.mp hc)

theorem trimEnd_eq_self (h : ∀ c ∈ s.getLast?, isSpace c = false) : trimEnd s = s := by
  rw [trimEnd_eq, trimStart_eq_self, List.reverse_reverse]
  rwa [List.head?_reverse]

/-- What stands before the last word is not trimmed. -/
theorem trimEnd_append (ht : ¬ Blank t) (s : Chars) : trimEnd (s ++ t) = s ++ trimEnd t := by
  obtain ⟨g, hg, htrim⟩ := exists_trimEnd t
  have hlast : ∀ c ∈ (s ++ trimEnd t).getLast?, isSpace c = false := by
    intro c hc
    have hne : trimEnd t ≠ [] := fun hnil => ht (by rwa [htrim, hnil])
    rw [List.getLast?_append_of_ne_nil _ hne, trimEnd_eq, List.getLast?_reverse] at hc
    exact head?_trimStart _ c hc
  calc trimEnd (s ++ t) = trimEnd (s ++ trimEnd t ++ g) := by rw [List.append_assoc, ← htrim]
    _ = trimEnd (s ++ trimEnd t) := trimEnd_append_blank hg _
    _ = s ++ trimEnd t := trimEnd_eq_self hlast

/-- A text whose first character is no white space begins with it when it is trimmed as well. -/
theorem exists_trimEnd_cons (h : isSpace c = false) (s : Chars) :
    ∃ kept g, Blank g ∧ s = kept ++ g ∧ trimEnd (c :: s) = c :: kept := by
  obtain ⟨g, hg, htrim⟩ := exists_trimEnd (c :: s)
  cases hkept : trimEnd (c :: s) with
  | nil =>
    rw [hkept, List.nil_append] at htrim
    exact absurd (htrim ▸ hg) (not_blank_cons h s)
  | cons d kept =>
    rw [hkept, List.cons_append] at htrim
    obtain ⟨rfl, hs⟩ := List.cons.inj htrim
    exact ⟨kept, g, hg, hs, rfl⟩

theorem trim_blank_append (hg : Blank g) (h : ∀ c ∈ s.head?, isSpace c = false) :
    trim (g ++ s) = trimEnd s := by
  rw [trim, trimStart_blank_append hg, trimStart_eq_self h]

/-! ## Words -/

theorem words_append_cons (h : isSpace c) (s t : Chars) :
    words (s ++ c :: t) = words s ++ words t := by
  rw [words, List.splitOnP_append_cons _ _ h, List.filter_append]
  rfl

theorem words_of_forall (h : ∀ c ∈ s, isSpace c = false) (hne : s ≠ []) : words s = [s] := by
  rw [words, List.splitOnP_eq_singleton h]
  simp [hne]

theorem words_nil : words [] = [] := by
  rw [words, List.splitOnP_nil]
  rfl

theorem words_blank_append (hg : Blank g) (s : Chars) : words (g ++ s) = words s := by
  induction g with
  | nil => rfl
  | cons c g ih =>
    obtain ⟨hc, hg⟩ := List.forall_mem_cons.mp hg
    have hcons := words_append_cons hc [] (g ++ s)
    rw [List.nil_append, words_nil, List.nil_append] at hcons
    rw [List.cons_append, hcons, ih hg]

theorem words_append_blank (hg : Blank g) (s : Chars) : words (s ++ g) = words s := by
  cases g with
  | nil => rw [List.append_nil]
  | cons c g =>
    obtain ⟨hc, hg⟩ := List.forall_mem_cons.mp hg
    have hblank := words_blank_append hg []
    rw [List.append_nil, words_nil] at hblank
    rw [words_append_cons hc, hblank, List.append_nil]

/-- A text that begins with a word. -/
theorem words_cons (h : isSpace c = false) (s : Chars) :
    words (c :: s) =
      (c :: s).takeWhile (!isSpace ·) :: words ((c :: s).dropWhile (!isSpace ·)) := by
  have hword : ∀ d ∈ (c :: s).takeWhile (!isSpace ·), isSpace d = false := fun d hd => by
    simpa using List.mem_takeWhile_imp hd
  have hne : (c :: s).takeWhile (!isSpace ·) ≠ [] := by
    rw [List.takeWhile_cons_of_pos (by simp [h])]
    exact List.cons_ne_nil _ _
  conv_lhs => rw [← List.takeWhile_append_dropWhile (p := (!isSpace ·)) (l := c :: s)]
  cases hbehind : (c :: s).dropWhile (!isSpace ·) with
  | nil => rw [List.append_nil, words_of_forall hword hne, words_nil]
  | cons d behind =>
    have hd : isSpace d := by
      have hnot := List.head?_dropWhile_not (!isSpace ·) (c :: s)
      rw [hbehind] at hnot
      simpa using hnot
    have hcons := words_append_cons hd [] behind
    rw [List.nil_append, words_nil, List.nil_append] at hcons
    rw [words_append_cons hd, words_of_forall hword hne, hcons]
    rfl

end Worksite.Text
