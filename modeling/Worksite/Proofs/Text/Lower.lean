import Mathlib
import Worksite.Text
import Worksite.Proofs.Unicode.Lookup

/-!
Lower case of parts. What becomes of a character is its own matter, but for the capital sigma,
which is final where a word stands before it and none behind it. So a part of a text has, within
the text, the lower case that it has alone, unless the part holds a sigma that sees its ends.
-/
namespace Worksite.Text

open Unicode

-- what becomes of a character is a matter of its table, which nothing here looks into
attribute [local irreducible] isCaseIgnorable isCased lowerChar

variable {a a' b b' p s t x : Chars} {c k : Char}

theorem isInfixOf_iff : isInfixOf x t ↔ x <:+: t := by
  induction t with
  | nil => simp [isInfixOf]
  | cons c t ih => simp [isInfixOf, ih, List.infix_cons_iff]

/-! ## What a sigma sees -/

/-- Whether all of the text is passed over. -/
def passed (s : Chars) : Bool := s.all isCaseIgnorable

@[simp] theorem passed_reverse : passed s.reverse = passed s := by simp [passed]

@[simp] theorem nearCased_nil : nearCased [] = false := rfl

theorem nearCased_cons :
    nearCased (c :: s) = if isCaseIgnorable c then nearCased s else isCased c := by
  cases h : isCaseIgnorable c
  · rw [nearCased, List.dropWhile_cons_of_neg (by simp [h])]
    rfl
  · rw [nearCased, List.dropWhile_cons_of_pos (by simp [h])]
    rfl

theorem nearCased_append : nearCased (s ++ t) = (nearCased s || passed s && nearCased t) := by
  induction s with
  | nil => simp [nearCased, passed]
  | cons c s ih =>
    by_cases h : isCaseIgnorable c
    · simpa [nearCased_cons, passed, h] using ih
    · simp [nearCased_cons, passed, h]

theorem nearCased_of_passed (h : passed s) : nearCased s = false := by
  rw [nearCased, List.dropWhile_eq_nil_iff.mpr (List.all_eq_true.mp h)]

/-- Whether a capital sigma ends a word: `before` holds what stands before it, nearest first. -/
def isFinal (before rest : Chars) : Bool := nearCased before && !nearCased rest

/-- What becomes of a character in its place. -/
def lowerAt (before rest : Chars) (c : Char) : Chars :=
  if c = 'Σ' then [if isFinal before rest then 'ς' else 'σ']
  else if c = 'İ' then ['i', '\u0307']
  else [lowerChar c]

theorem lowerFrom_cons : lowerFrom b (c :: s) = lowerAt b s c ++ lowerFrom (c :: b) s := rfl

theorem lowerAt_of_ne (h : c ≠ 'Σ') : lowerAt b s c = lowerAt b' t c := by simp [lowerAt, h]

/-! ## The lower case of a part -/

/-- The characters of a text, each between what stands before it and behind it. -/
def places : Chars → List (Chars × Char × Chars)
  | [] => []
  | c :: s => ([], c, s) :: (places s).map fun q => (c :: q.1, q.2)

theorem mem_places : (p, c, s) ∈ places x ↔ x = p ++ c :: s := by
  induction x generalizing p with
  | nil => simp [places]
  | cons d x ih =>
    cases p with
    | nil => simp [places, eq_comm]
    | cons e p => simp [places, ih, eq_comm, and_comm]

/-- The lower case of a part between `before`, nearest first, and `after`. -/
def lowerWithin (before after x : Chars) : Chars :=
  (places x).flatMap fun q => lowerAt (q.1.reverse ++ before) (q.2.2 ++ after) q.2.1

theorem lowerWithin_cons :
    lowerWithin b a (c :: s) = lowerAt b (s ++ a) c ++ lowerWithin (c :: b) a s := by
  simp [lowerWithin, places, List.flatMap_map]

theorem lowerFrom_append :
    lowerFrom b (x ++ a) = lowerWithin b a x ++ lowerFrom (x.reverse ++ b) a := by
  induction x generalizing b with
  | nil => rfl
  | cons c x ih => simp [lowerFrom_cons, lowerWithin_cons, ih]

theorem lower_eq : lower x = lowerWithin [] [] x := by
  simpa [lower, lowerFrom] using lowerFrom_append (b := []) (a := []) (x := x)

/-- Only sigmas can tell two surroundings apart. -/
theorem lowerWithin_congr
    (h : ∀ p s, x = p ++ 'Σ' :: s →
      isFinal (p.reverse ++ b) (s ++ a) = isFinal (p.reverse ++ b') (s ++ a')) :
    lowerWithin b a x = lowerWithin b' a' x := by
  refine List.flatMap_congr fun ⟨p, c, s⟩ hmem => ?_
  by_cases hc : c = 'Σ'
  · subst hc
    simp [lowerAt, h p s (mem_places.mp hmem)]
  · exact lowerAt_of_ne hc

/-- If in one surrounding no sigma gives more of a character than in another, and one gives less,
then so does the whole part. -/
theorem count_lowerWithin_lt
    (hle : ∀ p s : Chars, (lowerAt (p.reverse ++ b) (s ++ a) 'Σ').count k ≤
      (lowerAt (p.reverse ++ b') (s ++ a') 'Σ').count k)
    (hx : x = p ++ 'Σ' :: s)
    (hlt : (lowerAt (p.reverse ++ b) (s ++ a) 'Σ').count k <
      (lowerAt (p.reverse ++ b') (s ++ a') 'Σ').count k) :
    (lowerWithin b a x).count k < (lowerWithin b' a' x).count k := by
  simp only [lowerWithin, List.count_flatMap]
  refine List.sum_lt_sum _ _ (fun ⟨p, c, s⟩ _ => ?_) ⟨_, mem_places.mpr hx, hlt⟩
  by_cases hc : c = 'Σ'
  · exact hc ▸ hle p s
  · exact (congrArg (List.count k) (lowerAt_of_ne hc)).le

/-! ## Loose sigmas -/

/-- A capital sigma of `x` is final or not as other text stands around `x`: all before it is passed
over and no letter is behind it, or a letter is before it and all behind it is passed over. -/
def Loose (x : Chars) : Prop :=
  ∃ p s, x = p ++ 'Σ' :: s ∧
    (passed p ∧ nearCased s = false ∨ nearCased p.reverse ∧ passed s)

theorem lowerWithin_of_not_loose (h : ¬ Loose x) : lowerWithin b a x = lower x := by
  rw [lower_eq]
  refine lowerWithin_congr fun p s hx => ?_
  have hfixed : ¬ (passed p ∧ nearCased s = false ∨ nearCased p.reverse ∧ passed s) :=
    fun hloose => h ⟨p, s, hx, hloose⟩
  -- what stands around the part is seen only through an end that is passed over
  simp only [isFinal, nearCased_append, passed_reverse, List.append_nil]
  revert hfixed
  cases passed p <;> cases nearCased s <;> cases nearCased p.reverse <;> cases passed s <;> simp

theorem lower_isInfix (h : ¬ Loose x) (hx : x <:+: t) : lower x <:+: lower t := by
  obtain ⟨u, v, rfl⟩ := hx
  rw [List.append_assoc, lower.eq_1 (u ++ _), lowerFrom_append, lowerFrom_append,
    lowerWithin_of_not_loose h, ← List.append_assoc]
  exact List.infix_append _ _ _

theorem nearCased_a : nearCased ('a' :: s) = true := by
  simp [nearCased_cons, isCaseIgnorable_a, isCased_a]

theorem lowerFrom_a : lowerFrom b ('a' :: s) = 'a' :: lowerFrom ('a' :: b) s := by
  simp [lowerFrom_cons, lowerAt, lowerChar_a]

theorem not_isInfix_of_count_lt (h : t.count k < x.count k) : ¬ x <:+: t :=
  fun hin => (hin.sublist.count_le k).not_gt h

/-- A letter before the part makes a sigma final that no letter stands before. -/
theorem not_isInfix_lower_cons (hx : x = p ++ 'Σ' :: s) (hp : passed p) (hs : nearCased s = false) :
    ¬ lower x <:+: lower ('a' :: x) := by
  have hlt : (lowerWithin ['a'] [] x).count 'σ' < (lowerWithin [] [] x).count 'σ' := by
    -- with a letter before it a sigma may become final, and none ceases to be
    refine count_lowerWithin_lt (fun p s => ?_) hx ?_
    · simp only [lowerAt, isFinal, nearCased_append, nearCased_a, nearCased_nil, passed_reverse]
      cases nearCased p.reverse <;> cases nearCased s <;> cases passed p <;> simp
    · simp [lowerAt, isFinal, nearCased_append, nearCased_a, hp, hs,
        nearCased_of_passed (passed_reverse.trans hp)]
  have hlower : lower ('a' :: x) = 'a' :: lowerWithin ['a'] [] x := by
    have happ := lowerFrom_append (b := ['a']) (a := []) (x := x)
    rw [List.append_nil, lowerFrom.eq_1, List.append_nil] at happ
    rw [lower, lowerFrom_a, happ]
  rw [hlower, lower_eq]
  exact not_isInfix_of_count_lt (k := 'σ') (by rwa [List.count_cons_of_ne (by decide)])

/-- A letter behind the part keeps a sigma from being final that ends a word without it. -/
theorem not_isInfix_lower_concat (hx : x = p ++ 'Σ' :: s) (hp : nearCased p.reverse)
    (hs : passed s) : ¬ lower x <:+: lower (x ++ ['a']) := by
  have hlt : (lowerWithin [] ['a'] x).count 'ς' < (lowerWithin [] [] x).count 'ς' := by
    refine count_lowerWithin_lt (fun p s => ?_) hx ?_
    · simp only [lowerAt, isFinal, nearCased_append, nearCased_a, nearCased_nil]
      cases nearCased p.reverse <;> cases nearCased s <;> cases passed s <;> simp
    · simp [lowerAt, isFinal, nearCased_append, nearCased_a, hp, hs, nearCased_of_passed hs]
  have hlower : lower (x ++ ['a']) = lowerWithin [] ['a'] x ++ ['a'] := by
    rw [lower, lowerFrom_append, lowerFrom_a, lowerFrom.eq_1]
  rw [hlower, lower_eq]
  exact not_isInfix_of_count_lt (k := 'ς') (by rwa [List.count_append])

theorem exists_not_isInfix (h : Loose x) : ∃ t, x <:+: t ∧ ¬ lower x <:+: lower t := by
  obtain ⟨p, s, hx, ⟨hp, hs⟩ | ⟨hp, hs⟩⟩ := h
  · exact ⟨_, (List.suffix_cons 'a' x).isInfix, not_isInfix_lower_cons hx hp hs⟩
  · exact ⟨_, (List.prefix_append x ['a']).isInfix, not_isInfix_lower_concat hx hp hs⟩

/-- Without a small sigma in the lower case there was no capital one. -/
theorem not_loose_of_notMem (hσ : 'σ' ∉ lower x) (hς : 'ς' ∉ lower x) : ¬ Loose x := by
  rintro ⟨p, s, hx, -⟩
  have hsub : lowerAt p.reverse s 'Σ' ⊆ lower x := fun c hc => by
    rw [lower_eq]
    exact List.mem_flatMap.mpr ⟨_, mem_places.mpr hx, by simpa using hc⟩
  cases h : isFinal p.reverse s with
  | true => exact hς (hsub (by simp [lowerAt, h]))
  | false => exact hσ (hsub (by simp [lowerAt, h]))

/-- Which parts are found in lower case wherever they are found. -/
theorem lower_isInfix_iff : (∀ t, x <:+: t → lower x <:+: lower t) ↔ ¬ Loose x := by
  constructor
  · intro h hloose
    obtain ⟨t, hx, hnot⟩ := exists_not_isInfix hloose
    exact hnot (h t hx)
  · exact fun h t hx => lower_isInfix h hx

end Worksite.Text
