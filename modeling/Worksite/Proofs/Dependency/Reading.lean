import Worksite.Proofs.Dependency
import Worksite.Proofs.Dependency.ModuleName

/-!
What is read of the lines that open with `import` or `from`: the first words of the parts between
commas, without parentheses around them, or the first word before `import`. White space around the
parts and at the end of the line makes no difference, nor does a comment.
-/
namespace Worksite

namespace Dependency

open Text (Chars Blank)

variable {s t u g rest tail body : Chars} {c : Char}

/-! ## The parts of a list -/

/-- What is read of a part between commas. -/
def reading (part : Chars) : Option Chars :=
  ((Text.words part).head?.map trimParentheses).filter (· ≠ [])

def readings (s : Chars) : List Chars := (s.splitOnP (· = ',')).filterMap reading

/-- What is read behind the first comma. -/
def strays (s : Chars) : List Chars := readings ((s.dropWhile (· ≠ ',')).drop 1)

theorem strays_of_not_mem (h : ',' ∉ s) : strays s = [] := by
  have hnone : s.dropWhile (· ≠ ',') = [] := List.dropWhile_eq_nil_iff.mpr fun c hc => by
    simpa using fun heq : c = ',' => h (heq ▸ hc)
  rw [strays, hnone]
  rfl

theorem reading_blank_append (hg : Blank g) (s : Chars) : reading (g ++ s) = reading s := by
  rw [reading, reading, Text.words_blank_append hg]

theorem reading_append_blank (hg : Blank g) (s : Chars) : reading (s ++ g) = reading s := by
  rw [reading, reading, Text.words_append_blank hg]

theorem readings_of_not_mem (h : ',' ∉ s) : readings s = (reading s).toList := by
  have hone : s.splitOnP (· = ',') = [s] := List.splitOnP_eq_singleton fun c hc => by
    simpa using fun heq : c = ',' => h (heq ▸ hc)
  rw [readings, hone, List.filterMap_cons]
  cases reading s <;> rfl

theorem readings_append_comma (s t : Chars) :
    readings (s ++ ',' :: t) = readings s ++ readings t := by
  rw [readings, List.splitOnP_append_cons s t (by simp), List.filterMap_append]
  rfl

theorem readings_append (h : ',' ∉ s) (t : Chars) :
    readings (s ++ t) = (reading (s ++ t.takeWhile (· ≠ ','))).toList ++ strays t := by
  have hsplit : t.takeWhile (· ≠ ',') ++ t.dropWhile (· ≠ ',') = t :=
    List.takeWhile_append_dropWhile
  have hfront : ',' ∉ s ++ t.takeWhile (· ≠ ',') := fun hmem => by
    rcases List.mem_append.mp hmem with hmem | hmem
    · exact h hmem
    · simpa using List.mem_takeWhile_imp hmem
  rw [← readings_of_not_mem hfront, strays]
  cases hbehind : t.dropWhile (· ≠ ',') with
  | nil =>
    rw [hbehind, List.append_nil] at hsplit
    rw [hsplit]
    exact (List.append_nil _).symm
  | cons c behind =>
    have hcomma : c = ',' := by
      have hstop := List.head?_dropWhile_not (· ≠ ',') t
      rw [hbehind] at hstop
      simpa using hstop
    rw [hbehind, hcomma] at hsplit
    calc readings (s ++ t)
        = readings (s ++ t.takeWhile (· ≠ ',') ++ ',' :: behind) := by
          rw [List.append_assoc, hsplit]
      _ = readings (s ++ t.takeWhile (· ≠ ',')) ++ readings behind := readings_append_comma _ _

theorem readings_blank_append (hg : Blank g) (s : Chars) : readings (g ++ s) = readings s := by
  have hcomma : ',' ∉ g := fun hmem => absurd (hg ',' hmem) (by decide)
  have hnil : readings s = readings ([] ++ s) := rfl
  rw [hnil, readings_append hcomma, readings_append (by simp), reading_blank_append hg,
    List.nil_append]

theorem readings_append_blank (hg : Blank g) (s : Chars) : readings (s ++ g) = readings s := by
  have hcomma : ',' ∉ g := fun hmem => absurd (hg ',' hmem) (by decide)
  by_cases h : ',' ∈ s
  · obtain ⟨front, behind, hs⟩ := List.append_of_mem h
    have hshort : behind.length < s.length := by
      rw [hs, List.length_append, List.length_cons]
      omega
    rw [hs, List.append_assoc, List.cons_append, readings_append_comma, readings_append_comma,
      readings_append_blank hg behind]
  · have hboth : ',' ∉ s ++ g := by simp [h, hcomma]
    rw [readings_of_not_mem hboth, readings_of_not_mem h, reading_append_blank hg]
termination_by s.length

/-! ## Comments and parentheses -/

theorem uncommented_append (h : '#' ∉ s) (t : Chars) :
    uncommented (s ++ t) = s ++ uncommented t :=
  List.takeWhile_append_of_pos fun c hc => by simpa using fun heq : c = '#' => h (heq ▸ hc)

/-- White space at the end is cut off, or is part of the comment. -/
theorem exists_uncommented_trimEnd (s : Chars) :
    ∃ g, Blank g ∧ uncommented s = uncommented (Text.trimEnd s) ++ g := by
  obtain ⟨g, hg, hs⟩ := Text.exists_trimEnd s
  conv => enter [1, g, 2, 1]; rw [hs]
  rw [uncommented, List.takeWhile_append]
  split_ifs
  · have hall : uncommented (Text.trimEnd s) = Text.trimEnd s :=
      List.Sublist.eq_of_length (List.takeWhile_sublist _) ‹_›
    exact ⟨g.takeWhile (· ≠ '#'), fun c hc => hg c (List.takeWhile_subset _ hc), by rw [hall]⟩
  · exact ⟨[], nofun, (List.append_nil _).symm⟩

theorem trimParentheses_eq_self (h : ∀ c ∈ s, isParenthesis c = false) :
    trimParentheses s = s := by
  have hkeep : ∀ t : Chars, (∀ c ∈ t, isParenthesis c = false) →
      t.dropWhile isParenthesis = t := by
    intro t ht
    cases t with
    | nil => rfl
    | cons c t => exact List.dropWhile_cons_of_neg (by simp [ht c List.mem_cons_self])
  rw [trimParentheses, hkeep s h, hkeep s.reverse (by simpa using h), List.reverse_reverse]

theorem mem_dropWhile {p : Char → Bool} (h : p c = false) : c ∈ s.dropWhile p ↔ c ∈ s := by
  refine ⟨fun hc => (List.dropWhile_suffix p).mem hc, fun hc => ?_⟩
  rw [← List.takeWhile_append_dropWhile (p := p) (l := s)] at hc
  rcases List.mem_append.mp hc with hc | hc
  · exact absurd (h.symm.trans (List.mem_takeWhile_imp hc)) Bool.false_ne_true
  · exact hc

theorem mem_trimParentheses (h : isParenthesis c = false) :
    c ∈ trimParentheses s ↔ c ∈ s := by
  rw [trimParentheses, List.mem_reverse, mem_dropWhile h, List.mem_reverse, mem_dropWhile h]

theorem isParenthesis_of_isModuleChar (h : isModuleChar c) : isParenthesis c = false := by
  rw [← Bool.not_eq_true]
  intro hnot
  simp only [isParenthesis, Bool.or_eq_true, decide_eq_true_eq] at hnot
  rcases hnot with rfl | rfl <;> exact absurd h (by decide)

/-- A module name with white space in it has no parenthesis. -/
theorem Spaced.no_parenthesis {m : ModuleName} (hs : Spaced m.tokens s) (hc : c ∈ s) :
    isParenthesis c = false := by
  rcases hs.signless (fun t => ModuleName.solid_of_mem_tokens) c hc with hmodule | hgap
  · exact isParenthesis_of_isModuleChar hmodule
  · have hall : gapChars.all (!isParenthesis ·) := by decide
    simpa using List.all_eq_true.mp hall c hgap

/-- A first word without a semicolon stops before what follows. -/
theorem takeWhile_subset_of_semicolon (htail : ∀ c ∈ tail.head?, Unicode.isSpace c ∨ c = ';')
    (h : ';' ∉ (s ++ tail).takeWhile (!Unicode.isSpace ·)) :
    (s ++ tail).takeWhile (!Unicode.isSpace ·) ⊆ s := by
  rw [List.takeWhile_append] at h ⊢
  split_ifs at h ⊢
  · cases tail with
    | nil => simp
    | cons c tail =>
      rcases htail c rfl with hspace | rfl
      · simp [hspace]
      · rw [List.takeWhile_cons_of_pos (by decide)] at h
        exact absurd (by simp) h
  · exact List.takeWhile_subset _

/-- The name that is read of a module and what follows it. -/
theorem reading_module {m : ModuleName} (hg : Blank g) (hs : Spaced m.tokens s)
    (htail : ∀ c ∈ tail.head?, Unicode.isSpace c ∨ c = ';') :
    ∃ name, reading (g ++ (s ++ tail)) = some name ∧
      (name = m.text ↔ s = m.text ∧ SetOff tail) := by
  have hsolid : ∀ t ∈ m.tokens, Solid t := fun t => ModuleName.solid_of_mem_tokens
  obtain ⟨c, behind, hcons, hc⟩ := hs.exists_cons hsolid
  have hword : (s ++ tail).takeWhile (!Unicode.isSpace ·) = m.text ↔ s = m.text ∧ SetOff tail :=
    hs.takeWhile_eq_iff hsolid
  have hsubset := takeWhile_subset_of_semicolon (s := s) htail
  generalize hw : (s ++ tail).takeWhile (!Unicode.isSpace ·) = word at hword hsubset
  have hfirst : c ∈ word := by
    rw [← hw, hcons, List.cons_append, List.takeWhile_cons_of_pos
      (by simp [isSpace_of_isModuleChar hc])]
    exact List.mem_cons_self
  refine ⟨trimParentheses word, ?_, ?_⟩
  · have hne : trimParentheses word ≠ [] := List.ne_nil_of_mem
      ((mem_trimParentheses (isParenthesis_of_isModuleChar hc)).mpr hfirst)
    rw [reading, Text.words_blank_append hg, hcons, List.cons_append,
      Text.words_cons (isSpace_of_isModuleChar hc), ← List.cons_append, ← hcons, hw]
    simp [hne]
  · by_cases hsemicolon : ';' ∈ word
    · -- a semicolon is no parenthesis, and it is in no name
      have hkept : ';' ∈ trimParentheses word :=
        (mem_trimParentheses (by decide)).mpr hsemicolon
      have hnot : ';' ∉ m.text := fun hmem =>
        absurd (ModuleName.isModuleChar_of_mem_text hmem) (by decide)
      refine iff_of_false (fun h => hnot (h ▸ hkept)) fun h => hnot ?_
      exact hword.mpr h ▸ hsemicolon
    · rw [trimParentheses_eq_self fun d hd => hs.no_parenthesis (hsubset hsemicolon hd)]
      exact hword

/-! ## Lines by their keywords -/

theorem pythonLine_import (hg : Blank g) (hbody : ¬ Blank body) :
    pythonLine (g ++ ("import ".toList ++ body)) = readings (uncommented body) := by
  have htrim : Text.trim (g ++ ("import ".toList ++ body)) =
      "import ".toList ++ Text.trimEnd body := by
    rw [Text.trim_blank_append hg (by rintro c ⟨⟩; decide), Text.trimEnd_append hbody]
  obtain ⟨g', hg', huncommented⟩ := exists_uncommented_trimEnd body
  rw [pythonLine, htrim, Text.afterLead?_append, huncommented, readings_append_blank hg', readings]
  dsimp only
  rw [List.map_filterMap, List.filter_filterMap]
  rfl

/-- The first word, if the second is the keyword. -/
def beforeKeyword? : List Chars → Option Chars
  | name :: word :: _ => if word = "import".toList then some name else none
  | _ => none

theorem eq_of_beforeKeyword? {first name : Chars} {more : List Chars}
    (h : beforeKeyword? (first :: more) = some name) : first = name := by
  cases more with
  | nil => cases h
  | cons word more =>
    rw [beforeKeyword?] at h
    split_ifs at h
    exact Option.some.inj h

theorem pythonLine_from (hg : Blank g) (hbody : ¬ Blank body) :
    pythonLine (g ++ ("from ".toList ++ body)) =
      (beforeKeyword? (Text.words (uncommented body))).toList := by
  have htrim : Text.trim (g ++ ("from ".toList ++ body)) =
      "from ".toList ++ Text.trimEnd body := by
    rw [Text.trim_blank_append hg (by rintro c ⟨⟩; decide), Text.trimEnd_append hbody]
  have hother : Text.afterLead? "import ".toList ("from ".toList ++ Text.trimEnd body) = none :=
    Text.afterLead?_of_head?_ne (by decide) (show some 'f' ≠ some 'i' by decide)
  obtain ⟨g', hg', huncommented⟩ := exists_uncommented_trimEnd body
  rw [pythonLine, htrim, hother, Text.afterLead?_append, huncommented,
    Text.words_append_blank hg']
  dsimp only [Option.map_some]
  rcases Text.words (uncommented (Text.trimEnd body)) with - | ⟨name, - | ⟨word, more⟩⟩
  · rfl
  · rfl
  · rw [beforeKeyword?]
    split_ifs with h
    · exact if_pos h
    · exact if_neg h

/-- Behind the keyword there must be a space. -/
theorem pythonLine_eq_nil {keyword : Chars} (hkeyword : keyword ∈ ["import".toList, "from".toList])
    (hg : Blank g) (hbody : body.head? ≠ some ' ') : pythonLine (g ++ (keyword ++ body)) = [] := by
  obtain ⟨g', -, htrim⟩ := Text.exists_trimEnd (keyword ++ body)
  have hnone : ∀ other ∈ ["import".toList, "from".toList],
      Text.afterLead? (other ++ [' ']) (Text.trimEnd (keyword ++ body)) = none := by
    intro other hother
    cases hfound : Text.afterLead? (other ++ [' ']) (Text.trimEnd (keyword ++ body)) with
    | none => rfl
    | some behind =>
      rw [Text.afterLead?_eq_some.mp hfound] at htrim
      rcases List.mem_pair.mp hkeyword with rfl | rfl <;>
        rcases List.mem_pair.mp hother with rfl | rfl
      · exact absurd (by simp_all) hbody
      · simp at htrim
      · simp at htrim
      · exact absurd (by simp_all) hbody
  have hhead : ∀ c ∈ (keyword ++ body).head?, Unicode.isSpace c = false := by
    rcases List.mem_pair.mp hkeyword with rfl | rfl <;> (rintro c ⟨⟩; decide)
  rw [pythonLine, Text.trim_blank_append hg hhead]
  have himport : Text.afterLead? "import ".toList (Text.trimEnd (keyword ++ body)) = none :=
    hnone "import".toList (by decide)
  have hfrom : Text.afterLead? "from ".toList (Text.trimEnd (keyword ++ body)) = none :=
    hnone "from".toList (by decide)
  rw [himport, hfrom]
  rfl

end Dependency

end Worksite
