import Worksite.Proofs.Symbol.Declaration
import Worksite.Proofs.Text.Words
import Worksite.Proofs.Unicode.Space

/-!
Whole names. The name of a declaration goes on as far as a name can, and a character of a name
stands before it in one case only: where the keyword `function` runs into what follows it.
-/
namespace Worksite

namespace Declaration

open Text (Chars Blank)

variable {s line name rest before after trail lead x y z : Chars} {word : String}
  {kind : SymbolKind} {c : Char}

/-- A letter, an underscore or a dollar sign, and behind it characters of words or dollar signs. -/
def IsName (name : Chars) : Prop :=
  ∃ c rest, name = c :: rest ∧ isNameStart c ∧ ∀ d ∈ rest, isNameRest d

/-- The name stands behind `before`, and no character of a name follows it. -/
structure StandsIn (line before name after : Chars) : Prop where
  line_eq : line = before ++ (name ++ after)
  isName : IsName name
  stops : ∀ c ∈ after.head?, isNameRest c = false

/-- No character of a name stands at the end. -/
def Detached (before : Chars) : Prop := ∀ c ∈ before.getLast?, isNameRest c = false

theorem isNameRest_of_isSpace (h : Unicode.isSpace c) : isNameRest c = false := by
  have hdollar : c ≠ '$' := by
    rintro rfl
    exact absurd h (by decide)
  rw [isNameRest, Unicode.isWord_of_isSpace h, Bool.false_or]
  exact decide_eq_false hdollar

theorem isNameRest_of_isNameStart (h : isNameStart c) : isNameRest c := by
  simp only [isNameStart, Bool.or_eq_true, decide_eq_true_eq] at h
  rcases h with (halpha | rfl) | rfl
  · have hnarrow : c.toNat < 128 := by
      simp only [Char.isAlpha, Char.isUpper, Char.isLower, Bool.or_eq_true, Bool.and_eq_true,
        decide_eq_true_eq, ge_iff_le, UInt32.le_iff_toNat_le] at halpha
      rw [Char.toNat]
      rcases halpha with ⟨-, hle⟩ | ⟨-, hle⟩ <;> exact hle.trans_lt (by decide)
    rw [isNameRest, Unicode.isWord, if_pos hnarrow, Unicode.isAsciiWord, Char.isAlphanum, halpha]
    rfl
  · decide
  · decide

theorem isSpace_of_isNameStart (h : isNameStart c) : Unicode.isSpace c = false := by
  rw [← Bool.not_eq_true]
  intro hspace
  exact Bool.false_ne_true ((isNameRest_of_isSpace hspace).symm.trans (isNameRest_of_isNameStart h))

theorem detached_append (hx : ∀ c ∈ x, isNameRest c = false) (hne : x ≠ []) (lead : Chars) :
    Detached (lead ++ x) := by
  intro c hc
  rw [List.getLast?_append_of_ne_nil _ hne] at hc
  exact hx c (List.mem_of_getLast? hc)

theorem Detached.blank_append (h : Detached before) (hx : Blank x) : Detached (x ++ before) := by
  intro c hc
  rw [List.getLast?_append] at hc
  cases hlast : before.getLast? with
  | some d =>
    rw [hlast] at hc
    exact h c (hlast.trans hc)
  | none =>
    rw [hlast] at hc
    exact isNameRest_of_isSpace (hx c (List.mem_of_getLast? hc))

theorem StandsIn.append (h : StandsIn s before name after) (lead : Chars) :
    StandsIn (lead ++ s) (lead ++ before) name after :=
  ⟨by rw [h.line_eq, List.append_assoc], h.isName, h.stops⟩

/-- White space behind a line belongs to no name of it. -/
theorem StandsIn.append_blank (h : StandsIn s before name after) (htrail : Blank trail) :
    StandsIn (s ++ trail) before name (after ++ trail) := by
  refine ⟨by simp [h.line_eq], h.isName, fun c hc => ?_⟩
  cases after with
  | nil => exact isNameRest_of_isSpace (htrail c (List.mem_of_head? hc))
  | cons d after => exact h.stops c hc

theorem name?_cons (hc : isNameStart c) (s : Chars) :
    name? (c :: s) = some (c :: s.takeWhile isNameRest, s.dropWhile isNameRest) := if_pos hc

theorem name?_eq_some (h : name? s = some (name, rest)) : StandsIn s [] name rest := by
  cases s with
  | nil => cases h
  | cons c s =>
    rw [name?] at h
    split_ifs at h with hc
    obtain ⟨rfl, rfl⟩ := Prod.mk.inj (Option.some.inj h)
    refine ⟨?_, ⟨c, _, rfl, hc, fun d hd => List.mem_takeWhile_imp hd⟩, fun d hd => ?_⟩
    · rw [List.nil_append, List.cons_append, List.takeWhile_append_dropWhile]
    · have hnot := List.head?_dropWhile_not isNameRest s
      rwa [show (s.dropWhile isNameRest).head? = some d from hd] at hnot

/-! ## Words before a name -/

theorem afterWord?_eq_some (h : afterWord? word s = some rest) :
    ∃ gap, Blank gap ∧ gap ≠ [] ∧ s = word.toList ++ (gap ++ rest) := by
  obtain ⟨behind, hbehind, h⟩ := Option.bind_eq_some_iff.mp h
  split_ifs at h with hspace
  obtain rfl := Option.some.inj h
  obtain ⟨gap, hgap, heq⟩ := Text.exists_trimStart behind
  refine ⟨gap, hgap, ?_, by rw [← heq, Text.afterLead?_eq_some.mp hbehind]⟩
  rintro rfl
  obtain ⟨c, hc, hcspace⟩ := Option.any_eq_true _ _ |>.mp hspace
  rw [heq] at hc
  exact absurd hcspace (by simp [Text.head?_trimStart behind c hc])

theorem afterWord?_append (hx : Blank x) (hne : x ≠ [])
    (h : ∀ c ∈ rest.head?, Unicode.isSpace c = false) :
    afterWord? word (word.toList ++ (x ++ rest)) = some rest := by
  obtain ⟨c, x, rfl⟩ := List.exists_cons_of_ne_nil hne
  rw [afterWord?, Text.afterLead?_append]
  refine (if_pos ?_).trans ?_
  · simpa using hx c List.mem_cons_self
  · rw [Text.trimStart_blank_append hx, Text.trimStart_eq_self h]

/-- The word and white space behind it, or nothing. -/
def Optionally (word : String) (x : Chars) : Prop :=
  x = [] ∨ ∃ gap, Blank gap ∧ gap ≠ [] ∧ x = word.toList ++ gap

theorem passWord_eq (word : String) (s : Chars) :
    ∃ x, Optionally word x ∧ s = x ++ passWord word s := by
  rw [passWord]
  cases hafter : afterWord? word s with
  | none => exact ⟨[], .inl rfl, rfl⟩
  | some rest =>
    obtain ⟨gap, hgap, hne, rfl⟩ := afterWord?_eq_some hafter
    exact ⟨word.toList ++ gap, .inr ⟨gap, hgap, hne, rfl⟩, by rw [List.append_assoc]; rfl⟩

/-- What begins with neither the word nor white space is left when the word is passed over. -/
theorem passWord_append {heads : List (Option Char)} (hx : Optionally word x)
    (hword : word.toList ≠ []) (hhead : rest.head? ∈ heads)
    (hother : heads.all fun o => o.all (!Unicode.isSpace ·) && o != word.toList.head?) :
    passWord word (x ++ rest) = rest := by
  obtain ⟨hspace, hne⟩ := Bool.and_eq_true_iff.mp (List.all_eq_true.mp hother _ hhead)
  have hspace : ∀ c ∈ rest.head?, Unicode.isSpace c = false := fun c hc => by
    rw [show rest.head? = some c from hc] at hspace
    simpa using hspace
  rw [passWord]
  rcases hx with rfl | ⟨gap, hgap, hgapless, rfl⟩
  · have hnone : afterWord? word rest = none := by
      rw [afterWord?, Text.afterLead?_of_head?_ne hword (bne_iff_ne.mp hne)]
      rfl
    rw [List.nil_append, hnone]
    rfl
  · rw [List.append_assoc, afterWord?_append hgap hgapless hspace]
    rfl

theorem head?_optionally (hx : Optionally word x) (hword : word.toList ≠ []) (rest : Chars) :
    (x ++ rest).head? = word.toList.head? ∨ (x ++ rest).head? = rest.head? := by
  rcases hx with rfl | ⟨gap, -, -, rfl⟩
  · exact .inr rfl
  · rw [List.append_assoc, List.head?_append_of_ne_nil _ hword]
    exact .inl rfl

theorem passChar_eq (d : Char) (s : Chars) :
    ∃ x, (∀ c ∈ x, c = d) ∧ s = x ++ passChar d s := by
  cases s with
  | nil => exact ⟨[], by simp, rfl⟩
  | cons c s =>
    rw [passChar]
    split_ifs with hc
    · exact ⟨[c], by simpa using hc, rfl⟩
    · exact ⟨[], by simp, rfl⟩

/-! ## The three forms -/

/-- What may stand before the keyword `function`. -/
def IsLead (lead : Chars) : Prop :=
  ∃ x y z, Optionally "export" x ∧ Optionally "default" y ∧ Optionally "async" z ∧
    lead = x ++ (y ++ z)

theorem function?_eq_some (h : function? s = some name) :
    ∃ before after, StandsIn s before name after ∧
      (Detached before ∨ ∃ lead, IsLead lead ∧ before = lead ++ "function".toList) := by
  obtain ⟨rest, hrest, h⟩ := Option.bind_eq_some_iff.mp h
  obtain ⟨⟨name', after⟩, hname, h⟩ := Option.bind_eq_some_iff.mp h
  obtain rfl := Option.some.inj h
  obtain ⟨x, hx, hs⟩ := passWord_eq "export" s
  obtain ⟨y, hy, hs'⟩ := passWord_eq "default" (passWord "export" s)
  obtain ⟨z, hz, hs''⟩ := passWord_eq "async" (passWord "default" (passWord "export" s))
  obtain ⟨g, hg, hgap⟩ := Text.exists_trimStart rest
  obtain ⟨star, hstar, hgap'⟩ := passChar_eq '*' (Text.trimStart rest)
  obtain ⟨g', hg', hgap''⟩ := Text.exists_trimStart (passChar '*' (Text.trimStart rest))
  have hkeyword := Text.afterLead?_eq_some.mp hrest
  have hline : s = x ++ (y ++ z) ++ "function".toList ++ (g ++ (star ++ g')) ++
      Text.trimStart (passChar '*' (Text.trimStart rest)) := by
    conv_lhs => rw [hs, hs', hs'', hkeyword, hgap, hgap', hgap'']
    simp only [List.append_assoc]
  refine ⟨_, after, hline ▸ (name?_eq_some hname).append _, ?_⟩
  rw [List.append_nil]
  by_cases hgapless : g ++ (star ++ g') = []
  · exact .inr ⟨x ++ (y ++ z), ⟨x, y, z, hx, hy, hz, rfl⟩, by rw [hgapless, List.append_nil]⟩
  · refine .inl (detached_append (fun c hc => ?_) hgapless _)
    rw [List.mem_append, List.mem_append] at hc
    rcases hc with hc | hc | hc
    · exact isNameRest_of_isSpace (hg c hc)
    · rw [hstar c hc]
      decide
    · exact isNameRest_of_isSpace (hg' c hc)

/-- A name behind a word and white space. -/
theorem standsIn_of_afterWord? {t u : Chars} (hsuffix : t <:+ s)
    (hword : afterWord? word t = some u) (hname : name? u = some (name, rest)) :
    ∃ before after, StandsIn s before name after ∧ Detached before := by
  obtain ⟨lead, rfl⟩ := hsuffix
  obtain ⟨gap, hgap, hne, rfl⟩ := afterWord?_eq_some hword
  have hstands := (((name?_eq_some hname).append gap).append word.toList).append lead
  refine ⟨_, rest, hstands, ?_⟩
  rw [List.append_nil, ← List.append_assoc]
  exact detached_append (fun c hc => isNameRest_of_isSpace (hgap c hc)) hne _

theorem bound?_eq_some (h : bound? s = some name) :
    ∃ before after, StandsIn s before name after ∧ Detached before := by
  obtain ⟨t, hword, h⟩ := Option.bind_eq_some_iff.mp h
  obtain ⟨⟨name', rest⟩, hname, h⟩ := Option.bind_eq_some_iff.mp h
  obtain rfl : name' = name := by
    dsimp only at h
    split at h
    · split_ifs at h
      exact Option.some.inj h
    · cases h
  have hsuffix := isSuffix_passWord "export" s
  rcases Option.or_eq_some_iff.mp hword with hconst | ⟨-, hword⟩
  · exact standsIn_of_afterWord? hsuffix hconst hname
  · rcases Option.or_eq_some_iff.mp hword with hlet | ⟨-, hvar⟩
    · exact standsIn_of_afterWord? hsuffix hlet hname
    · exact standsIn_of_afterWord? hsuffix hvar hname

theorem class?_eq_some (h : class? s = some name) :
    ∃ before after, StandsIn s before name after ∧ Detached before := by
  obtain ⟨t, hword, h⟩ := Option.bind_eq_some_iff.mp h
  obtain ⟨⟨name', rest⟩, hname, h⟩ := Option.bind_eq_some_iff.mp h
  obtain rfl := Option.some.inj h
  have hsuffix := (isSuffix_passWord "abstract" _).trans
    ((isSuffix_passWord "default" _).trans (isSuffix_passWord "export" s))
  exact standsIn_of_afterWord? hsuffix hword hname

theorem ofLine_eq_some (h : ofLine line = some (kind, name)) :
    function? (Text.trim line) = some name ∨
      function? (Text.trim line) = none ∧
        (bound? (Text.trim line) = some name ∨ class? (Text.trim line) = some name) := by
  -- opened as it stands: to state its equation Lean would compute the trimmed line
  delta ofLine at h
  dsimp only at h
  cases hfunction : function? (Text.trim line) with
  | some found =>
    rw [hfunction] at h
    exact .inl (congrArg (some ·.2) (Option.some.inj h))
  | none =>
    rw [hfunction, Option.none_or] at h
    refine .inr ⟨rfl, ?_⟩
    cases hbound : bound? (Text.trim line) with
    | some found =>
      rw [hbound] at h
      exact .inl (congrArg (some ·.2) (Option.some.inj h))
    | none =>
      rw [hbound] at h
      obtain ⟨found, hclass, heq⟩ := Option.map_eq_some_iff.mp h
      exact .inr (hclass.trans (congrArg (some ·.2) heq))

/-! ## Keywords that run on -/

/-- The line begins with the keyword `function`, and a name begins right behind it. -/
def RunsOn (line : Chars) : Prop :=
  ∃ g lead c rest, Blank g ∧ IsLead lead ∧ isNameStart c ∧
    line = g ++ (lead ++ ("function".toList ++ c :: rest))

/-! The words before the keyword are told apart by their first letters. -/

theorem head?_keyword (rest : Chars) : ("function".toList ++ rest).head? ∈ [some 'f'] :=
  List.mem_cons_self

theorem head?_async (hz : Optionally "async" z) (rest : Chars) :
    (z ++ ("function".toList ++ rest)).head? ∈ [some 'a', some 'f'] := by
  rcases head?_optionally hz (by decide) ("function".toList ++ rest) with h | h
  · exact h ▸ by decide
  · exact h ▸ List.mem_cons_of_mem _ (head?_keyword rest)

theorem head?_default (hy : Optionally "default" y) (hz : Optionally "async" z) (rest : Chars) :
    (y ++ (z ++ ("function".toList ++ rest))).head? ∈ [some 'd', some 'a', some 'f'] := by
  rcases head?_optionally hy (by decide) (z ++ ("function".toList ++ rest)) with h | h
  · exact h ▸ by decide
  · exact h ▸ List.mem_cons_of_mem _ (head?_async hz rest)

theorem head?_lead (hlead : IsLead lead) (rest : Chars) :
    ∀ c ∈ (lead ++ ("function".toList ++ rest)).head?, Unicode.isSpace c = false := by
  obtain ⟨x, y, z, hx, hy, hz, rfl⟩ := hlead
  have hhead : (x ++ (y ++ (z ++ ("function".toList ++ rest)))).head? ∈
      [some 'e', some 'd', some 'a', some 'f'] := by
    rcases head?_optionally hx (by decide) (y ++ (z ++ ("function".toList ++ rest))) with h | h
    · exact h ▸ by decide
    · exact h ▸ List.mem_cons_of_mem _ (head?_default hy hz rest)
  rw [List.append_assoc, List.append_assoc]
  intro c hc
  rw [show _ = some c from hc] at hhead
  have hmem : c ∈ ['e', 'd', 'a', 'f'] := by simpa using hhead
  have hall : ['e', 'd', 'a', 'f'].all (!Unicode.isSpace ·) := by decide
  simpa using List.all_eq_true.mp hall c hmem

theorem function?_of_isLead (hlead : IsLead lead) (hc : isNameStart c) (rest : Chars) :
    function? (lead ++ ("function".toList ++ c :: rest)) =
      some (c :: rest.takeWhile isNameRest) := by
  obtain ⟨x, y, z, hx, hy, hz, rfl⟩ := hlead
  have hpass : passWord "async" (passWord "default" (passWord "export"
      (x ++ (y ++ z) ++ ("function".toList ++ c :: rest)))) = "function".toList ++ c :: rest := by
    rw [List.append_assoc, List.append_assoc,
      passWord_append hx (by decide) (head?_default hy hz _) (by decide),
      passWord_append hy (by decide) (head?_async hz _) (by decide),
      passWord_append hz (by decide) (head?_keyword _) (by decide)]
  have hspace : ∀ d ∈ (c :: rest).head?, Unicode.isSpace d = false := by
    rintro d ⟨⟩
    exact isSpace_of_isNameStart hc
  have hstar : passChar '*' (c :: rest) = c :: rest := by
    refine if_neg ?_
    rintro rfl
    exact absurd hc (by decide)
  rw [function?, hpass, Text.afterLead?_append]
  dsimp only [Option.bind_eq_bind, Option.bind_some]
  rw [Text.trimStart_eq_self hspace, hstar, Text.trimStart_eq_self hspace, name?_cons hc]
  rfl

/-- A line that runs on declares what stands right behind its keyword. -/
theorem RunsOn.standsIn (h : RunsOn line) :
    ∃ before name after, function? (Text.trim line) = some name ∧
      StandsIn line before name after ∧ ¬ Detached before := by
  obtain ⟨g, lead, c, rest, hg, hlead, hc, rfl⟩ := h
  obtain ⟨kept, trail, htrail, rfl, htrim⟩ :=
    Text.exists_trimEnd_cons (isSpace_of_isNameStart hc) rest
  have hname := Text.not_blank_cons (isSpace_of_isNameStart hc) (kept ++ trail)
  have hnot : ¬ Blank ("function".toList ++ c :: (kept ++ trail)) := fun hblank =>
    hname (Text.blank_append.mp hblank).2
  have htrimmed : Text.trim (g ++ (lead ++ ("function".toList ++ c :: (kept ++ trail)))) =
      lead ++ ("function".toList ++ c :: kept) := by
    rw [Text.trim_blank_append hg (head?_lead hlead _), Text.trimEnd_append hnot,
      Text.trimEnd_append hname, htrim]
  have hstands := (name?_eq_some (name?_cons hc kept)).append_blank htrail
  refine ⟨_, _, _, htrimmed ▸ function?_of_isLead hlead hc kept,
    ((hstands.append "function".toList).append lead).append g, fun hdetached => ?_⟩
  have hlast : (g ++ (lead ++ ("function".toList ++ []))).getLast? = some 'n' := by
    simp
  exact absurd (hdetached 'n' hlast) (by decide)

/-- The name that a line declares stands in it and goes on as far as it can; and what is right
before it is no character of a name, unless the line runs on. -/
theorem exists_standsIn (h : ofLine line = some (kind, name)) :
    ∃ before after, StandsIn line before name after ∧ (Detached before ↔ ¬ RunsOn line) := by
  have hfound := ofLine_eq_some h
  by_cases hruns : RunsOn line
  · obtain ⟨before, name', after, hfunction, hstands, hnot⟩ := hruns.standsIn
    obtain rfl : name' = name := by
      rcases hfound with hfound | ⟨hnone, -⟩
      · exact Option.some.inj (hfunction.symm.trans hfound)
      · rw [hfunction] at hnone
        cases hnone
    exact ⟨before, after, hstands, by simp [hnot, hruns]⟩
  · obtain ⟨g, trail, hline, hg, htrail⟩ := Path.trim_eq line
    have hplace : ∃ before after, StandsIn (Text.trim line) before name after ∧
        Detached before := by
      rcases hfound with hfunction | ⟨-, hbound | hclass⟩
      · obtain ⟨before, after, hstands, hdetached | ⟨lead, hlead, rfl⟩⟩ :=
          function?_eq_some hfunction
        · exact ⟨before, after, hstands, hdetached⟩
        · obtain ⟨c, rest, rfl, hc, -⟩ := hstands.isName
          refine absurd ⟨g, lead, c, rest ++ (after ++ trail), hg, hlead, hc, ?_⟩ hruns
          rw [hline, hstands.line_eq]
          simp only [List.append_assoc, List.cons_append]
      · exact bound?_eq_some hbound
      · exact class?_eq_some hclass
    obtain ⟨before, after, hstands, hdetached⟩ := hplace
    have hstands := (hstands.append_blank htrail).append g
    rw [← hline] at hstands
    exact ⟨g ++ before, after ++ trail, hstands, by simp [hdetached.blank_append hg, hruns]⟩

theorem exists_ofLine_of_mem_ofText {text : Chars} {n : Nat} (h : (kind, name, n) ∈ ofText text) :
    ∃ i line, n = i + 1 ∧ (Text.lines text)[i]? = some line ∧ ofLine line = some (kind, name) := by
  obtain ⟨⟨line, i⟩, hmem, h⟩ := List.mem_filterMap.mp h
  obtain ⟨⟨kind', name'⟩, hdecl, heq⟩ := Option.map_eq_some_iff.mp h
  obtain ⟨rfl, rfl, rfl⟩ : kind' = kind ∧ name' = name ∧ i + 1 = n := by simpa using heq
  exact ⟨i, line, rfl, List.mem_zipIdx_iff_getElem?.mp hmem, hdecl⟩

/-- Declarations come in the order of their lines, one from each. -/
theorem pairwise_ofText (text : Chars) : (ofText text).Pairwise (·.2.2 < ·.2.2) := by
  have hindex : (Text.lines text).zipIdx.Pairwise (·.2 < ·.2) := by
    rw [← List.pairwise_map, List.zipIdx_map_snd]
    exact List.pairwise_lt_range' ..
  refine hindex.filterMap _ fun ⟨line, i⟩ ⟨line', j⟩ hlt d hd d' hd' => ?_
  obtain ⟨e, -, rfl⟩ := Option.map_eq_some_iff.mp hd
  obtain ⟨e', -, rfl⟩ := Option.map_eq_some_iff.mp hd'
  exact Nat.succ_lt_succ hlt

end Declaration

/-- The symbols found by the form of lines come from lines that come one after another, one from
each. The name of each stands in its line and goes on as far as it can; and a character of a name
is right before it exactly if the line runs on. -/
theorem extractSymbols_whole_iff (file text : String) {language : Language}
    (hlang : language.extraction = .pattern) :
    ∃ numbers : List Nat, numbers.Pairwise (· < ·) ∧
      List.Forall₂ (fun (s : Symbol) n => s.line = UInt32.ofNat (n + 1) ∧
        ∃ line before after, (Text.lines text.toList)[n]? = some line ∧
          Declaration.StandsIn line before s.name.toList after ∧
          (Declaration.Detached before ↔ ¬ Declaration.RunsOn line))
        (extractSymbols file text language) numbers ∧
      ((Text.lines text.toList).length < 2 ^ 32 →
        (extractSymbols file text language).Pairwise (·.line < ·.line)) := by
  have hsymbols : extractSymbols file text language =
      (Declaration.ofText text.toList).map fun d =>
        { name := String.ofList d.2.1, kind := d.1, language, file,
          line := UInt32.ofNat d.2.2 } := by
    rw [extractSymbols, hlang]
  have hordered := Declaration.pairwise_ofText text.toList
  rw [hsymbols]
  refine ⟨(Declaration.ofText text.toList).map (·.2.2 - 1), ?_, ?_, fun hlen => ?_⟩
  · refine List.pairwise_map.mpr (hordered.imp_of_mem fun {a b} ha hb hlt => ?_)
    obtain ⟨i, line, hi, -⟩ := Declaration.exists_ofLine_of_mem_ofText ha
    have hpos : a.2.2 = i + 1 := hi
    omega
  · rw [List.forall₂_map_left_iff, List.forall₂_map_right_iff, List.forall₂_same]
    intro d hd
    obtain ⟨i, line, hi, hline, hdecl⟩ := Declaration.exists_ofLine_of_mem_ofText hd
    obtain ⟨before, after, hstands, hdetached⟩ := Declaration.exists_standsIn hdecl
    refine ⟨by rw [hi]; rfl, line, before, after, by rwa [hi], ?_, hdetached⟩
    rwa [String.toList_ofList]
  · refine List.pairwise_map.mpr (hordered.imp_of_mem fun {a b} ha hb hlt => ?_)
    obtain ⟨i, line, hi, hline, -⟩ := Declaration.exists_ofLine_of_mem_ofText hb
    obtain ⟨hlast, -⟩ := List.getElem?_eq_some_iff.mp hline
    have hle : b.2.2 ≤ (Text.lines text.toList).length := hi ▸ hlast
    rw [UInt32.lt_iff_toNat_lt, UInt32.toNat_ofNat_of_lt' (show a.2.2 < 2 ^ 32 by omega),
      UInt32.toNat_ofNat_of_lt' (show b.2.2 < 2 ^ 32 by omega)]
    exact hlt

theorem extractSymbols_whole_iff_class :
    Language.typeScript.extraction = .pattern ∧
      extractSymbols "m.ts" " class $a {}" .typeScript =
        [⟨"$a", .class, .typeScript, "m.ts", 1⟩] ∧
      ∃ before after, Declaration.StandsIn " class $a {}".toList before "$a".toList after ∧
        Declaration.Detached before := by
  have hsymbols : extractSymbols "m.ts" " class $a {}" .typeScript =
      [⟨"$a", .class, .typeScript, "m.ts", 1⟩] := by decide +kernel
  have hlines : Text.lines " class $a {}".toList = [" class $a {}".toList] := by decide +kernel
  have hother : Declaration.function? (Text.trim " class $a {}".toList) = none := by decide +kernel
  obtain ⟨numbers, -, hall, -⟩ := extractSymbols_whole_iff "m.ts" " class $a {}"
    (show Language.typeScript.extraction = .pattern from rfl)
  refine ⟨rfl, hsymbols, ?_⟩
  rw [hsymbols, hlines] at hall
  obtain ⟨n, -, ⟨-, line, before, after, hline, hstands, hdetached⟩, -, -⟩ :=
    List.forall₂_cons_left_iff.mp hall
  obtain rfl := List.mem_singleton.mp (List.mem_of_getElem? hline)
  refine ⟨before, after, hstands, hdetached.mpr fun hruns => ?_⟩
  obtain ⟨-, name, -, hfunction, -⟩ := hruns.standsIn
  exact Option.some_ne_none name (hfunction.symm.trans hother)

/-- A call of something whose name begins with the keyword is taken for a function with the rest
of the name. -/
theorem extractSymbols_cuts_name :
    extractSymbols "a.js" "functionality();" .javaScript =
        [⟨"ality", .function, .javaScript, "a.js", 1⟩] ∧
      ∀ before after, Declaration.StandsIn "functionality();".toList before "ality".toList after →
        ¬ Declaration.Detached before := by
  refine ⟨by decide +kernel, fun before after hstands hdetached => ?_⟩
  have hline := hstands.line_eq
  have hle : before.length < 17 := by
    have hlen := congrArg List.length hline
    have htotal : "functionality();".toList.length = 16 := by decide +kernel
    rw [htotal, List.length_append] at hlen
    omega
  -- there is one place for the name
  have hplace : ∀ i < 17, ("functionality();".toList.drop i).take 5 = "ality".toList → i = 8 := by
    decide +kernel
  have hbefore : before.length = 8 := hplace _ hle (by rw [hline]; simp)
  have heq : before = "functionality();".toList.take 8 := by
    rw [hline, ← hbefore, List.take_left]
  rw [heq] at hdetached
  exact absurd (hdetached 'n' (by decide +kernel)) (by decide)

end Worksite
