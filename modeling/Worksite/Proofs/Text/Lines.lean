import Mathlib
import Worksite.Text

/-!
Lines of a text: put together they are the text, each but the last ends at a line feed, and without
its end a line is what `lines` has in the same place.
-/
namespace Worksite.Text

variable {text line shown : Chars} {i n : Nat}

/-- One line: there is something in it, and a line feed stands at its end if anywhere. -/
structure IsLine (line : Chars) : Prop where
  ne_nil : line ≠ []
  lineFeed : '\n' ∉ line.dropLast

/-- A line that does not end at a line feed has none. -/
theorem IsLine.not_mem (h : IsLine line) (hlast : line.getLast? ≠ some '\n') : '\n' ∉ line := by
  intro hmem
  rw [← List.dropLast_append_getLast h.ne_nil, List.mem_append, List.mem_singleton] at hmem
  rcases hmem with hmem | hmem
  · exact h.lineFeed hmem
  · exact hlast (by rw [List.getLast?_eq_getLast_of_ne_nil h.ne_nil, ← hmem])

theorem flatten_splitLines (text : Chars) : (splitLines text).flatten = text := by
  fun_induction splitLines text with
  | case1 => rfl
  | case2 rest ih => rw [List.flatten_cons, ih, List.singleton_append]
  | case3 c rest _ hrest ih =>
    rw [hrest] at ih
    rw [← ih]
    rfl
  | case4 c rest _ line more hrest ih =>
    rw [hrest] at ih
    rw [← ih]
    rfl

theorem isLine_of_mem_splitLines (h : line ∈ splitLines text) : IsLine line := by
  fun_induction splitLines text generalizing line with
  | case1 => cases h
  | case2 rest ih =>
    rcases List.mem_cons.mp h with rfl | h
    · exact ⟨by simp, by simp⟩
    · exact ih h
  | case3 c rest _ hrest ih =>
    obtain rfl := List.mem_singleton.mp h
    exact ⟨by simp, by simp⟩
  | case4 c rest hc first more hrest ih =>
    rw [hrest] at ih
    rcases List.mem_cons.mp h with rfl | h
    · have hfirst := ih List.mem_cons_self
      refine ⟨List.cons_ne_nil _ _, ?_⟩
      rw [List.dropLast_cons_of_ne_nil hfirst.ne_nil]
      exact mt List.mem_cons.mp (not_or.mpr ⟨Ne.symm hc, hfirst.lineFeed⟩)
    · exact ih (List.mem_cons_of_mem _ h)

theorem length_le_of_mem_splitLines (h : line ∈ splitLines text) : line.length ≤ text.length := by
  have hle := (List.sublist_flatten_of_mem h).length_le
  rwa [flatten_splitLines] at hle

/-- There are no more lines than characters. -/
theorem length_splitLines_le (text : Chars) : (splitLines text).length ≤ text.length := by
  have hle := List.length_le_sum_of_one_le ((splitLines text).map List.length) fun n hn => by
    obtain ⟨line, hline, rfl⟩ := List.mem_map.mp hn
    exact List.length_pos_iff.mpr (isLine_of_mem_splitLines hline).ne_nil
  rwa [List.length_map, ← List.length_flatten, flatten_splitLines] at hle

/-- The lines of a text that is short enough have numbers of 32 bits. -/
theorem toNat_ofNat_of_line (h : (splitLines text)[n - 1]? = some line)
    (hlen : text.length < 2 ^ 32) : (UInt32.ofNat n).toNat = n := by
  obtain ⟨hindex, -⟩ := List.getElem?_eq_some_iff.mp h
  have hcount := length_splitLines_le text
  have hn : n < 2 ^ 32 := by omega
  exact UInt32.toNat_ofNat_of_lt' hn

/-- What a text consists of: lines that put together are the text, and all but the last of which end
at a line feed. -/
structure AreLines (text : Chars) (lines : List Chars) : Prop where
  flatten : lines.flatten = text
  isLine : ∀ line ∈ lines, IsLine line
  ended : ∀ line ∈ lines.dropLast, line.getLast? = some '\n'

theorem splitLines_lineFeed {inner : Chars} (h : '\n' ∉ inner) (rest : Chars) :
    splitLines (inner ++ '\n' :: rest) = (inner ++ ['\n']) :: splitLines rest := by
  induction inner with
  | nil => simp [splitLines]
  | cons c inner ih =>
    obtain ⟨hc, hinner⟩ := not_or.mp (mt List.mem_cons.mpr h)
    rw [List.cons_append, splitLines, if_neg (Ne.symm hc), ih hinner]
    rfl

theorem splitLines_unended (h : '\n' ∉ text) (hne : text ≠ []) : splitLines text = [text] := by
  induction text with
  | nil => exact absurd rfl hne
  | cons c text ih =>
    obtain ⟨hc, htext⟩ := not_or.mp (mt List.mem_cons.mpr h)
    rw [splitLines, if_neg (Ne.symm hc)]
    by_cases hnil : text = []
    · rw [hnil]
      rfl
    · rw [ih htext hnil]

/-- Lines that are put together are split where they were. -/
theorem splitLines_flatten {lines : List Chars} (hline : ∀ line ∈ lines, IsLine line)
    (hended : ∀ line ∈ lines.dropLast, line.getLast? = some '\n') :
    splitLines lines.flatten = lines := by
  induction lines with
  | nil => rfl
  | cons line rest ih =>
    obtain ⟨hne, hinner⟩ := hline line List.mem_cons_self
    have hends (hlast : line.getLast? = some '\n') :
        splitLines (line ++ rest.flatten) = line :: splitLines rest.flatten := by
      rw [← List.dropLast_append_getLast? _ hlast, List.append_assoc, List.singleton_append,
        splitLines_lineFeed hinner]
    rw [List.flatten_cons]
    by_cases hrest : rest = []
    · -- the last line may have no end
      subst hrest
      rw [List.flatten_nil, List.append_nil] at hends ⊢
      by_cases hlast : line.getLast? = some '\n'
      · exact hends hlast
      · exact splitLines_unended (IsLine.not_mem ⟨hne, hinner⟩ hlast) hne
    · rw [List.dropLast_cons_of_ne_nil hrest] at hended
      rw [hends (hended line List.mem_cons_self),
        ih (fun l hl => hline l (List.mem_cons_of_mem _ hl))
          fun l hl => hended l (List.mem_cons_of_mem _ hl)]

theorem getLast?_of_mem_dropLast_splitLines (h : line ∈ (splitLines text).dropLast) :
    line.getLast? = some '\n' := by
  fun_induction splitLines text generalizing line with
  | case1 => cases h
  | case2 rest ih =>
    by_cases hrest : splitLines rest = []
    · simp [hrest] at h
    · rw [List.dropLast_cons_of_ne_nil hrest] at h
      rcases List.mem_cons.mp h with rfl | h
      · rfl
      · exact ih h
  | case3 c rest _ hrest ih => cases h
  | case4 c rest hc first more hrest ih =>
    rw [hrest] at ih
    by_cases hmore : more = []
    · simp [hmore] at h
    · rw [List.dropLast_cons_of_ne_nil hmore] at h ih
      rcases List.mem_cons.mp h with rfl | h
      · have hfirst : first ≠ [] := by
          rintro rfl
          simpa using ih List.mem_cons_self
        rw [List.getLast?_cons_of_ne_nil hfirst]
        exact ih List.mem_cons_self
      · exact ih (List.mem_cons_of_mem _ h)

/-- There is one way to take a text for lines. -/
theorem areLines_iff {lines : List Chars} : AreLines text lines ↔ lines = splitLines text := by
  constructor
  · rintro ⟨rfl, hline, hended⟩
    exact (splitLines_flatten hline hended).symm
  · rintro rfl
    exact ⟨flatten_splitLines text, fun _ => isLine_of_mem_splitLines,
      fun _ => getLast?_of_mem_dropLast_splitLines⟩

/-- What is taken from a line is a line feed, or a carriage return and a line feed. -/
theorem dropLineEnd_append (line : Chars) :
    ∃ stop ∈ [[], ['\n'], ['\r', '\n']], dropLineEnd line ++ stop = line := by
  simp only [dropLineEnd]
  split_ifs with hlast hreturn
  · have hline := List.dropLast_append_getLast? _ hlast
    have hinner := List.dropLast_append_getLast? _ hreturn
    refine ⟨['\r', '\n'], by simp, ?_⟩
    rw [← List.singleton_append, ← List.append_assoc, hinner, hline]
  · exact ⟨['\n'], by simp, List.dropLast_append_getLast? _ hlast⟩
  · exact ⟨[], by simp, List.append_nil _⟩

theorem isPrefix_dropLineEnd (line : Chars) : dropLineEnd line <+: line := by
  obtain ⟨stop, -, h⟩ := dropLineEnd_append line
  exact ⟨stop, h⟩

/-- The lines that are told with their numbers are those that the text is split into. -/
theorem exists_line_of_mem_zipIdx (h : (shown, i) ∈ (lines text).zipIdx n) :
    ∃ line, n ≤ i ∧ (splitLines text)[i - n]? = some line ∧ shown = dropLineEnd line := by
  obtain ⟨hle, hget⟩ := List.mem_zipIdx_iff_le_and_getElem?_sub.mp h
  rw [lines, List.getElem?_map] at hget
  obtain ⟨line, hline, rfl⟩ := Option.map_eq_some_iff.mp hget
  exact ⟨line, hle, hline, rfl⟩

/-! ## Texts put together -/

variable {front : Chars}

theorem splitLines_ne_nil (h : text ≠ []) : splitLines text ≠ [] := by
  intro hnil
  have hflat := flatten_splitLines text
  rw [hnil] at hflat
  exact h hflat.symm

/-- A text that ends at a line feed ends no line of what follows. -/
theorem splitLines_append (h : ∀ c ∈ front.getLast?, c = '\n') (text : Chars) :
    splitLines (front ++ text) = splitLines front ++ splitLines text := by
  induction front with
  | nil => rfl
  | cons c front ih =>
    rw [List.cons_append, splitLines, splitLines]
    by_cases hfront : front = []
    · obtain rfl : c = '\n' := h c (by simp [hfront])
      simp [hfront, splitLines]
    · rw [ih (by rwa [List.getLast?_cons_of_ne_nil hfront] at h)]
      cases hlines : splitLines front with
      | nil => exact absurd hlines (splitLines_ne_nil hfront)
      | cons line more => split_ifs <;> rfl

/-- It has a line for each line feed. -/
theorem length_splitLines (h : ∀ c ∈ front.getLast?, c = '\n') :
    (splitLines front).length = front.count '\n' := by
  induction front with
  | nil => rfl
  | cons c front ih =>
    rw [splitLines]
    by_cases hfront : front = []
    · obtain rfl : c = '\n' := h c (by simp [hfront])
      simp [hfront, splitLines]
    · have hcount := ih (by rwa [List.getLast?_cons_of_ne_nil hfront] at h)
      split_ifs with hc
      · rw [hc, List.count_cons_self, List.length_cons, hcount]
      · rw [List.count_cons_of_ne hc, ← hcount]
        cases hlines : splitLines front with
        | nil => exact absurd hlines (splitLines_ne_nil hfront)
        | cons line more => rfl

theorem lines_append (h : ∀ c ∈ front.getLast?, c = '\n') (text : Chars) :
    lines (front ++ text) = lines front ++ lines text := by
  rw [lines, splitLines_append h, List.map_append]
  rfl

/-- A text without a line feed is one line. -/
theorem lines_unended (h : '\n' ∉ text) (hne : text ≠ []) : lines text = [text] := by
  have hlast : text.getLast? ≠ some '\n' := fun hlast => h (List.mem_of_getLast? hlast)
  rw [lines, splitLines_unended h hne, List.map_singleton, dropLineEnd, if_neg hlast]

/-- A text has no more characters than bytes. -/
theorem length_le_utf8Len (text : Chars) : text.length ≤ String.utf8Len text := by
  induction text with
  | nil => rfl
  | cons c text ih =>
    have hpos := c.utf8Size_pos
    rw [List.length_cons, String.utf8Len_cons]
    omega

theorem length_le_of_fromUTF8? {bytes : ByteArray} {s : String}
    (h : String.fromUTF8? bytes = some s) : s.toList.length ≤ bytes.size := by
  have hsize : s.utf8ByteSize = bytes.size := by
    rw [String.fromUTF8?] at h
    split_ifs at h
    obtain rfl := Option.some.inj h
    rfl
  have hle := length_le_utf8Len s.toList
  rwa [String.utf8Len_toList, hsize] at hle

end Worksite.Text
