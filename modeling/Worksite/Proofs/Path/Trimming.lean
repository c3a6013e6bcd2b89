import Worksite.Proofs.Path
import Worksite.Policy

/-!
Trimming of paths: white space around a path belongs to its first and its last segment, and no
other segment changes when it is taken away.
-/
namespace Worksite.Path

open Text

variable {path x : String} {text lead trail : Chars}

theorem trim_eq (text : Chars) : ∃ lead trail, text = lead ++ (trim text ++ trail) ∧
    (∀ c ∈ lead, Unicode.isSpace c) ∧ ∀ c ∈ trail, Unicode.isSpace c := by
  let rest := trimStart text
  refine ⟨text.takeWhile Unicode.isSpace, (rest.reverse.takeWhile Unicode.isSpace).reverse,
    ?_, fun c hc => List.mem_takeWhile_imp hc, fun c hc => ?_⟩
  · have hstart : text = text.takeWhile Unicode.isSpace ++ rest :=
      List.takeWhile_append_dropWhile.symm
    have hend : rest = trimEnd rest ++ (rest.reverse.takeWhile Unicode.isSpace).reverse := by
      rw [trimEnd, ← List.reverse_append, List.takeWhile_append_dropWhile, List.reverse_reverse]
    rw [trim, ← hend]
    exact hstart
  · exact List.mem_takeWhile_imp (List.mem_reverse.mp hc)

theorem slash_notMem_of_isSpace (h : ∀ c ∈ text, Unicode.isSpace c) : '/' ∉ text :=
  fun hc => absurd (h _ hc) (by decide)

/-- What holds no slash joins the first segment of what it stands before. -/
theorem splitOn_append_left (h : '/' ∉ lead) (text : Chars) :
    (lead ++ text).splitOn '/' = (text.splitOn '/').modifyHead (lead ++ ·) := by
  induction lead with
  | nil =>
    simp only [List.nil_append]
    exact (congrFun List.modifyHead_id _).symm
  | cons c lead ih =>
    obtain ⟨hc, hlead⟩ := not_or.mp (mt List.mem_cons.mpr h)
    have hne : (c == '/') = false := by simpa using Ne.symm hc
    rw [List.cons_append, List.splitOn_cons_eq_if_modifyHead, hne, ih hlead,
      List.modifyHead_modifyHead]
    rfl

/-- What holds no slash joins the last segment of what it stands behind. -/
theorem splitOn_append_right (h : '/' ∉ trail) (text : Chars) :
    ∃ init last, text.splitOn '/' = init ++ [last] ∧
      (text ++ trail).splitOn '/' = init ++ [last ++ trail] := by
  induction text with
  | nil => exact ⟨[], [], rfl, List.splitOn_eq_singleton h⟩
  | cons c text ih =>
    obtain ⟨init, last, htext, hboth⟩ := ih
    rw [List.cons_append, List.splitOn_cons_eq_if_modifyHead, List.splitOn_cons_eq_if_modifyHead,
      htext, hboth]
    split_ifs
    · exact ⟨[] :: init, last, rfl, rfl⟩
    · cases init with
      | nil => exact ⟨[], c :: last, rfl, rfl⟩
      | cons first init => exact ⟨(c :: first) :: init, last, rfl, rfl⟩

/-- White space around a path is around its first and its last segment. -/
theorem segments_trimText (path : String) : ∃ lead trail init last,
    path.toList = lead ++ (trim path.toList ++ trail) ∧ (∀ c ∈ lead, Unicode.isSpace c) ∧
      (∀ c ∈ trail, Unicode.isSpace c) ∧
      segments (trimText path) = (init ++ [last]).map String.ofList ∧
      segments path = ((init ++ [last ++ trail]).modifyHead (lead ++ ·)).map String.ofList := by
  obtain ⟨lead, trail, htext, hlead, htrail⟩ := trim_eq path.toList
  obtain ⟨init, last, hcore, hboth⟩ :=
    splitOn_append_right (slash_notMem_of_isSpace htrail) (trim path.toList)
  have hpath := splitOn_append_left (slash_notMem_of_isSpace hlead) (trim path.toList ++ trail)
  rw [← htext, hboth] at hpath
  refine ⟨lead, trail, init, last, htext, hlead, htrail, ?_, ?_⟩
  · rw [segments, trimText, String.toList_ofList, hcore]
  · rw [segments, hpath]

/-- A segment of a path without the white space around it is its first or its last one, or as well
a segment of the path with it. -/
theorem mem_segments_trimText (hx : x ∈ segments (trimText path)) :
    (segments (trimText path)).head? = some x ∨ (segments (trimText path)).getLast? = some x ∨
      x ∈ segments path := by
  obtain ⟨lead, trail, init, last, -, -, -, htrimmed, hsegments⟩ := segments_trimText path
  rw [htrimmed] at hx ⊢
  rw [hsegments]
  cases init with
  | nil =>
    left
    simpa [eq_comm] using hx
  | cons first init =>
    simp only [List.cons_append, List.map_cons, List.map_append, List.map_nil, List.mem_cons,
      List.mem_append, List.not_mem_nil, or_false] at hx
    rcases hx with rfl | hx | rfl
    · exact .inl rfl
    · right; right
      simp only [List.cons_append, List.modifyHead_cons, List.map_cons, List.map_append]
      exact List.mem_cons_of_mem _ (List.mem_append_left _ hx)
    · right; left
      rw [List.getLast?_map, List.getLast?_concat, Option.map_some]

/-! ## The steps of a path -/

/-- All steps but dots are those of its segments. -/
theorem mem_steps_iff {step : Step} (hstep : step ≠ .here) :
    step ∈ steps path ↔ ∃ s ∈ segments path, s ≠ "" ∧ Step.ofSegment s = step := by
  have hall : step ∈ ((segments path).filter (· ≠ "")).map Step.ofSegment ↔
      ∃ s ∈ segments path, s ≠ "" ∧ Step.ofSegment s = step := by
    simp [and_assoc]
  rw [← hall, steps]
  simp only
  split
  · next rest heq =>
    rw [heq]
    split_ifs <;> simp [hstep]
  · simp [hstep]

theorem up_mem_steps_iff : .up ∈ steps path ↔ ".." ∈ segments path := by
  rw [mem_steps_iff (by simp)]
  constructor
  · rintro ⟨s, hs, -, hup⟩
    unfold Step.ofSegment at hup
    split_ifs at hup with _ hclimb
    exact hclimb ▸ hs
  · intro hs
    exact ⟨"..", hs, by decide, by decide⟩

end Worksite.Path
