import Worksite.Proofs.ByteOrder
import Worksite.Proofs.Text.Lines

/-!
Texts whose lines end at a carriage return and a line feed. A text without carriage returns has the
same lines when one is put in front of each line feed; it only takes more bytes.
-/
namespace Worksite.Text

variable {text line : Chars}

/-- The text with a carriage return in front of each line feed. -/
def withReturns (text : Chars) : Chars :=
  text.flatMap fun c => if c = '\n' then ['\r', '\n'] else [c]

theorem withReturns_cons (c : Char) (text : Chars) : withReturns (c :: text) =
    if c = '\n' then '\r' :: '\n' :: withReturns text else c :: withReturns text := by
  rw [withReturns, List.flatMap_cons]
  split_ifs <;> rfl

theorem withReturns_append (front text : Chars) :
    withReturns (front ++ text) = withReturns front ++ withReturns text :=
  List.flatMap_append

theorem withReturns_of_not_mem (h : '\n' ∉ text) : withReturns text = text := by
  induction text with
  | nil => rfl
  | cons c text ih =>
    obtain ⟨hc, htext⟩ := not_or.mp (mt List.mem_cons.mpr h)
    rw [withReturns_cons, if_neg (Ne.symm hc), ih htext]

/-- The lines stay apart where they were. -/
theorem splitLines_withReturns (text : Chars) :
    splitLines (withReturns text) = (splitLines text).map withReturns := by
  fun_induction splitLines text with
  | case1 => rfl
  | case2 rest ih =>
    rw [withReturns_cons, if_pos rfl, splitLines, if_neg (by decide), splitLines, if_pos rfl, ih]
    rfl
  | case3 c rest hc hrest ih =>
    rw [withReturns_cons, if_neg hc, splitLines, if_neg hc, ih, hrest, List.map_singleton,
      withReturns_cons, if_neg hc]
    rfl
  | case4 c rest hc first more hrest ih =>
    rw [withReturns_cons, if_neg hc, splitLines, if_neg hc, ih, hrest, List.map_cons,
      List.map_cons, withReturns_cons, if_neg hc]

theorem dropLineEnd_withReturns (hline : IsLine line) (hreturn : '\r' ∉ line) :
    dropLineEnd (withReturns line) = dropLineEnd line := by
  by_cases hlast : line.getLast? = some '\n'
  · obtain ⟨inner, rfl⟩ : ∃ inner, line = inner ++ ['\n'] :=
      ⟨line.dropLast, (List.dropLast_append_getLast? _ hlast).symm⟩
    have hinner : '\n' ∉ inner := by simpa using hline.lineFeed
    have hended : inner.getLast? ≠ some '\r' :=
      fun hr => hreturn (List.mem_append_left _ (List.mem_of_getLast? hr))
    rw [withReturns_append, withReturns_of_not_mem hinner]
    -- one end has a carriage return to be dropped, the other none
    simp [withReturns, dropLineEnd, hended]
  · rw [withReturns_of_not_mem (hline.not_mem hlast)]

theorem lines_withReturns (h : '\r' ∉ text) : lines (withReturns text) = lines text := by
  rw [lines, lines, splitLines_withReturns, List.map_map]
  refine List.map_congr_left fun line hline => ?_
  refine dropLineEnd_withReturns (isLine_of_mem_splitLines hline) fun hr => h ?_
  rw [← flatten_splitLines text]
  exact List.mem_flatten_of_mem hline hr

/-! ## In bytes -/

theorem fromUTF8?_toUTF8 (s : String) : String.fromUTF8? s.toUTF8 = some s :=
  dif_pos s.isValidUTF8

/-- The same for a text as it is written to a file. -/
def textWithReturns (s : String) : String := String.ofList (withReturns s.toList)

theorem bytes_textWithReturns (s : String) :
    bytes (textWithReturns s) = (withReturns s.toList).flatMap String.utf8EncodeChar := by
  rw [bytes_eq_flatMap, textWithReturns, String.toList_ofList]

/-- No end of a line has a NUL in it, so there is one in both texts or in none. -/
theorem zero_mem_bytes_textWithReturns (s : String) :
    0 ∈ bytes (textWithReturns s) ↔ 0 ∈ bytes s := by
  have hreturn : (0 : UInt8) ∉ String.utf8EncodeChar '\r' := by decide
  have hfeed : (0 : UInt8) ∉ String.utf8EncodeChar '\n' := by decide
  rw [bytes_textWithReturns, bytes_eq_flatMap]
  induction s.toList with
  | nil => rfl
  | cons c text ih =>
    rw [withReturns_cons]
    split_ifs with hc <;> simp [List.flatMap_cons, hc, hreturn, hfeed, ih]

theorem size_le_textWithReturns (s : String) :
    s.toUTF8.size ≤ (textWithReturns s).toUTF8.size := by
  have hlen : (bytes s).length ≤ (bytes (textWithReturns s)).length := by
    rw [bytes_textWithReturns, bytes_eq_flatMap]
    induction s.toList with
    | nil => rfl
    | cons c text ih =>
      rw [withReturns_cons]
      split_ifs with hc <;> simp only [hc, List.flatMap_cons, List.length_append] <;> omega
  exact hlen

end Worksite.Text
