import Worksite.Proofs.Search
import Worksite.Proofs.Walk.Scanning

/-!
Searches for a text as it is. They find what a plain scan of each line for the characters of the
query finds, and tell matches that are as wide as the query.
-/
namespace Worksite

open Pattern (Span literal occurrences)

variable {q : Query} {p : Pattern}

namespace Search

/-- A match of `n` characters in a line is told with `n` columns. -/
theorem width_of_piece {path : String} {number n i : Nat} {line : Text.Chars} {m : SearchMatch}
    (hm : m = matchOf path number line (Span.piece line n i)) (hle : i + n ≤ line.length)
    (hn : n < 2 ^ 32) :
    (m.columnEnd - m.columnStart).toNat = n ∧
      (line.length + 1 < 2 ^ 32 → m.columnEnd.toNat = m.columnStart.toNat + n) := by
  have hstart : line.length - (Span.piece line n i).first.after.length + 1 = i + 1 := by
    simp only [Span.piece, Spot.between, List.length_drop]
    omega
  have hwidth : (Span.piece line n i).first.after.length -
      (Span.piece line n i).last.after.length = n := by
    simp only [Span.piece, Spot.between, List.length_drop]
    omega
  have hcolumnStart : m.columnStart = UInt32.ofNat (i + 1) := by
    rw [hm, ← hstart]
    rfl
  have hcolumnEnd : m.columnEnd = UInt32.ofNat (i + 1 + n) := by
    rw [hm]
    exact congrArg UInt32.ofNat (congrArg₂ (· + ·) hstart hwidth)
  constructor
  · rw [hcolumnEnd, hcolumnStart, UInt32.ofNat_add, UInt32.add_comm, UInt32.add_sub_cancel,
      UInt32.toNat_ofNat_of_lt' hn]
  · intro hlen
    rw [hcolumnEnd, hcolumnStart, UInt32.toNat_ofNat_of_lt' (show i + 1 + n < 2 ^ 32 by omega),
      UInt32.toNat_ofNat_of_lt' (show i + 1 < 2 ^ 32 by omega)]

/-- The matches of a query that is no pattern are as wide as the query. -/
theorem width_of_mem_inText (hregex : q.regex = false) (hne : q.text ≠ "") (hp : q.pattern = .ok p)
    {path : String} {text : Text.Chars} {m : SearchMatch} (h : m ∈ inText p path text) :
    (m.columnEnd - m.columnStart).toNat = q.text.toList.length ∧
      (text.length + 1 < 2 ^ 32 →
        m.columnEnd.toNat = m.columnStart.toNat + q.text.toList.length) := by
  obtain ⟨⟨line, number⟩, hline, hm⟩ := List.mem_flatMap.mp h
  obtain ⟨span, hspan, hm⟩ := List.mem_map.mp hm
  have hspan := (List.mem_filter.mp hspan).1
  obtain ⟨source, -, hsource, hshown⟩ := Text.exists_line_of_mem_zipIdx hline
  have hlen : line.length ≤ text.length := by
    rw [hshown]
    exact (Text.isPrefix_dropLineEnd source).length_le.trans
      (Text.length_le_of_mem_splitLines (List.mem_of_getElem? hsource))
  have hsize : q.text.toList.length < 2 ^ 32 := by
    rw [Query.pattern_eq hregex hne] at hp
    split_ifs at hp with hweight
    exact ((Pattern.length_le_weight _ _).trans hweight).trans_lt (by decide)
  rw [Query.eq_literal hregex hp, Query.allMatches_literal q hne] at hspan
  obtain ⟨i, hi, rfl⟩ := List.mem_map.mp hspan
  have hle := Pattern.add_le_of_mem_occurrences hi
  rw [Nat.zero_add] at hle
  obtain ⟨hwidth, hexact⟩ := width_of_piece hm.symm hle hsize
  exact ⟨hwidth, fun hshort => hexact (by omega)⟩

theorem length_le_of_loadText {t : FileTree} {l : Location} {maxBytes : Nat} {text : String}
    (h : t.loadText l maxBytes = some text) : text.toList.length ≤ maxBytes := by
  rw [FileTree.loadText] at h
  split at h
  · split_ifs at h with hbytes
    have hle := Text.length_le_of_fromUTF8? h
    rw [Bool.or_eq_true, decide_eq_true_iff, not_or] at hbytes
    omega
  · cases h

end Search

/-- A query that is no pattern finds in a text what the plain scan for its characters finds, which
compares them one by one, exactly or but for their case; and the matches that are told are as wide
as the query, in columns of 32 bits. -/
theorem Query.search_literal (hregex : q.regex = false) (hne : q.text ≠ "") :
    ∃ p, Pattern.parse? (!q.caseSensitive) (Pattern.escape q.text) = some p ∧
      q.pattern = (if p.weight ≤ Pattern.maxWeight then .ok p else
        .error (.invalidPattern q.text "Compiled regex exceeds size limit of 10485760 bytes.")) ∧
      (∀ text, p.allMatches text =
        (occurrences q.alike q.text.toList 0 text).map (Span.piece text q.text.toList.length)) ∧
      ∀ s t root walk o d outcome, o.query = q → search s t root walk o d = .ok outcome →
        ∀ m ∈ outcome.found, (m.columnEnd - m.columnStart).toNat = q.text.toList.length ∧
          (o.maxFileBytes + 1 < 2 ^ 32 →
            m.columnEnd.toNat = m.columnStart.toNat + q.text.toList.length) := by
  refine ⟨literal (!q.caseSensitive) q.text.toList, Pattern.parse?_escape _ _,
    Query.pattern_eq hregex hne, Query.allMatches_literal q hne, ?_⟩
  intro s t root walk o d outcome ho hsearch m hm
  subst ho
  obtain ⟨p, f, text, hp, -, hload, hm⟩ := exists_of_mem_search hsearch hm
  obtain ⟨hwidth, hexact⟩ := Search.width_of_mem_inText hregex hne hp hm
  have hlen := Search.length_le_of_loadText hload
  exact ⟨hwidth, fun hbytes => hexact (by omega)⟩

/-! ## A query with a sign and with letters of three cases -/

theorem Unicode.foldsAlike_s (c : Char) : FoldsAlike 's' c ↔ c ∈ ['S', 's', 'ſ'] := by
  have hclass : [0x53, 0x73, 0x17F] ∈ caseClasses := by
    rw [caseClasses]
    refine List.mem_append_right _ ?_
    simp only [tableWords_eq, classTable, List.map_cons, List.map_nil]
    repeat rw [String.toList_ofList]
    decide +kernel
  rw [← mem_caseClass, caseClass_of_mem hclass (by decide)]
  rfl

def dotted : Query where
  text := "s.s"

def dottedLine : Text.Chars := ['ſ', '.', 'S', '.', 's', 's', 's', '.', 's']

/-- The dot stands for itself, three letters are one but for their case, and the scan goes on behind
the first match, though the query begins again within it. -/
theorem Query.search_literal_dotted :
    dotted.regex = false ∧ dotted.text ≠ "" ∧
      ∃ p, dotted.pattern = .ok p ∧
        p.allMatches dottedLine = [Span.piece dottedLine 3 0, Span.piece dottedLine 3 6] := by
  have hne : dotted.text ≠ "" := by decide
  obtain ⟨p, hparse, hpattern, hmatches, -⟩ := Query.search_literal (q := dotted) rfl hne
  refine ⟨rfl, hne, p, ?_, ?_⟩
  · have hp : p = literal true "s.s".toList :=
      Option.some.inj (hparse.symm.trans (Pattern.parse?_escape _ _))
    rw [hpattern, if_pos]
    rw [hp]
    decide +kernel
  · have hword : dotted.text.toList = ['s', '.', 's'] := rfl
    have halike : ∀ c d, dotted.alike c d = decide (Unicode.FoldsAlike c d) := fun _ _ => rfl
    have hs : ∀ c, dotted.alike 's' c = decide (c ∈ ['S', 's', 'ſ']) := by
      intro c
      rw [halike, decide_eq_decide]
      exact Unicode.foldsAlike_s c
    have hdot : dotted.alike '.' '.' = true := by
      rw [halike, decide_eq_true_iff]
      exact Unicode.foldsAlike_equivalence.refl '.'
    have hnot : dotted.alike '.' 's' = false := by
      rw [halike, decide_eq_false_iff_not]
      intro h
      have hmem := (Unicode.foldsAlike_s '.').mp (Unicode.foldsAlike_equivalence.symm h)
      revert hmem
      decide
    rw [hmatches, hword]
    simp [dottedLine, occurrences, hs, hdot, hnot]

end Worksite
