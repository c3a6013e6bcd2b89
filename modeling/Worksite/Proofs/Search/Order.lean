import Worksite.Proofs.Search.Literal
import Worksite.Proofs.Walk.FirstNames

/-!
The order of what a search finds: file after file as the walk came to them, line after line, and in
a line from left to right without overlap. Without a limit a search finds every occurrence in what
it can scan once; a limit cuts that list behind its first matches.
-/
namespace Worksite

open Text (Chars)
open String (utf8Len)

variable {s : Sandbox} {t : FileTree} {root : Place} {l : Location} {f g : FoundFile}
  {p : Pattern} {line content : Chars} {number maxBytes : Nat} {m m' : Pattern.Span}
  {files : List FoundFile}

/-- A file that is fit for scanning holds a text: it is small enough, in UTF-8 and without NUL. -/
def FileTree.HoldsText (t : FileTree) (l : Location) (maxBytes : Nat) (text : String) : Prop :=
  ∃ bytes mode, t.find true l = .ok (.file bytes mode) ∧ bytes.size ≤ maxBytes ∧
    0 ∉ bytes.toList ∧ String.fromUTF8? bytes = some text

theorem FileTree.loadText_eq_some {text : String} :
    t.loadText l maxBytes = some text ↔ t.HoldsText l maxBytes text := by
  rw [loadText, HoldsText]
  split
  · next bytes mode hfind =>
    simp only [hfind, Except.ok.injEq, Entry.file.injEq, Bool.or_eq_true, decide_eq_true_eq,
      List.contains_iff_mem]
    constructor
    · intro h
      split_ifs at h with hfit
      rw [not_or, Nat.not_lt] at hfit
      exact ⟨bytes, mode, ⟨rfl, rfl⟩, hfit.1, hfit.2, h⟩
    · rintro ⟨_, _, ⟨rfl, rfl⟩, hsize, hnul, h⟩
      rw [if_neg (by simp [hnul, hsize]), h]
  · next hno =>
    simp only [reduceCtorEq, false_iff]
    rintro ⟨bytes, mode, hfind, -⟩
    exact hno bytes mode hfind

namespace Search

/-- Where something was matched: in a line of a file, between two other parts of the line. -/
structure Occurrence where
  file : FoundFile
  line : Nat
  before : Chars
  found : Chars
  after : Chars
  deriving DecidableEq

namespace Occurrence

def text (x : Occurrence) : Chars := x.before ++ x.found ++ x.after

/-- The column of the first character that was matched. -/
def start (x : Occurrence) : Nat := x.before.length + 1

/-- The column behind the last one. -/
def stop (x : Occurrence) : Nat := x.start + x.found.length

/-- How an occurrence is told. -/
def shown (x : Occurrence) : SearchMatch where
  path := x.file.path
  line := UInt32.ofNat x.line
  columnStart := UInt32.ofNat x.start
  columnEnd := UInt32.ofNat x.stop
  snippet := String.ofList (Text.trimEnd x.text)

def span (x : Occurrence) : Pattern.Span where
  first := .between x.before (x.found ++ x.after)
  last := .between (x.before ++ x.found) x.after

/-- A line of the text holds the occurrence, and the matcher reports it there. -/
structure IsIn (x : Occurrence) (p : Pattern) (text : Chars) : Prop where
  line_pos : 1 ≤ x.line
  line_eq : (Text.lines text)[x.line - 1]? = some x.text
  found_ne_nil : x.found ≠ []
  reported : x.span ∈ p.allMatches x.text

/-- The occurrence that a match in a line stands for. -/
def ofSpan (f : FoundFile) (number : Nat) (line : Chars) (m : Pattern.Span) : Occurrence where
  file := f
  line := number
  before := line.take (line.length - m.first.after.length)
  found := m.first.after.take (m.first.after.length - m.last.after.length)
  after := m.last.after

/-- What was matched is read off the match. -/
theorem ofSpan_spec (f : FoundFile) (number : Nat) (h : m ∈ p.allMatches line)
    (hm : m.isEmpty = false) :
    (ofSpan f number line m).text = line ∧ (ofSpan f number line m).span = m ∧
      (ofSpan f number line m).found ≠ [] ∧
      (ofSpan f number line m).shown = matchOf f.path number line m := by
  obtain ⟨before, found, after, rfl, hfound, hfirst, hlast, -⟩ :=
    Pattern.exists_of_mem_allMatches h hm
  have hafter : m.first.after = found ++ after := by
    rw [hfirst]
    rfl
  have hrest : m.last.after = after := by
    rw [hlast]
    rfl
  have hx : ofSpan f number (before ++ found ++ after) m =
      { file := f, line := number, before, found, after } := by
    simp [ofSpan, hafter, hrest]
  rw [hx]
  refine ⟨rfl, ?_, hfound, ?_⟩
  · simp only [span, ← hfirst, ← hlast]
  · simp [shown, matchOf, start, stop, text, hafter, hrest]

/-- An occurrence is told by its match. -/
theorem ofSpan_span (x : Occurrence) : ofSpan x.file x.line x.text x.span = x := by
  simp [ofSpan, text, span, Spot.between]

theorem isEmpty_span {x : Occurrence} (h : x.found ≠ []) : x.span.isEmpty = false := by
  have hlen := List.length_pos_iff.mpr h
  have hbytes := Text.length_le_utf8Len x.found
  have hne : utf8Len x.before ≠ utf8Len (x.before ++ x.found) := by
    rw [String.utf8Len_append]
    omega
  simpa [Pattern.Span.isEmpty, span, Spot.between] using hne

/-! ## In one line -/

end Occurrence

open Occurrence

/-- What the matcher reports in a line, but for empty matches. -/
def occurrencesInLine (p : Pattern) (f : FoundFile) (number : Nat) (line : Chars) :
    List Occurrence :=
  ((p.allMatches line).filter (!·.isEmpty)).map (ofSpan f number line)

theorem mem_occurrencesInLine {x : Occurrence} : x ∈ occurrencesInLine p f number line ↔
    x.file = f ∧ x.line = number ∧ x.text = line ∧ x.found ≠ [] ∧
      x.span ∈ p.allMatches line := by
  rw [occurrencesInLine, List.mem_map]
  constructor
  · rintro ⟨m, hm, rfl⟩
    obtain ⟨hm, hempty⟩ := List.mem_filter.mp hm
    obtain ⟨htext, hspan, hfound, -⟩ := ofSpan_spec f number hm (by simpa using hempty)
    exact ⟨rfl, rfl, htext, hfound, by rwa [hspan]⟩
  · rintro ⟨rfl, rfl, rfl, hfound, hm⟩
    exact ⟨x.span, List.mem_filter.mpr ⟨hm, by rw [isEmpty_span hfound]; rfl⟩, ofSpan_span x⟩

def occurrencesInText (p : Pattern) (f : FoundFile) (content : Chars) : List Occurrence :=
  ((Text.lines content).zipIdx 1).flatMap fun (line, number) => occurrencesInLine p f number line

theorem mem_occurrencesInText {x : Occurrence} : x ∈ occurrencesInText p f content ↔
    x.file = f ∧ x.IsIn p content := by
  rw [occurrencesInText, List.mem_flatMap]
  constructor
  · rintro ⟨⟨line, number⟩, hline, hx⟩
    obtain ⟨hle, hget⟩ := List.mem_zipIdx_iff_le_and_getElem?_sub.mp hline
    obtain ⟨rfl, rfl, rfl, hfound, hm⟩ := mem_occurrencesInLine.mp hx
    exact ⟨rfl, hle, hget, hfound, hm⟩
  · rintro ⟨rfl, hx⟩
    exact ⟨(x.text, x.line), List.mem_zipIdx_iff_le_and_getElem?_sub.mpr ⟨hx.line_pos, hx.line_eq⟩,
      mem_occurrencesInLine.mpr ⟨rfl, rfl, rfl, hx.found_ne_nil, hx.reported⟩⟩

theorem map_shown_occurrencesInText (p : Pattern) (f : FoundFile) (content : Chars) :
    (occurrencesInText p f content).map shown = inText p f.path content := by
  rw [occurrencesInText, inText, List.map_flatMap]
  congr 1
  funext ⟨line, number⟩
  simp only [occurrencesInLine, List.map_map]
  refine List.map_congr_left fun m hm => ?_
  obtain ⟨hm, hempty⟩ := List.mem_filter.mp hm
  exact (ofSpan_spec f number hm (by simpa using hempty)).2.2.2

/-! ## In what a walk found -/

/-- All that can be found in files, by the texts that are loaded from them. -/
def occurrences (load : FoundFile → Option String) (p : Pattern) (files : List FoundFile) :
    List Occurrence :=
  files.flatMap fun f =>
    match load f with
    | some text => occurrencesInText p f text.toList
    | none => []

/-- With all the time, a limit cuts what is found behind its first matches. -/
theorem found_scan (load : FoundFile → Option String) (p : Pattern)
    (truncated : Option Truncation) (left : Option Nat) (hleft : left ≠ some 0)
    (files : List FoundFile) :
    (scan load p truncated left .unbounded files).found =
      match left with
      | none => (occurrences load p files).map shown
      | some k => ((occurrences load p files).map shown).take k := by
  induction files generalizing left with
  | nil => cases left <;> simp [scan, occurrences]
  | cons f files ih =>
    rw [scan, if_neg (by decide), Deadline.next_unbounded, occurrences, List.flatMap_cons,
      ← occurrences]
    cases load f with
    | none => exact ih left hleft
    | some text =>
      rw [List.map_append, map_shown_occurrencesInText]
      cases left with
      | none => simp [ih none (by simp)]
      | some k =>
        by_cases hfull : k ≤ (inText p f.path text.toList).length
        · simp [hfull, List.take_append_of_le_length hfull]
        · -- the limit is left for what comes later
          have hmore := ih (some (k - (inText p f.path text.toList).length)) (by simp; omega)
          have hwhole : (inText p f.path text.toList).take k = inText p f.path text.toList :=
            List.take_of_length_le (Nat.le_of_not_le hfull)
          simp only [Option.any_some, hfull, decide_false, Bool.false_eq_true, ↓reduceIte,
            Option.map_some, hmore]
          rw [List.take_append, hwhole]

/-- In a file that is small enough, all numbers of an occurrence are told as they are. -/
theorem toNat_shown {x : Occurrence} {text : String} (h : t.loadText l maxBytes = some text)
    (hx : x.IsIn p text.toList) (hbytes : maxBytes + 1 < 2 ^ 32) :
    x.shown.line.toNat = x.line ∧ x.shown.columnStart.toNat = x.start ∧
      x.shown.columnEnd.toNat = x.stop := by
  have hlen := length_le_of_loadText h
  have hget := hx.line_eq
  rw [Text.lines, List.getElem?_map] at hget
  obtain ⟨line, hline, htext⟩ := Option.map_eq_some_iff.mp hget
  have hnumber : x.line - 1 < (Text.splitLines text.toList).length :=
    (List.getElem?_eq_some_iff.mp hline).1
  have hcount := Text.length_splitLines_le text.toList
  have hshort : x.text.length ≤ text.toList.length :=
    htext ▸ (Text.isPrefix_dropLineEnd line).length_le.trans
      (Text.length_le_of_mem_splitLines (List.mem_of_getElem? hline))
  have hstop : x.stop ≤ x.text.length + 1 := by
    simp only [stop, start, Occurrence.text, List.length_append]
    omega
  have hstart : x.start ≤ x.stop := Nat.le_add_right _ _
  have hexact {n : Nat} (h : n < 2 ^ 32) : (UInt32.ofNat n).toNat = n :=
    UInt32.toNat_ofNat_of_lt' h
  exact ⟨hexact (by omega), hexact (by omega), hexact (by omega)⟩

end Search

end Worksite
