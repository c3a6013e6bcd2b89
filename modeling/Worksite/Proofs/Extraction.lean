import Worksite.Proofs.Dependency
import Worksite.Symbol.Extract

/-!
Extraction line by line. Behind a text that ends at a line feed, a second text has the symbols
and dependencies that it has by itself, but for its lines, which come later, and for dependencies
that the first one has as well.
-/
namespace Worksite

variable {front : String}

/-- A declaration `k` lines further down. -/
def Declaration.shift (k : Nat) (d : SymbolKind × Text.Chars × Nat) :
    SymbolKind × Text.Chars × Nat :=
  (d.1, d.2.1, d.2.2 + k)

theorem Declaration.ofText_append {front : Text.Chars} (h : ∀ c ∈ front.getLast?, c = '\n')
    (text : Text.Chars) :
    ofText (front ++ text) = ofText front ++ (ofText text).map (shift (front.count '\n')) := by
  have hlen : (Text.lines front).length = front.count '\n' := by
    rw [Text.lines, List.length_map, Text.length_splitLines h]
  rw [ofText, Text.lines_append h, List.zipIdx_append, List.filterMap_append, hlen, Nat.zero_add,
    List.zipIdx_eq_map_add (l := Text.lines text), List.filterMap_map]
  congr 1
  rw [ofText, List.map_filterMap]
  refine List.filterMap_congr ?_
  rintro ⟨line, i⟩ -
  -- the same declaration, told with its line in the whole text
  have hshift : ∀ d : Option (SymbolKind × Text.Chars),
      d.map (fun d => (d.1, d.2, front.count '\n' + i + 1)) =
        (d.map fun d => (d.1, d.2, i + 1)).map (shift (front.count '\n')) := by
    intro d
    rw [Option.map_map]
    refine congrArg (fun f => d.map f) (funext fun d => ?_)
    simp only [Function.comp_apply, shift, Prod.mk.injEq, true_and]
    omega
  exact hshift (ofLine line)

theorem extractSymbols_append (h : ∀ c ∈ front.toList.getLast?, c = '\n') (file text : String)
    {language : Language} (hlang : language.extraction = .pattern) :
    extractSymbols file (front ++ text) language = extractSymbols file front language ++
      (extractSymbols file text language).map fun s =>
        { s with line := s.line + UInt32.ofNat (front.toList.count '\n') } := by
  simp only [extractSymbols, hlang]
  rw [String.toList_append, Declaration.ofText_append h, List.map_append, List.map_map,
    List.map_map]
  congr 1
  refine List.map_congr_left ?_
  rintro ⟨kind, name, n⟩ -
  simp [Declaration.shift, UInt32.ofNat_add]

theorem extractDependencies_append (h : ∀ c ∈ front.toList.getLast?, c = '\n') (text : String)
    (language : Language) :
    extractDependencies (front ++ text) language =
      (extractDependencies front language ++ extractDependencies text language).eraseDups := by
  simp only [extractDependencies_eq]
  rw [Dependency.eraseDups_append_eraseDups, ← List.map_append, ← List.flatMap_append,
    ← Text.lines_append h, ← String.toList_append]

/-- Behind a text that is empty or ends at a line feed, symbols found by the form of lines are
those of each text, with lines counted on; and dependencies are those of each text, where they
come first. -/
theorem extraction_append (hfront : front = "" ∨ front.toList.getLast? = some '\n')
    (text : String) :
    (∀ (file : String) (language : Language), language.extraction = .pattern →
      extractSymbols file (front ++ text) language = extractSymbols file front language ++
        (extractSymbols file text language).map fun s =>
          { s with line := s.line + UInt32.ofNat (front.toList.count '\n') }) ∧
    ∀ language : Language, extractDependencies (front ++ text) language =
      (extractDependencies front language ++ extractDependencies text language).eraseDups := by
  have h : ∀ c ∈ front.toList.getLast?, c = '\n' := by
    intro c hc
    rcases hfront with rfl | hlast
    · simp at hc
    · exact Option.some.inj (hc.symm.trans hlast)
  exact ⟨fun file language hlang => extractSymbols_append h file text hlang,
    extractDependencies_append h text⟩

/-- The second line begins behind the first line feed, and names again what the first one names. -/
theorem extraction_append_repeated :
    "class A {}; import('a')\r\n".toList.getLast? = some '\n' ∧
      Language.javaScript.extraction = .pattern ∧
      extractSymbols "m.js" ("class A {}; import('a')\r\n" ++ "let b = () => require('a')")
        .javaScript =
        [⟨"A", .class, .javaScript, "m.js", 1⟩, ⟨"b", .function, .javaScript, "m.js", 2⟩] ∧
      extractDependencies ("class A {}; import('a')\r\n" ++ "let b = () => require('a')")
        .javaScript = ["a"] := by
  have hlast : "class A {}; import('a')\r\n".toList.getLast? = some '\n' := by decide +kernel
  obtain ⟨hsymbols, hdeps⟩ := extraction_append (.inr hlast) "let b = () => require('a')"
  refine ⟨hlast, rfl, ?_, ?_⟩
  · rw [hsymbols "m.js" .javaScript rfl]
    decide +kernel
  · rw [hdeps .javaScript]
    decide +kernel

end Worksite
