import Worksite.Symbol.Extract
import Worksite.Proofs.Dependency
import Worksite.Proofs.Text.Returns
import Worksite.Proofs.Walk.Shape

/-!
Line ends. What is read line by line does not see whether lines end at a line feed alone or at a
carriage return and a line feed: symbols that are told by the form of a line, dependencies, and the
matches of a search. For a search this is so in all of the tree: the walk comes to the same files,
as it does not look into them, and each has the same lines.
-/
namespace Worksite

variable {t t' : FileTree} {x : Location} {text : String} {mode maxBytes : Nat}

/-! ## In a tree -/

def Text.linesOf (text : String) : List Text.Chars := Text.lines text.toList

theorem Text.linesOf_textWithReturns (h : '\r' ∉ text.toList) :
    linesOf (textWithReturns text) = linesOf text := by
  rw [linesOf, textWithReturns, String.toList_ofList, lines_withReturns h, linesOf]

namespace FileTree

/-- Two trees of one shape in which the files that are fit for scanning have the same lines. -/
structure SameLines (maxBytes : Nat) (t t' : FileTree) : Prop where
  shape : t.SameShape t'
  lines : ∀ l, (t'.loadText l maxBytes).map Text.linesOf = (t.loadText l maxBytes).map Text.linesOf

theorem loadText_of_text (h : t.find true x = .ok (.file text.toUTF8 mode))
    (hsize : text.toUTF8.size ≤ maxBytes) :
    t.loadText x maxBytes = if 0 ∈ Text.bytes text then none else some text := by
  rw [loadText, h]
  simp only [Text.toList_toUTF8, Text.fromUTF8?_toUTF8, Bool.or_eq_true, decide_eq_true_eq,
    List.contains_iff_mem, Nat.not_lt.mpr hsize, false_or]

theorem sameShape_put (t : FileTree) (l : Location) (bytes bytes' : ByteArray) (mode : Nat) :
    (t.put l (.file bytes mode)).SameShape (t.put l (.file bytes' mode)) := by
  intro x
  by_cases hx : x = l
  · subst hx
    by_cases hnil : x = []
    · simp [hnil]
    · rw [entry?_put_self hnil, entry?_put_self hnil]
      rfl
  · rw [entry?_put_of_ne hx, entry?_put_of_ne hx]

/-- Wherever a text is written, its lines may end either way. -/
theorem sameLines_put (h : '\r' ∉ text.toList)
    (hsize : (Text.textWithReturns text).toUTF8.size ≤ maxBytes) (t : FileTree) (l : Location)
    (mode : Nat) : (t.put l (.file text.toUTF8 mode)).SameLines maxBytes
      (t.put l (.file (Text.textWithReturns text).toUTF8 mode)) := by
  have hshape := t.sameShape_put l text.toUTF8 (Text.textWithReturns text).toUTF8 mode
  refine ⟨hshape, fun x => ?_⟩
  rcases hshape.find true x with hsame | ⟨d, _, _, _, _, he, he', hfind, hfind'⟩
  · rw [loadText, hsame, loadText]
  by_cases hd : d = l
  · -- the path leads to the text itself
    subst hd
    have hne : d ≠ [] := by
      rintro rfl
      simp at he
    rw [entry?_put_self hne, Option.some.injEq] at he he'
    rw [← he] at hfind
    rw [← he'] at hfind'
    rw [loadText_of_text hfind ((Text.size_le_textWithReturns text).trans hsize),
      loadText_of_text hfind' hsize]
    simp only [Text.zero_mem_bytes_textWithReturns]
    split_ifs
    · rfl
    · exact congrArg some (Text.linesOf_textWithReturns h)
  · rw [entry?_put_of_ne hd] at he he'
    have hsame := Option.some.inj (he'.symm.trans he)
    rw [loadText, hfind', hsame, loadText, hfind]

end FileTree

/-! ## Searches -/

namespace Search

theorem inText_congr {text' : String} (h : Text.linesOf text' = Text.linesOf text) (p : Pattern)
    (path : String) : inText p path text'.toList = inText p path text.toList := by
  have hlines : Text.lines text'.toList = Text.lines text.toList := h
  rw [inText, inText, hlines]

/-- Files of the same names and the same lines are scanned alike. -/
theorem scan_sameLines {load load' : FoundFile → Option String} {files files' : List FoundFile}
    (hload : ∀ f f' : FoundFile, f'.relative = f.relative →
      (load' f').map Text.linesOf = (load f).map Text.linesOf)
    (hnames : Walk.namesOf files' = Walk.namesOf files) (p : Pattern)
    (truncated : Option Truncation) (left : Option Nat) (d : Deadline) :
    scan load' p truncated left d files' = scan load p truncated left d files := by
  induction files generalizing files' left d with
  | nil =>
    obtain rfl := List.map_eq_nil_iff.mp hnames
    rfl
  | cons f files ih =>
    obtain ⟨f', files', rfl, hname, hnames⟩ := List.map_eq_cons_iff.mp hnames
    have ih (left : Option Nat) (d : Deadline) := ih hnames left d
    have hf := hload f f' hname
    rw [scan, scan]
    cases hl : load f with
    | none =>
      rw [hl, Option.map_none, Option.map_eq_none_iff] at hf
      simp only [hf, ih]
    | some text =>
      rw [hl, Option.map_some, Option.map_eq_some_iff] at hf
      obtain ⟨text', hl', hlines⟩ := hf
      have hpath : f'.path = f.path := congrArg Location.display hname
      simp only [hl', hpath, inText_congr hlines, ih]

end Search

theorem FileTree.SameLines.search {o : SearchOptions} (h : t.SameLines o.maxFileBytes t')
    (s : Sandbox) (root : Place) (walk : WalkOptions) (d : Deadline) :
    search s t' root walk o d = search s t root walk o d := by
  have hwalk := enumerate_sameShape (s := s) h.shape root walk d
  rw [Worksite.search, Worksite.search]
  refine bind_congr_ok fun p _ => ?_
  split_ifs
  · rfl
  cases he : enumerate s t root walk d with
  | error e =>
    rw [he] at hwalk
    cases he' : enumerate s t' root walk d with
    | error e' =>
      rw [he'] at hwalk
      exact congrArg Except.error (Except.error.inj hwalk)
    | ok found' => simp [he', Except.map] at hwalk
  | ok found =>
    rw [he] at hwalk
    obtain ⟨⟨e', d'⟩, he', houtline⟩ := map_eq_ok.mp hwalk
    obtain ⟨e, d⟩ := found
    obtain ⟨hnames, htruncated, rfl⟩ : Walk.namesOf e'.files = Walk.namesOf e.files ∧
        e'.truncated = e.truncated ∧ d' = d := by
      simpa [Walk.outline] using houtline
    rw [he', ok_bind, ok_bind]
    dsimp only
    rw [htruncated]
    refine congrArg Except.ok (Search.scan_sameLines (fun f f' hname => ?_) hnames p _ _ _)
    rw [hname]
    exact h.lines _

/-! ## All readers -/

/-- Whether the lines of a text end at a line feed alone or at a carriage return and a line feed,
the text has the same symbols by the form of its lines, the same dependencies, and wherever it
stands, if it is not too large to be scanned, every search finds the same. -/
theorem lineEnds_irrelevant (h : '\r' ∉ text.toList) :
    (∀ (file : String) (language : Language), language.extraction = .pattern →
      extractSymbols file (Text.textWithReturns text) language =
        extractSymbols file text language) ∧
    (∀ language : Language, extractDependencies (Text.textWithReturns text) language =
      extractDependencies text language) ∧
    ∀ (s : Sandbox) (t : FileTree) (l : Location) (mode : Nat) (root : Place) (walk : WalkOptions)
      (o : SearchOptions) (d : Deadline),
      (Text.textWithReturns text).toUTF8.size ≤ o.maxFileBytes →
      search s (t.put l (.file (Text.textWithReturns text).toUTF8 mode)) root walk o d =
        search s (t.put l (.file text.toUTF8 mode)) root walk o d := by
  have hlines : Text.lines (Text.textWithReturns text).toList = Text.lines text.toList :=
    Text.linesOf_textWithReturns h
  refine ⟨fun file language hlang => ?_, fun language => ?_, ?_⟩
  · simp only [extractSymbols, hlang, Declaration.ofText, hlines]
  · rw [extractDependencies_eq, hlines, extractDependencies_eq]
  · intro s t l mode root walk o d hsize
    exact (t.sameLines_put h hsize l mode).search s root walk d

/-- A declaration, an import and a line that ends at a blank. -/
def script : String := "function f() {}\nimport 'm'\nx \n"

def scriptPlace : Place where
  absolute := ["ws", "a.js"]
  relative := ["a.js"]

/-- White space at the end of a line; a carriage return would be some. -/
def scriptSearch : SearchOptions where
  query := { text := "\\s+$", regex := true }
  maxFileBytes := 100

/-- The search finds the blank and no carriage return. -/
theorem lineEnds_irrelevant_script :
    '\r' ∉ script.toList ∧
      (Text.textWithReturns script).toUTF8.size ≤ scriptSearch.maxFileBytes ∧
      Text.textWithReturns script = "function f() {}\r\nimport 'm'\r\nx \r\n" ∧
      extractSymbols "a.js" (Text.textWithReturns script) .javaScript =
        [⟨"f", .function, .javaScript, "a.js", 1⟩] ∧
      extractDependencies (Text.textWithReturns script) .javaScript = ["m"] ∧
      search { root := ["ws"] } (FileTree.put { entries := [(["ws"], .directory)] } ["ws", "a.js"]
          (.file (Text.textWithReturns script).toUTF8 0o644)) scriptPlace {} scriptSearch none =
        .ok { found := [⟨"a.js", 3, 2, 3, "x"⟩], filesScanned := 1 } := by
  have hreturn : '\r' ∉ script.toList := by decide +kernel
  have hsize : (Text.textWithReturns script).toUTF8.size ≤ scriptSearch.maxFileBytes := by
    decide +kernel
  obtain ⟨hsymbols, hdeps, hsearch⟩ := lineEnds_irrelevant hreturn
  refine ⟨hreturn, hsize, by decide +kernel, ?_, ?_, ?_⟩
  · rw [hsymbols "a.js" .javaScript rfl]
    decide +kernel
  · rw [hdeps .javaScript]
    decide +kernel
  · rw [hsearch _ _ _ _ _ _ _ _ hsize]
    cbv

end Worksite
