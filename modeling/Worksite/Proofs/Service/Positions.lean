import Worksite.Proofs.Search.Order
import Worksite.Proofs.Search.Returns
import Worksite.Proofs.Service.Accepted
import Worksite.Proofs.Symbol.Declaration
import Worksite.Proofs.Text.Words

/-!
Positions of 32 bits. Lines and columns are counted without bound and then told in 32 bits, while
the size of a file is bounded by a setting of 64 bits. What bounds them all is the column behind a
match at the end of a file of one line: it is one more than the file has bytes.
-/
namespace Worksite

open Text (Chars)
open Search (Occurrence)

variable {settings : Settings} {s : Service} {t : FileTree} {q : Request.Search}
  {a : Response.Matches} {m : SearchMatch}

def Request.Search.asked (q : Request.Search) : Query where
  text := q.query
  regex := q.regex
  caseSensitive := q.caseSensitive

/-- A match tells the line and the columns of an occurrence as they are, counted from one, and the
column behind it is further on than its own. -/
structure Search.Tells (m : SearchMatch) (x : Occurrence) : Prop where
  path : m.path = x.file.path
  line : m.line.toNat = x.line
  columnStart : m.columnStart.toNat = x.start
  columnEnd : m.columnEnd.toNat = x.stop
  forward : m.columnStart < m.columnEnd

/-- Each match that a service with the settings finds tells where a file of the tree holds it. -/
def Settings.TellsMatches (settings : Settings) : Prop :=
  ∀ (s : Service) (t : FileTree) (q : Request.Search) (a : Response.Matches),
    s.settings = settings → s.searchFiles t q = .ok a → ∀ m ∈ a.found,
      ∃ p text x, q.asked.pattern = .ok p ∧
        t.HoldsText (s.sandbox.root ++ x.file.relative) settings.limits.maxFileBytes.toNat text ∧
        x.IsIn p text.toList ∧ Search.Tells m x

/-- In each text that the settings admit, symbols that are told by the form of a line are told with
the number of that line. -/
def Settings.TellsSymbols (settings : Settings) : Prop :=
  ∀ (file text : String) (language : Language), language.extraction = .pattern →
    text.utf8ByteSize ≤ settings.limits.maxFileBytes.toNat →
    (extractSymbols file text language).map (fun s => (s.kind, s.name.toList, s.line.toNat)) =
      Declaration.ofText text.toList

/-! ## Small files -/

theorem Service.exists_of_mem_searchFiles (h : s.searchFiles t q = .ok a) (hm : m ∈ a.found) :
    ∃ (p : Pattern) (x : Occurrence) (text : String), q.asked.pattern = .ok p ∧
      t.loadText (s.sandbox.root ++ x.file.relative) s.limits.maxFileBytes.toNat = some text ∧
      x.IsIn p text.toList ∧ m = x.shown := by
  obtain ⟨limit, -, h⟩ := bind_eq_ok.mp h
  split_ifs at h with hquery
  obtain ⟨root, -, h⟩ := bind_eq_ok.mp h
  obtain ⟨outcome, hsearch, h⟩ := bind_eq_ok.mp h
  obtain rfl := Except.ok.inj h
  obtain ⟨p, f, text, hp, -, hload, hm⟩ := exists_of_mem_search hsearch hm
  rw [← Search.map_shown_occurrencesInText p f] at hm
  obtain ⟨x, hx, rfl⟩ := List.mem_map.mp hm
  obtain ⟨rfl, hin⟩ := Search.mem_occurrencesInText.mp hx
  exact ⟨p, x, text, hp, hload, hin, rfl⟩

theorem Search.tells_shown {x : Occurrence} {p : Pattern} {l : Location} {maxBytes : Nat}
    {text : String} (hload : t.loadText l maxBytes = some text) (hin : x.IsIn p text.toList)
    (hbytes : maxBytes + 1 < 2 ^ 32) : Tells x.shown x := by
  obtain ⟨hline, hstart, hstop⟩ := toNat_shown hload hin hbytes
  have hfound := List.length_pos_iff.mpr hin.found_ne_nil
  refine ⟨rfl, hline, hstart, hstop, ?_⟩
  rw [UInt32.lt_iff_toNat_lt, hstart, hstop, Occurrence.stop]
  omega

theorem Settings.tellsMatches (hbytes : settings.limits.maxFileBytes.toNat + 1 < 2 ^ 32) :
    settings.TellsMatches := by
  rintro s t q a rfl h m hm
  obtain ⟨p, x, text, hp, hload, hin, rfl⟩ := Service.exists_of_mem_searchFiles h hm
  exact ⟨p, text, x, hp, FileTree.loadText_eq_some.mp hload, hin,
    Search.tells_shown hload hin hbytes⟩

theorem Settings.tellsSymbols (hbytes : settings.limits.maxFileBytes.toNat + 1 < 2 ^ 32) :
    settings.TellsSymbols := by
  intro file text language hpattern hsize
  have hlen : text.toList.length < 2 ^ 32 := by
    have hle := Text.length_le_utf8Len text.toList
    rw [String.utf8Len_toList] at hle
    omega
  simp only [extractSymbols, hpattern, List.map_map]
  refine (List.map_congr_left fun d hd => ?_).trans (List.map_id _)
  obtain ⟨kind, name, n⟩ := d
  obtain ⟨line, -, hline, -⟩ := Declaration.exists_line_of_mem_ofText hd
  simp only [Function.comp_apply, String.toList_ofList, Text.toNat_ofNat_of_line hline hlen, id]

/-! ## A line of blanks -/

namespace Positions

/-- A blank at the end of a line. -/
def lastBlank : Pattern := .seq (.set (.range ' ' ' ')) (.look .stop)

def blanks (n : Nat) : Chars := List.replicate n ' '

theorem utf8Size_blank : ' '.utf8Size = 1 := by decide

theorem ends_lastBlank (before : Option Char) (rest : Chars) (offset : Nat) :
    lastBlank.ends { before, after := ' ' :: rest, offset } =
      if rest = [] then [{ before := some ' ', after := [], offset := offset + 1 }] else [] := by
  have hblank : (CharSet.range ' ' ' ').has ' ' = true := by decide
  simp only [lastBlank, Pattern.ends, Spot.next?, hblank, utf8Size_blank, ↓reduceIte,
    List.flatMap_cons, List.flatMap_nil, List.append_nil, Look.holds]
  cases rest with
  | nil => rfl
  | cons c rest => rfl

/-- Of blanks only the last is matched. -/
theorem matchesFrom_blanks (n offset : Nat) (before : Option Char) :
    ∃ m : Pattern.Span, lastBlank.matchesFrom 0 none before offset (blanks (n + 1)) = [m] ∧
      m.first.after = [' '] ∧ m.last.after = [] ∧ m.isEmpty = false := by
  induction n generalizing offset before with
  | zero =>
    refine ⟨{ first := { before, after := [' '], offset }
              last := { before := some ' ', after := [], offset := offset + 1 } }, ?_, rfl, rfl, ?_⟩
    · have hend : lastBlank.ends { before := some ' ', after := [], offset := offset + 1 } = [] :=
        rfl
      simp [blanks, Pattern.matchesFrom, ends_lastBlank, utf8Size_blank, hend]
    · simp [Pattern.Span.isEmpty]
  | succ n ih =>
    obtain ⟨m, hm, hrest⟩ := ih (offset + 1) (some ' ')
    refine ⟨m, ?_, hrest⟩
    have hne : blanks (n + 1) ≠ [] := by simp [blanks]
    rw [← hm, show blanks (n + 1 + 1) = ' ' :: blanks (n + 1) from rfl, Pattern.matchesFrom]
    simp only [ends_lastBlank, hne, utf8Size_blank, Nat.not_lt_zero, ↓reduceIte, List.head?_nil]

/-- The blank is told at the end of its line, and what is shown of the line is empty. -/
theorem inText_blanks (n : Nat) (path : String) :
    Search.inText lastBlank path (blanks (n + 1)) =
      [{ path, line := 1, columnStart := UInt32.ofNat (n + 1), columnEnd := UInt32.ofNat (n + 2)
         snippet := "" }] := by
  have hfeed : '\n' ∉ blanks (n + 1) := fun h => absurd (List.eq_of_mem_replicate h) (by decide)
  have hlines : Text.lines (blanks (n + 1)) = [blanks (n + 1)] :=
    Text.lines_unended hfeed (by simp [blanks])
  obtain ⟨m, hm, hfirst, hlast, hempty⟩ := matchesFrom_blanks n 0 none
  have hall : lastBlank.allMatches (blanks (n + 1)) = [m] := hm
  have hlength : (blanks (n + 1)).length = n + 1 := List.length_replicate
  have hblank : Text.Blank (blanks (n + 1)) := fun c hc => by
    rw [List.eq_of_mem_replicate hc]
    decide
  have htrim : Text.trimEnd (blanks (n + 1)) = [] := Text.trimEnd_append_blank hblank []
  have hmatch : Search.matchOf path 1 (blanks (n + 1)) m =
      { path, line := 1, columnStart := UInt32.ofNat (n + 1), columnEnd := UInt32.ofNat (n + 2)
        snippet := "" } := by
    simp only [Search.matchOf, hfirst, hlast, hlength, htrim, List.length_cons, List.length_nil,
      Nat.add_sub_cancel, Nat.zero_add, Nat.sub_zero]
    rfl
  simp [Search.inText, hlines, hall, hempty, hmatch]

def blankText (n : Nat) : String := String.ofList (blanks n)

theorem bytes_blankText (n : Nat) : Text.bytes (blankText n) = List.replicate n 32 := by
  have hbyte : String.utf8EncodeChar ' ' = [32] := by decide
  rw [Text.bytes_eq_flatMap, blankText, String.toList_ofList, blanks]
  induction n with
  | zero => rfl
  | succ n ih => rw [List.replicate_succ, List.flatMap_cons, ih, hbyte]; rfl

theorem utf8ByteSize_blankText (n : Nat) : (blankText n).utf8ByteSize = n := by
  have hlength := congrArg List.length (bytes_blankText n)
  rwa [List.length_replicate] at hlength

/-- A workspace with one file, of one line that is blank. -/
def blankTree (n : Nat) : FileTree where
  entries := [(["ws"], .directory), (["ws", "a"], .file (blankText n).toUTF8 0o644)]

def blankRoot : Place where
  absolute := ["ws"]
  relative := []

theorem loadText_blankTree {n maxBytes : Nat} (h : n ≤ maxBytes) :
    (blankTree n).loadText ["ws", "a"] maxBytes = some (blankText n) := by
  have hfind : (blankTree n).find true ["ws", "a"] = .ok (.file (blankText n).toUTF8 0o644) := by
    cbv
  have hnul : (0 : UInt8) ∉ Text.bytes (blankText n) := by
    rw [bytes_blankText]
    exact fun hmem => absurd (List.eq_of_mem_replicate hmem) (by decide)
  rw [FileTree.loadText_of_text hfind ((utf8ByteSize_blankText n).trans_le h), if_neg hnul]

theorem enumerate_blankTree (n : Nat) {cap : Nat} (hcap : cap ≠ 0) :
    ∃ e, enumerate { root := ["ws"] } (blankTree n) blankRoot { maxCount := some cap } .unbounded =
        .ok (e, .unbounded) ∧
      e.files = [{ relative := ["a"], size := (blankText n).toUTF8.size }] := by
  have hroot : (blankTree n).find true blankRoot.absolute = .ok .directory := by cbv
  obtain ⟨filter, hf⟩ : ∃ f, FileFilter.ofTexts [] [] = .ok f := FileFilter.exists_ofTexts (by simp)
  obtain ⟨e, he, hfiles, -⟩ := Walk.enumerate_of_time (s := { root := ["ws"] }) (o := {}) hf hroot
    (some cap)
  refine ⟨e, he, ?_⟩
  have hfound : Walk.found { root := ["ws"] } (blankTree n) {} blankRoot =
      [{ relative := ["a"], size := (blankText n).toUTF8.size }] := by
    rw [Walk.found_of_directory hroot]
    cbv
  rw [hfiles, hfound, Walk.capped, List.take_of_length_le]
  rw [List.length_singleton]
  exact Nat.one_le_iff_ne_zero.mpr hcap

def lastBlankSearch : Request.Search :=
  { query := " $", regex := true, caseSensitive := true, limit := 1 }

def serviceOf (settings : Settings) : Service where
  settings := settings
  sandbox := { root := ["ws"] }
  policy := {}
  pool := { size := 1 }

def withFileBytes (n : UInt64) : Settings where
  limits := { maxFileBytes := n }

end Positions

open Positions

theorem Settings.Accepted.searchFiles_pos (h : settings.Accepted) :
    settings.limits.searchTimeBudgetMs.toNat ≠ 0 ∧ settings.limits.maxSearchResults.toNat ≠ 0 ∧
      settings.limits.maxIndexFiles.toNat ≠ 0 := by
  have hpos (name : String) (n : UInt64) (hmem : (name, n) ∈ settings.limits.counts) :
      n.toNat ≠ 0 := fun hzero => h.counts _ hmem (UInt64.toNat_inj.mp hzero)
  exact ⟨hpos "limits.search_time_budget_ms" _ (by simp [Limits.counts]),
    hpos "limits.max_search_results" _ (by simp [Limits.counts]),
    hpos "limits.max_index_files" _ (by simp [Limits.counts])⟩

/-- A service with accepted settings finds the blank at the end of a file that they admit. -/
theorem Service.searchFiles_blanks (hvalid : s.settings.Accepted) (hroot : s.sandbox.root = ["ws"])
    {n : Nat} (hsize : n + 1 ≤ s.settings.limits.maxFileBytes.toNat) :
    s.searchFiles (blankTree (n + 1)) lastBlankSearch =
      .ok { found := [{ path := "a", line := 1, columnStart := UInt32.ofNat (n + 1)
                        columnEnd := UInt32.ofNat (n + 2), snippet := "" }] } := by
  obtain ⟨htime, hresults, hfiles⟩ := hvalid.searchFiles_pos
  have hsandbox : s.sandbox = { root := ["ws"] } := by rw [← hroot]
  have hresolve : s.sandbox.resolve (blankTree (n + 1)) "" = .ok blankRoot := by
    rw [hsandbox]
    cbv
  have hlimit : min 1 s.limits.maxSearchResults.toNat = 1 :=
    Nat.min_eq_left (Nat.one_le_iff_ne_zero.mpr hresults)
  have hdeadline : s.searchDeadline = .unbounded := if_neg htime
  have hpattern : lastBlankSearch.asked.pattern = .ok lastBlank := by cbv
  obtain ⟨e, he, hentries⟩ := enumerate_blankTree (n + 1) hfiles
  let load := fun f : FoundFile =>
    (blankTree (n + 1)).loadText (s.sandbox.root ++ f.relative) s.limits.maxFileBytes.toNat
  have hload : load { relative := ["a"], size := (blankText (n + 1)).toUTF8.size } =
      some (blankText (n + 1)) := by
    simp only [load, hroot]
    exact loadText_blankTree hsize
  have hoccurrences : (Search.occurrences load lastBlank e.files).map Occurrence.shown =
      Search.inText lastBlank "a" (blanks (n + 1)) := by
    rw [hentries, Search.occurrences, List.flatMap_singleton]
    simp only [hload]
    rw [Search.map_shown_occurrencesInText, blankText, String.toList_ofList]
    congr 1
  have hfound := Search.found_scan load lastBlank e.truncated (some 1) (by simp) e.files
  simp only [hoccurrences, inText_blanks, List.take_succ_cons, List.take_zero] at hfound
  have hsearch : search s.sandbox (blankTree (n + 1)) blankRoot
      { maxCount := some s.limits.maxIndexFiles.toNat }
      { query := lastBlankSearch.asked, limit := some 1
        maxFileBytes := s.limits.maxFileBytes.toNat } .unbounded =
      .ok (Search.scan load lastBlank e.truncated (some 1) .unbounded e.files) := by
    rw [← hsandbox] at he
    rw [search, hpattern, ok_bind, if_neg (by simp)]
    exact congrArg (· >>= _) he
  have hone : nonNegative "limit" lastBlankSearch.limit = .ok 1 := rfl
  rw [searchFiles, hone, ok_bind, hlimit, if_neg (by decide), hresolve, ok_bind, hdeadline]
  refine (congrArg (· >>= _) hsearch).trans (congrArg Except.ok ?_)
  rw [hfound]

/-! ## All settings -/

/-- Settings are accepted whatever the size they allow for a file. They tell positions as they are
if and only if no file they admit has more than 4294967294 bytes. -/
theorem Settings.tellsPositions_iff (hvalid : settings.validate = .ok ()) :
    settings.TellsMatches ∧ settings.TellsSymbols ↔
      settings.limits.maxFileBytes.toNat + 1 < 2 ^ 32 := by
  constructor
  · rintro ⟨hmatches, -⟩
    by_contra hbytes
    -- as many blanks as put the column behind them past the last number
    obtain ⟨n, hn⟩ : ∃ n, n + 2 = 2 ^ 32 := ⟨4294967294, rfl⟩
    have hadmits : n + 1 ≤ settings.limits.maxFileBytes.toNat := by omega
    have hanswer := Service.searchFiles_blanks (s := serviceOf settings)
      (validate_eq_ok.mp hvalid) rfl hadmits
    obtain ⟨p, text, x, -, -, -, htells⟩ := hmatches _ _ _ _ rfl hanswer _ List.mem_cons_self
    have hforward := htells.forward
    rw [hn] at hforward
    simp at hforward
  · exact fun hbytes => ⟨tellsMatches hbytes, tellsSymbols hbytes⟩

theorem Settings.tellsPositions_iff_largest :
    (withFileBytes 4294967294).validate = .ok () ∧ (withFileBytes 4294967294).TellsMatches ∧
      (withFileBytes 4294967294).TellsSymbols := by
  have hvalid : (withFileBytes 4294967294).validate = .ok () := by decide
  exact ⟨hvalid, (tellsPositions_iff hvalid).mpr (by decide)⟩

/-- With one byte more, the column behind a blank at the end of a file is told as zero. -/
theorem Service.searchFiles_wraps :
    (withFileBytes 4294967295).validate = .ok () ∧
      (blankText 4294967295).utf8ByteSize = 4294967295 ∧
      (serviceOf (withFileBytes 4294967295)).searchFiles (blankTree 4294967295)
        lastBlankSearch = .ok { found := [{ path := "a", line := 1, columnStart := 4294967295
                                            columnEnd := 0, snippet := "" }] } ∧
      ¬ (withFileBytes 4294967295).TellsMatches := by
  have hvalid : (withFileBytes 4294967295).validate = .ok () := by decide
  have hanswer := searchFiles_blanks (s := serviceOf (withFileBytes 4294967295))
    (Settings.validate_eq_ok.mp hvalid) rfl (n := 4294967294) (by decide)
  refine ⟨hvalid, utf8ByteSize_blankText 4294967295, hanswer, fun hmatches => ?_⟩
  obtain ⟨p, text, x, -, -, -, htells⟩ := hmatches _ _ _ _ rfl hanswer _ List.mem_cons_self
  exact absurd htells.forward (by decide)

end Worksite
