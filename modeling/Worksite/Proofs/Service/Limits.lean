import Worksite.Proofs.Deadline
import Worksite.Proofs.Service.Indexing

/-!
Caps on results. Whenever the time of a request is over, a listing and a search answer with no more
than was asked for and no more than the settings allow, and a rebuild takes no more files than the
settings allow from all its roots together.
-/
namespace Worksite

open Walk

variable {s : Sandbox} {t : FileTree} {root : Place} {d d' : Deadline} {n : Nat}

/-! ## Walks and searches -/

theorem Walk.length_gather_le {c : Location → Option (Location × FoundFile)}
    {seen ls : List Location} (hn : n ≠ 0) :
    (gather c seen (some n) d ls).1.files.length ≤ n := by
  have hfront := (gather_partOf c seen (some n) d ls).isPrefix
  rw [gather_capped hn] at hfront
  exact hfront.length_le.trans (List.length_take_le _ _)

/-- A walk from wherever finds no more files than its cap. -/
theorem Walk.length_le_of_enumerate {o : WalkOptions} {e : Enumeration}
    (hcap : o.maxCount = some n) (h : enumerate s t root o d = .ok (e, d')) :
    e.files.length ≤ n := by
  by_cases hn : n = 0
  · subst hn
    obtain ⟨filter, -, h⟩ := bind_eq_ok.mp h
    rw [if_pos hcap] at h
    obtain ⟨rfl, -⟩ := Prod.mk.inj (Except.ok.inj h)
    exact Nat.le_refl 0
  · obtain ⟨filter, -, hcases⟩ := enumerate_cases h
    rcases hcases with ⟨rfl, -⟩ | ⟨bytes, mode, -, -, rfl, -⟩ | ⟨-, -, -, hgather⟩
    · exact Nat.zero_le n
    · exact Nat.one_le_iff_ne_zero.mpr hn
    · obtain rfl := congrArg Prod.fst (Except.ok.inj ((hgather d).symm.trans h))
      rw [hcap]
      exact length_gather_le hn

/-- What a file adds leaves room for the files behind it. -/
theorem Search.length_scan_le (load : FoundFile → Option String) (p : Pattern)
    (truncated : Option Truncation) (n : Nat) (d : Deadline) (files : List FoundFile) :
    (scan load p truncated (some n) d files).found.length ≤ n := by
  induction files generalizing n d with
  | nil => exact Nat.zero_le n
  | cons f files ih =>
    rw [scan]
    by_cases hexpired : d.expired
    · rw [if_pos hexpired]
      exact Nat.zero_le n
    · rw [if_neg hexpired]
      cases load f with
      | none => exact ih n d.next
      | some text =>
        dsimp only
        split_ifs with hfull
        · exact List.length_take_le _ _
        · have hroom : (inText p f.path text.toList).length < n := by simpa using hfull
          have hrest := ih (n - (inText p f.path text.toList).length) d.next
          simp only [Option.map_some, List.length_append]
          omega

theorem length_le_of_search {walk : WalkOptions} {o : SearchOptions} {outcome : SearchOutcome}
    (hlimit : o.limit = some n) (h : search s t root walk o d = .ok outcome) :
    outcome.found.length ≤ n := by
  obtain ⟨p, -, h⟩ := bind_eq_ok.mp h
  split_ifs at h with hnone
  · obtain rfl := Except.ok.inj h
    exact Nat.zero_le n
  · obtain ⟨⟨e, d₁⟩, -, h⟩ := bind_eq_ok.mp h
    obtain rfl := Except.ok.inj h
    rw [hlimit]
    exact Search.length_scan_le _ _ _ _ _ _

/-! ## Rebuilds -/

namespace Index

variable {scope : IndexScope} {files files' : List FoundFile} {roots : List Place}

/-- What a walk adds fits into what the files so far leave of the cap. -/
theorem length_addFiles_le_cap {o : WalkOptions} {e : Enumeration} {languages : List Language}
    (hle : files.length ≤ n) (hcap : o.maxCount = some (n - files.length))
    (h : enumerate s t root o d = .ok (e, d')) :
    (addFiles languages files e.files).length ≤ n := by
  have hwalk := length_le_of_enumerate hcap h
  have hadded := length_addFiles_le languages files e.files
  omega

/-- The files of all roots together are no more than the cap, which each walk keeps. -/
theorem length_le_of_collect (hcap : scope.walk.maxCount = some n) (hle : files.length ≤ n)
    (h : collect s t scope files d roots = .ok (files', d')) : files'.length ≤ n := by
  induction roots generalizing files d with
  | nil =>
    obtain ⟨rfl, -⟩ := Prod.mk.inj (Except.ok.inj h)
    exact hle
  | cons root roots ih =>
    rw [collect] at h
    split_ifs at h with hfull hexpired
    · obtain ⟨rfl, -⟩ := Prod.mk.inj (Except.ok.inj h)
      exact hle
    · obtain ⟨rfl, -⟩ := Prod.mk.inj (Except.ok.inj h)
      exact hle
    · obtain ⟨⟨e, d₁⟩, he, h⟩ := bind_eq_ok.mp h
      have hadded : (addFiles scope.languages files e.files).length ≤ n :=
        length_addFiles_le_cap hle (by rw [hcap, Option.map_some]) he
      dsimp only at h
      split_ifs at h with htime
      · obtain ⟨rfl, -⟩ := Prod.mk.inj (Except.ok.inj h)
        exact hadded
      · exact ih hadded h

theorem length_le_of_scan {scanned : List (FoundFile × String)}
    (hcap : scope.walk.maxCount = some n) (h : scan s t scope d = .ok scanned) :
    scanned.length ≤ n := by
  obtain ⟨⟨files, d₁⟩, hfiles, h⟩ := bind_eq_ok.mp h
  obtain rfl := Except.ok.inj h
  have hloaded := (map_fst_load_sublist s t scope.maxFileBytes d₁ files).length_le
  rw [List.length_map] at hloaded
  exact hloaded.trans (length_le_of_collect hcap (by simp) hfiles)

end Index

namespace Service

variable {s : Service} {w : Workspace}

/-! ## Requests that take time -/

def listFilesBy (s : Service) (d : Deadline) (t : FileTree) (q : Request.ListFiles) :
    Except WorkspaceError Response.Files := do
  let limit := min (← nonNegative "limit" q.limit) s.limits.maxListResults.toNat
  let root ← s.sandbox.resolve t (q.root.getD "")
  let walk : WalkOptions :=
    { including := q.including, excluding := q.excluding, maxCount := some limit }
  let (e, _) ← enumerate s.sandbox t root walk d
  return { files := e.files.map FoundFile.entry }

def searchFilesBy (s : Service) (d : Deadline) (t : FileTree) (q : Request.Search) :
    Except WorkspaceError Response.Matches := do
  let limit := min (← nonNegative "limit" q.limit) s.limits.maxSearchResults.toNat
  if q.query = "" then .error (.invalidArgument "search query must not be empty")
  else
    let root ← s.sandbox.resolve t ""
    let walk : WalkOptions :=
      { including := q.including, excluding := q.excluding,
        maxCount := some s.limits.maxIndexFiles.toNat }
    let outcome ← search s.sandbox t root walk
      { query := { text := q.query, regex := q.regex, caseSensitive := q.caseSensitive }
        limit := some limit
        maxFileBytes := s.limits.maxFileBytes.toNat } d
    return { found := outcome.found }

def indexSymbolsBy (s : Service) (d : Deadline) (w : Workspace) (q : Request.IndexSymbols) :
    Except WorkspaceError IndexSnapshot := do
  let roots ← (indexPaths q).mapM (s.sandbox.resolve w.tree)
  w.index.rebuildSymbols s.sandbox w.tree (s.scope roots [] [] (indexLanguages q)) d

def graphDependenciesBy (s : Service) (d : Deadline) (w : Workspace)
    (q : Request.GraphDependencies) : Except WorkspaceError IndexSnapshot := do
  let root ← s.sandbox.resolve w.tree (q.root.getD "")
  w.index.rebuildGraph s.sandbox w.tree (s.scope [root] q.including q.excluding []) d

/-- Does what is asked under a deadline, which need not be the one that the settings give. -/
def performBy (s : Service) (d : Deadline) (w : Workspace) :
    Request → Except WorkspaceError Response × Workspace
  | .listFiles q => ((s.listFilesBy d w.tree q).map .files, w)
  | .search q => ((s.searchFilesBy d w.tree q).map .found, w)
  | .indexSymbols q =>
    match s.indexSymbolsBy d w q with
    | .ok i =>
      (.ok (.indexed {
        fileCount := i.indexedFiles, symbols := i.symbols.symbols, generation := i.generation }),
        { w with index := i })
    | .error e => (.error e, w)
  | .graphDependencies q =>
    match s.graphDependenciesBy d w q with
    | .ok i => (.ok (.graph i.graph), { w with index := i })
    | .error e => (.error e, w)
  | q => s.perform w q

/-- What the settings give is one of the deadlines. -/
theorem exists_performBy (s : Service) (w : Workspace) (q : Request) :
    ∃ d, s.performBy d w q = s.perform w q := by
  cases q with
  | listFiles q => exact ⟨.ofMilliseconds s.limits.listTimeBudgetMs.toNat, rfl⟩
  | _ => exact ⟨s.searchDeadline, rfl⟩

/-! ## Caps -/

theorem nonNegative_eq_ok {field : String} {n : Int} {m : Nat} (h : nonNegative field n = .ok m) :
    (m : Int) = n := by
  unfold nonNegative at h
  split_ifs at h with hn
  obtain rfl := Except.ok.inj h
  exact Int.toNat_of_nonneg hn

/-- An answer of the kind that was asked for, with as many results as are allowed, or fewer. -/
def Capped (s : Service) : Request → Response → Prop
  | .listFiles q, a => ∃ files, a = .files { files } ∧
      (files.length : Int) ≤ min q.limit s.limits.maxListResults.toNat
  | .search q, a => ∃ found, a = .found { found } ∧
      (found.length : Int) ≤ min q.limit s.limits.maxSearchResults.toNat
  | .indexSymbols _, a => ∃ indexed, a = .indexed indexed ∧
      indexed.fileCount ≤ s.limits.maxIndexFiles.toNat
  | .graphDependencies _, a => ∃ graph, a = .graph graph ∧
      graph.nodes.length ≤ s.limits.maxIndexFiles.toNat
  | _, _ => True

theorem length_le_of_listFilesBy {q : Request.ListFiles} {a : Response.Files}
    (h : s.listFilesBy d t q = .ok a) :
    (a.files.length : Int) ≤ min q.limit s.limits.maxListResults.toNat := by
  obtain ⟨limit, hlimit, h⟩ := bind_eq_ok.mp h
  obtain ⟨root, -, h⟩ := bind_eq_ok.mp h
  obtain ⟨⟨e, d'⟩, he, h⟩ := bind_eq_ok.mp h
  obtain rfl := Except.ok.inj h
  have hcap := length_le_of_enumerate rfl he
  have hasked := nonNegative_eq_ok hlimit
  simp only [List.length_map]
  omega

theorem length_le_of_searchFilesBy {q : Request.Search} {a : Response.Matches}
    (h : s.searchFilesBy d t q = .ok a) :
    (a.found.length : Int) ≤ min q.limit s.limits.maxSearchResults.toNat := by
  obtain ⟨limit, hlimit, h⟩ := bind_eq_ok.mp h
  split_ifs at h
  obtain ⟨root, -, h⟩ := bind_eq_ok.mp h
  obtain ⟨outcome, hsearch, h⟩ := bind_eq_ok.mp h
  obtain rfl := Except.ok.inj h
  have hcap := length_le_of_search rfl hsearch
  have hasked := nonNegative_eq_ok hlimit
  dsimp only
  omega

theorem indexedFiles_le_of_indexSymbolsBy {q : Request.IndexSymbols} {i : IndexSnapshot}
    (h : s.indexSymbolsBy d w q = .ok i) : i.indexedFiles ≤ s.limits.maxIndexFiles.toNat := by
  obtain ⟨roots, -, h⟩ := bind_eq_ok.mp h
  obtain ⟨scanned, hscan, rfl⟩ := map_eq_ok.mp h
  rw [(w.index.hasSymbolsOf_publish scanned).indexedFiles]
  exact Index.length_le_of_scan rfl hscan

theorem length_nodes_le_of_graphDependenciesBy {q : Request.GraphDependencies} {i : IndexSnapshot}
    (h : s.graphDependenciesBy d w q = .ok i) :
    i.graph.nodes.length ≤ s.limits.maxIndexFiles.toNat := by
  obtain ⟨root, -, h⟩ := bind_eq_ok.mp h
  obtain ⟨scanned, hscan, rfl⟩ := map_eq_ok.mp h
  rw [(w.index.hasGraphOf_publish scanned).nodes, List.length_map]
  exact Index.length_le_of_scan rfl hscan

/-- Whatever is asked, and whenever the time for it is over, there are no more results than were
asked for and no more than the settings allow. -/
theorem results_capped (s : Service) (w : Workspace) (q : Request) :
    (∃ d, s.performBy d w q = s.perform w q) ∧
      ∀ d a w', s.performBy d w q = (.ok a, w') → s.Capped q a := by
  refine ⟨s.exists_performBy w q, fun d a w' h => ?_⟩
  cases q with
  | listFiles q =>
    obtain ⟨files, hfiles, rfl⟩ := map_eq_ok.mp (Prod.mk.inj h).1
    exact ⟨_, rfl, length_le_of_listFilesBy hfiles⟩
  | search q =>
    obtain ⟨found, hfound, rfl⟩ := map_eq_ok.mp (Prod.mk.inj h).1
    exact ⟨_, rfl, length_le_of_searchFilesBy hfound⟩
  | indexSymbols q =>
    cases hi : s.indexSymbolsBy d w q with
    | error e => simp [performBy, hi] at h
    | ok i =>
      simp only [performBy, hi] at h
      obtain rfl := Except.ok.inj (Prod.mk.inj h).1
      exact ⟨_, rfl, indexedFiles_le_of_indexSymbolsBy hi⟩
  | graphDependencies q =>
    cases hi : s.graphDependenciesBy d w q with
    | error e => simp [performBy, hi] at h
    | ok i =>
      simp only [performBy, hi] at h
      obtain rfl := Except.ok.inj (Prod.mk.inj h).1
      exact ⟨_, rfl, length_nodes_le_of_graphDependenciesBy hi⟩
  | _ => trivial

/-- A service that indexes one file at most. -/
def narrowService : Service :=
  { pairService with settings := { limits := { maxIndexFiles := 1 } } }

/-- From two roots that overlap, one of them given twice, one of two files is processed. -/
theorem results_capped_narrow : ∃ a, (narrowService.perform { tree := pair }
      (.indexSymbols { paths := [".", "a.py", "."] })).1 = .ok (.indexed a) ∧
    a.fileCount = narrowService.limits.maxIndexFiles.toNat := by
  have htop : pairTop.Holds narrowService pair :=
    ⟨holds_pair.1.resolved, holds_pair.1.there, holds_pair.1.found⟩
  have hfile : pairFile.Holds narrowService pair :=
    ⟨holds_pair.2.resolved, holds_pair.2.there, holds_pair.2.found⟩
  have hleads : ∀ x ∈ [pairTop, pairFile, pairTop], x.Holds narrowService pair := by
    simp [htop, hfile]
  have hu : narrowService.Unhurried { tree := pair } { paths := [".", "a.py", "."] }
      [pairTop.root, pairFile.root, pairTop.root] := unhurried_of_leads hleads rfl (by decide)
  have hwalks : narrowService.walks { tree := pair } [pairTop.root, pairFile.root, pairTop.root] =
      [[foundA, foundB], [foundA], [foundA, foundB]] := walks_of_leads hleads
  have hkept : ([[foundA, foundB], [foundA], [foundA, foundB]].foldl
      (Index.keep [] (some narrowService.limits.maxIndexFiles.toNat)) []) = [foundA] := by decide
  obtain ⟨i, hindex, hcount⟩ : ∃ i, narrowService.indexSymbols { tree := pair }
      { paths := [".", "a.py", "."] } = .ok i ∧ i.indexedFiles = 1 := by
    have htext : pair.loadText (narrowService.sandbox.root ++ foundA.relative)
        narrowService.limits.maxFileBytes.toNat = some "x" := loadText_pair.1
    have hlanguages : indexLanguages { paths := [".", "a.py", "."] } = [] := rfl
    refine ⟨_, hu.indexSymbols_eq, ?_⟩
    rw [hwalks, hlanguages, hkept, (IndexSnapshot.hasSymbolsOf_publish _ _).indexedFiles,
      Index.load_of_time, List.filterMap_cons, htext]
    rfl
  have hanswer : narrowService.perform { tree := pair }
      (.indexSymbols { paths := [".", "a.py", "."] }) =
        (.ok (.indexed { fileCount := i.indexedFiles, symbols := i.symbols.symbols,
                         generation := i.generation }), { tree := pair, index := i }) := by
    simp only [perform, hindex]
  have hcapped := results_capped narrowService { tree := pair }
    (.indexSymbols { paths := [".", "a.py", "."] })
  obtain ⟨d, hd⟩ := hcapped.1
  obtain ⟨a, ha, hle⟩ := hcapped.2 d _ _ (hd.trans hanswer)
  obtain rfl := Response.indexed.inj ha
  exact ⟨_, congrArg Prod.fst hanswer, le_antisymm hle (hcount ▸ Nat.le_refl 1)⟩

end Service

end Worksite
