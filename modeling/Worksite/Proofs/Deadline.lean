import Worksite.Proofs.Index.Collection
import Worksite.Proofs.Index.Published
import Worksite.Proofs.Query
import Worksite.Search

/-!
Time that runs out. A walk, a search or a rebuild asks in several places whether its time is over;
wherever it is, what was found by then is the front of what is found with all the time, and nothing
fails.
-/
namespace Worksite

open Walk

variable {s : Sandbox} {t : FileTree} {root : Place} {o : WalkOptions} {d d₀ : Deadline}
  {e whole : Enumeration} {seen ls : List Location} {left : Option Nat}
  {c : Location → Option (Location × FoundFile)} {files files' more : List FoundFile}

/-! ## Answers -/

namespace Deadline

/-- What a deadline answers, one check after the other. -/
def answers (d : Deadline) (n : ℕ) : Bool := (next^[n] d).expired

theorem answers_unbounded (n : ℕ) : answers .unbounded n = false := by
  rw [answers, Function.iterate_fixed next_unbounded, expired_unbounded]

theorem answers_some (k n : ℕ) : answers (some k) n = decide (k ≤ n) := by
  induction n generalizing k with
  | zero => cases k <;> rfl
  | succ n ih =>
    rw [answers, Function.iterate_succ_apply, ← answers]
    cases k with
    | zero => simpa [next] using ih 0
    | succ k => simpa [next] using ih k

/-- Every sequence of answers that stays at yes is that of a deadline. -/
theorem exists_answers {given : ℕ → Bool} (h : ∀ n, given n → given (n + 1)) :
    ∃ d : Deadline, d.answers = given := by
  by_cases hever : ∃ n, given n
  · have hfrom : ∀ n, Nat.find hever ≤ n → given n := fun n hn =>
      Nat.le_induction (Nat.find_spec hever) (fun m _ => h m) n hn
    refine ⟨some (Nat.find hever), funext fun n => ?_⟩
    rw [answers_some, Bool.eq_iff_iff, decide_eq_true_iff]
    exact ⟨hfrom n, Nat.find_min' hever⟩
  · push Not at hever
    refine ⟨.unbounded, funext fun n => ?_⟩
    rw [answers_unbounded, Bool.eq_false_iff.mpr (hever n)]

end Deadline

/-! ## Walks -/

/-- What a walk found by the time that it was ended: all of it, or the first files and word that
the time was over. -/
def Enumeration.PartOf (e whole : Enumeration) : Prop :=
  e = whole ∨ e.truncated = some .timeBudget ∧ e.files <+: whole.files

theorem Enumeration.PartOf.isPrefix (h : e.PartOf whole) : e.files <+: whole.files := by
  rcases h with rfl | ⟨-, h⟩
  · exact List.prefix_refl _
  · exact h

namespace Walk

theorem gather_partOf (c : Location → Option (Location × FoundFile)) (seen : List Location)
    (left : Option Nat) (d : Deadline) (ls : List Location) :
    (gather c seen left d ls).1.PartOf (gather c seen left .unbounded ls).1 := by
  induction ls generalizing seen left d with
  | nil => exact .inl rfl
  | cons l ls ih =>
    rw [gather_cons, gather_cons]
    by_cases hexpired : d.expired
    · rw [if_pos hexpired]
      exact .inr ⟨rfl, List.nil_prefix⟩
    · rw [if_neg hexpired, if_neg (by decide), Deadline.next_unbounded]
      cases c l with
      | none => exact ih seen left d.next
      | some found =>
        obtain ⟨place, file⟩ := found
        dsimp only
        split_ifs with hseen hlast
        · exact ih seen left d.next
        · exact .inl rfl
        · -- the file stands before what is found later, with and without the time
          rcases ih (place :: seen) (left.map (· - 1)) d.next with h | ⟨htime, hfiles⟩
          · exact .inl (by rw [h])
          · exact .inr ⟨htime, List.cons_prefix_cons.mpr ⟨rfl, hfiles⟩⟩

/-- A walk that succeeds with all the time succeeds with less, and finds a part. -/
theorem exists_partOf (h : enumerate s t root o .unbounded = .ok (whole, d₀)) (d : Deadline) :
    ∃ e d', enumerate s t root o d = .ok (e, d') ∧ e.PartOf whole := by
  obtain ⟨filter, -, hcases⟩ := enumerate_cases h
  rcases hcases with ⟨-, hsame⟩ | ⟨-, -, -, -, -, hsame⟩ | ⟨-, -, -, hgather⟩
  · exact ⟨whole, d, hsame d, .inl rfl⟩
  · exact ⟨whole, d, hsame d, .inl rfl⟩
  · obtain rfl := congrArg Prod.fst (Except.ok.inj ((hgather _).symm.trans h))
    have hpart := gather_partOf (candidate? s t filter root.absolute) [] o.maxCount d
      (visited t root.absolute)
    exact ⟨_, _, hgather d, hpart⟩

end Walk

/-! ## Searches -/

/-- What is scanned in time is the front of all that is scanned, also where a walk left out the
last files. -/
theorem Search.isPrefix_scan {load : FoundFile → Option String} {p : Pattern}
    {truncated truncated' : Option Truncation} (h : files <+: files') :
    (scan load p truncated left d files).found <+:
      (scan load p truncated' left .unbounded files').found := by
  induction files generalizing files' left d with
  | nil => exact List.nil_prefix
  | cons f files ih =>
    obtain ⟨more, rfl⟩ := h
    rw [List.cons_append, scan, scan]
    by_cases hexpired : d.expired
    · rw [if_pos hexpired]
      exact List.nil_prefix
    · rw [if_neg hexpired, if_neg (by decide), Deadline.next_unbounded]
      cases load f with
      | none => exact ih (List.prefix_append _ _)
      | some text =>
        dsimp only
        split_ifs
        · exact List.prefix_refl _
        · exact (List.prefix_append_right_inj _).mpr (ih (List.prefix_append _ _))

theorem exists_isPrefix_search {walk : WalkOptions} {o : SearchOptions} {whole : SearchOutcome}
    (h : search s t root walk o .unbounded = .ok whole) (d : Deadline) :
    ∃ outcome, search s t root walk o d = .ok outcome ∧ outcome.found <+: whole.found := by
  obtain ⟨p, hp, h⟩ := bind_eq_ok.mp h
  simp only [search, hp, ok_bind]
  split_ifs at h ⊢ with hnone
  · obtain rfl := Except.ok.inj h
    exact ⟨_, rfl, List.prefix_refl _⟩
  · obtain ⟨⟨e, d₀⟩, he, h⟩ := bind_eq_ok.mp h
    obtain ⟨part, d', hpart, hfront⟩ := exists_partOf he d
    obtain ⟨rfl, -⟩ := untimed he
    obtain rfl := Except.ok.inj h
    rw [hpart, ok_bind]
    exact ⟨_, rfl, Search.isPrefix_scan hfront.isPrefix⟩

/-! ## Rebuilds -/

/-- The snapshot after a rebuild of the symbols that scanned some texts. -/
structure IndexSnapshot.HasSymbolsOf (next i : IndexSnapshot)
    (scanned : List (FoundFile × String)) : Prop where
  generation : next.generation = i.generation + 1
  symbols : next.symbols.symbols =
    scanned.flatMap fun x => extractSymbols x.1.path x.2 x.1.language
  indexedFiles : next.indexedFiles = scanned.length
  graph : next.graph = i.graph

/-- The snapshot after a rebuild of the graph that scanned some texts. -/
structure IndexSnapshot.HasGraphOf (next i : IndexSnapshot)
    (scanned : List (FoundFile × String)) : Prop where
  generation : next.generation = i.generation + 1
  nodes : next.graph.nodes = scanned.map fun x => x.1.path
  edges : next.graph.edges = scanned.flatMap fun x =>
    (extractDependencies x.2 x.1.language).map fun target => { source := x.1.path, target }
  symbols : next.symbols = i.symbols
  indexedFiles : next.indexedFiles = i.indexedFiles

theorem IndexSnapshot.hasSymbolsOf_publish (i : IndexSnapshot)
    (scanned : List (FoundFile × String)) :
    (i.publish (Index.symbolsOf scanned)).HasSymbolsOf i scanned where
  generation := rfl
  symbols := symbols_publish i scanned
  indexedFiles := rfl
  graph := rfl

theorem IndexSnapshot.hasGraphOf_publish (i : IndexSnapshot)
    (scanned : List (FoundFile × String)) :
    (i.publish (Index.graphOf scanned)).HasGraphOf i scanned where
  generation := rfl
  nodes := by rw [graph_publish]
  edges := by rw [graph_publish]
  symbols := rfl
  indexedFiles := rfl

namespace Index

variable {scope : IndexScope} {languages : List Language} {roots : List Place}

theorem isPrefix_addFiles (languages : List Language) (files more : List FoundFile) :
    files <+: addFiles languages files more := by
  induction more generalizing files with
  | nil => exact List.prefix_refl _
  | cons f more ih =>
    rw [addFiles_cons]
    refine List.IsPrefix.trans ?_ (ih _)
    split_ifs
    · exact List.prefix_append _ _
    · exact List.prefix_refl _

theorem addFiles_mono {part : List FoundFile} (h : part <+: more) :
    addFiles languages files part <+: addFiles languages files more := by
  obtain ⟨rest, rfl⟩ := h
  rw [addFiles_append]
  exact isPrefix_addFiles _ _ _

/-- What is collected stays, whatever later roots add. -/
theorem isPrefix_of_collect (h : collect s t scope files d roots = .ok (files', d₀)) :
    files <+: files' := by
  induction roots generalizing files d with
  | nil =>
    obtain ⟨rfl, -⟩ := Prod.mk.inj (Except.ok.inj h)
    exact List.prefix_refl _
  | cons root roots ih =>
    rw [collect] at h
    split_ifs at h with hfull hexpired
    · obtain ⟨rfl, -⟩ := Prod.mk.inj (Except.ok.inj h)
      exact List.prefix_refl _
    · obtain ⟨rfl, -⟩ := Prod.mk.inj (Except.ok.inj h)
      exact List.prefix_refl _
    · obtain ⟨⟨e, d₁⟩, -, h⟩ := bind_eq_ok.mp h
      have hadded := isPrefix_addFiles scope.languages files e.files
      dsimp only at h
      split_ifs at h with htime
      · obtain ⟨rfl, -⟩ := Prod.mk.inj (Except.ok.inj h)
        exact hadded
      · exact hadded.trans (ih h)

/-- Time that is not bounded is left as it was. -/
theorem untimed_collect (h : collect s t scope files .unbounded roots = .ok (files', d₀)) :
    d₀ = .unbounded := by
  induction roots generalizing files with
  | nil => exact (Prod.mk.inj (Except.ok.inj h)).2.symm
  | cons root roots ih =>
    rw [collect] at h
    split_ifs at h with hfull hexpired
    · exact (Prod.mk.inj (Except.ok.inj h)).2.symm
    · cases hexpired
    · rw [Deadline.next_unbounded] at h
      obtain ⟨⟨whole, d₁⟩, hwhole, h⟩ := bind_eq_ok.mp h
      obtain ⟨rfl, hnever⟩ := untimed hwhole
      dsimp only at h
      rw [if_neg hnever] at h
      exact ih h

/-- With less time the files of the first roots are collected, and those of the walk that the time
ended as far as it came. -/
theorem exists_isPrefix_collect (d : Deadline)
    (h : collect s t scope files .unbounded roots = .ok (files', d₀)) :
    ∃ part d', collect s t scope files d roots = .ok (part, d') ∧ part <+: files' := by
  induction roots generalizing files d with
  | nil => exact ⟨_, _, rfl, isPrefix_of_collect h⟩
  | cons root roots ih =>
    -- wherever the time ends between roots, what there is by then stays in the end
    have hfront := isPrefix_of_collect h
    rw [collect] at h ⊢
    by_cases hfull : scope.walk.maxCount.map (· - files.length) = some 0
    · exact ⟨files, d, if_pos hfull, hfront⟩
    by_cases hexpired : d.expired
    · exact ⟨files, d, (if_neg hfull).trans (if_pos hexpired), hfront⟩
    simp only [hfull, hexpired, Deadline.expired_unbounded, Deadline.next_unbounded,
      Bool.false_eq_true, ↓reduceIte] at h ⊢
    obtain ⟨⟨whole, d₁⟩, hwhole, h⟩ := bind_eq_ok.mp h
    obtain ⟨e, d', he, hpart⟩ := exists_partOf hwhole d.next
    simp only [he, ok_bind]
    obtain ⟨rfl, hnever⟩ := untimed hwhole
    rw [if_neg hnever] at h
    -- a walk that came to its end leaves the time to the next root, any other is the last
    rcases hpart with rfl | ⟨htime, hfiles⟩
    · rw [if_neg hnever]
      exact ih d' h
    · rw [if_pos htime]
      exact ⟨_, _, rfl, (addFiles_mono hfiles).trans (isPrefix_of_collect h)⟩

/-- What is loaded in time is the front of what is loaded from all files, also where the last files
are not there. -/
theorem isPrefix_load {maxBytes : Nat} (d : Deadline) (h : files <+: files') :
    load s t maxBytes d files <+: load s t maxBytes .unbounded files' := by
  induction files generalizing files' d with
  | nil => exact List.nil_prefix
  | cons f files ih =>
    obtain ⟨more, rfl⟩ := h
    rw [List.cons_append, load, load]
    by_cases hexpired : d.expired
    · rw [if_pos hexpired]
      exact List.nil_prefix
    · rw [if_neg hexpired, if_neg (by decide), Deadline.next_unbounded]
      exact (List.prefix_append_right_inj _).mpr (ih _ (List.prefix_append _ _))

/-- With less time a scan succeeds as well, with the first of the texts. -/
theorem exists_isPrefix_scan {scanned : List (FoundFile × String)} (d : Deadline)
    (h : scan s t scope .unbounded = .ok scanned) :
    ∃ part, scan s t scope d = .ok part ∧ part <+: scanned := by
  obtain ⟨⟨files, d₀⟩, hfiles, h⟩ := bind_eq_ok.mp h
  obtain ⟨part, d', hpart, hfront⟩ := exists_isPrefix_collect d hfiles
  obtain rfl : d₀ = .unbounded := untimed_collect hfiles
  obtain rfl := Except.ok.inj h
  exact ⟨_, by rw [scan, hpart, ok_bind]; rfl, isPrefix_load d' hfront⟩

end Index

/-! ## Whatever succeeds -/

/-- Two scripts with a function each, the second of which imports the first. -/
def paired : FileTree where
  entries := [(["ws"], .directory), (["ws", "a.js"], .file "function f() {}\n".toUTF8 0o644),
    (["ws", "b.js"], .file "import './a.js'\nfunction g() {}\n".toUTF8 0o644)]
  distinct := by decide

def pairedSandbox : Sandbox where
  root := ["ws"]

def pairedRoot : Place where
  absolute := ["ws"]
  relative := []

def pairedFiles : List FoundFile :=
  [{ relative := ["a.js"], size := 16 }, { relative := ["b.js"], size := 32 }]

def pairedSearch : SearchOptions where
  query := { text := "function", caseSensitive := true }
  maxFileBytes := 100

def pairedScope : IndexScope where
  roots := [pairedRoot]
  maxFileBytes := 100

theorem enumerate_paired : enumerate pairedSandbox paired pairedRoot {} .unbounded =
    .ok ({ files := pairedFiles }, .unbounded) := by
  have hroot : paired.find true pairedRoot.absolute = .ok .directory := by cbv
  obtain ⟨filter, hf⟩ : ∃ f, FileFilter.ofTexts [] [] = .ok f :=
    FileFilter.exists_ofTexts (by simp)
  have hfound : found pairedSandbox paired {} pairedRoot = pairedFiles := by
    rw [found_of_directory hroot]
    cbv
  rw [← hfound]
  exact enumerate_found (o := {}) hf hroot

theorem search_paired : search pairedSandbox paired pairedRoot {} pairedSearch .unbounded =
    .ok { found :=
            [{ path := "a.js", line := 1, columnStart := 1, columnEnd := 9
               snippet := "function f() {}" },
             { path := "b.js", line := 2, columnStart := 1, columnEnd := 9
               snippet := "function g() {}" }]
          filesScanned := 2 } := by
  have hpattern : pairedSearch.query.pattern = .ok (Pattern.literal false "function".toList) := by
    rw [Query.pattern_eq rfl (by decide)]
    exact if_pos (by decide)
  simp only [search, hpattern, enumerate_paired, ok_bind]
  cbv

theorem scan_paired : Index.scan pairedSandbox paired pairedScope .unbounded =
    .ok [({ relative := ["a.js"], size := 16 }, "function f() {}\n"),
      ({ relative := ["b.js"], size := 32 }, "import './a.js'\nfunction g() {}\n")] := by
  have hwalk : enumerate pairedSandbox paired pairedRoot
      { pairedScope.walk with maxCount := pairedScope.walk.maxCount.map (· - 0) } .unbounded = _ :=
    enumerate_paired
  have hcollect : Index.collect pairedSandbox paired pairedScope [] .unbounded [pairedRoot] =
      .ok (pairedFiles, .unbounded) := by
    rw [Index.collect, Deadline.next_unbounded, List.length_nil, hwalk]
    decide +kernel
  have hroots : pairedScope.roots = [pairedRoot] := rfl
  rw [Index.scan, hroots, hcollect]
  cbv

namespace Deadline

/-- Deadlines are the ways to say yes from some moment on. Whatever succeeds with all the time
succeeds under each of them: a walk finds the first of the files, a search the first of the matches,
and a rebuild publishes, as the next generation, what is in the first of the texts. -/
theorem leaves_front :
    (∀ given : ℕ → Bool, (∀ n, given n → given (n + 1)) → ∃ d : Deadline, d.answers = given) ∧
    ∀ (d : Deadline) (s : Sandbox) (t : FileTree),
      (∀ root walk whole d₀, enumerate s t root walk .unbounded = .ok (whole, d₀) →
        ∃ e d', enumerate s t root walk d = .ok (e, d') ∧ e.files <+: whole.files) ∧
      (∀ root walk o whole, search s t root walk o .unbounded = .ok whole →
        ∃ outcome, search s t root walk o d = .ok outcome ∧ outcome.found <+: whole.found) ∧
      ∀ (i : IndexSnapshot) scope,
        (∀ whole, i.rebuildSymbols s t scope .unbounded = .ok whole →
          ∃ scanned part next, Index.scan s t scope .unbounded = .ok scanned ∧
            whole.HasSymbolsOf i scanned ∧ part <+: scanned ∧
            i.rebuildSymbols s t scope d = .ok next ∧ next.HasSymbolsOf i part) ∧
        (∀ whole, i.rebuildGraph s t scope .unbounded = .ok whole →
          ∃ scanned part next, Index.scan s t scope .unbounded = .ok scanned ∧
            whole.HasGraphOf i scanned ∧ part <+: scanned ∧
            i.rebuildGraph s t scope d = .ok next ∧ next.HasGraphOf i part) := by
  refine ⟨fun given => exists_answers, fun d s t => ⟨?_, ?_, fun i scope => ⟨?_, ?_⟩⟩⟩
  · intro root walk whole d₀ h
    obtain ⟨e, d', he, hpart⟩ := exists_partOf h d
    exact ⟨e, d', he, hpart.isPrefix⟩
  · intro root walk o whole h
    exact exists_isPrefix_search h d
  · intro whole h
    obtain ⟨scanned, hscan, rfl⟩ := map_eq_ok.mp h
    obtain ⟨part, hpart, hfront⟩ := Index.exists_isPrefix_scan d hscan
    exact ⟨scanned, part, _, hscan, i.hasSymbolsOf_publish scanned, hfront,
      map_eq_ok.mpr ⟨part, hpart, rfl⟩, i.hasSymbolsOf_publish part⟩
  · intro whole h
    obtain ⟨scanned, hscan, rfl⟩ := map_eq_ok.mp h
    obtain ⟨part, hpart, hfront⟩ := Index.exists_isPrefix_scan d hscan
    exact ⟨scanned, part, _, hscan, i.hasGraphOf_publish scanned, hfront,
      map_eq_ok.mpr ⟨part, hpart, rfl⟩, i.hasGraphOf_publish part⟩

/-- Time for the start and one file of a walk, for one file of a search, and for one text of a
rebuild. -/
theorem leaves_front_paired :
    (∃ d : Deadline, d.answers = fun n => decide (3 ≤ n)) ∧
    (∃ e d', enumerate pairedSandbox paired pairedRoot {} (some 2) = .ok (e, d') ∧
      e.files <+: pairedFiles) ∧
    (∃ outcome, search pairedSandbox paired pairedRoot {} pairedSearch (some 4) = .ok outcome ∧
      outcome.found.length ≤ 2) ∧
    (∃ part next, part <+: ["a.js", "b.js"] ∧
      IndexSnapshot.rebuildSymbols {} pairedSandbox paired pairedScope (some 5) = .ok next ∧
      next.generation = 1 ∧ next.indexedFiles = part.length) ∧
    ∃ next, IndexSnapshot.rebuildGraph {} pairedSandbox paired pairedScope (some 5) = .ok next ∧
      next.generation = 1 ∧ next.graph.nodes <+: ["a.js", "b.js"] := by
  obtain ⟨hanswers, hfront⟩ := leaves_front
  have hpaths {part scanned : List (FoundFile × String)} (hpart : part <+: scanned)
      (hscan : Index.scan pairedSandbox paired pairedScope .unbounded = .ok scanned) :
      (part.map fun x => x.1.path) <+: ["a.js", "b.js"] := by
    obtain rfl := Except.ok.inj (scan_paired.symm.trans hscan)
    exact hpart.map _
  refine ⟨hanswers _ fun n hn => ?_, ?_, ?_, ?_, ?_⟩
  · rw [decide_eq_true_iff] at hn ⊢
    omega
  · exact (hfront (some 2) _ _).1 _ _ _ _ enumerate_paired
  · obtain ⟨outcome, h, hfound⟩ := (hfront (some 4) _ _).2.1 _ _ _ _ search_paired
    exact ⟨outcome, h, hfound.length_le⟩
  · obtain ⟨scanned, part, next, hscan, -, hpart, h, hnext⟩ :=
      ((hfront (some 5) _ _).2.2 {} _).1 _ (map_eq_ok.mpr ⟨_, scan_paired, rfl⟩)
    exact ⟨_, next, hpaths hpart hscan, h, hnext.generation, by
      rw [hnext.indexedFiles, List.length_map]⟩
  · obtain ⟨scanned, part, next, hscan, -, hpart, h, hnext⟩ :=
      ((hfront (some 5) _ _).2.2 {} _).2 _ (map_eq_ok.mpr ⟨_, scan_paired, rfl⟩)
    exact ⟨next, h, hnext.generation, hnext.nodes ▸ hpaths hpart hscan⟩

end Deadline

end Worksite
