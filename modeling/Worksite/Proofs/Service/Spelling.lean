import Worksite.Proofs.Path.Spelling
import Worksite.Proofs.Service.Confinement

/-!
Spellings of requests: paths that are folded to the same location are the same to the service, up
to the path that an error quotes, and a path that is folded to no location at or below the root is
refused, whatever the file tree holds.
-/
namespace Worksite

open FileTree

variable {α β : Type} {t : FileTree} {w : Workspace} {path path' : String}

/-- The paths that a request names, in the order in which they are resolved. -/
def Request.paths : Request → List String
  | .listDirectory q => [q.path]
  | .readFile q => [q.path]
  | .writeFile q => [q.path]
  | .delete q => [q.path]
  | .listFiles q => [q.root.getD ""]
  | .readLines q => [q.path]
  | .search _ => []
  | .indexSymbols q => q.paths
  | .searchSymbols _ => []
  | .graphDependencies q => [q.root.getD ""]

/-- Two requests that differ in the spelling of their paths only. -/
inductive Request.Respelled (root : Location) : Request → Request → Prop where
  | listDirectory (q : Request.ListDirectory) {path : String}
      (h : Path.locate root q.path = Path.locate root path) :
      Respelled root (.listDirectory q) (.listDirectory { q with path })
  | readFile (q : Request.ReadFile) {path : String}
      (h : Path.locate root q.path = Path.locate root path) :
      Respelled root (.readFile q) (.readFile { q with path })
  | writeFile (q : Request.WriteFile) {path : String}
      (h : Path.locate root q.path = Path.locate root path) :
      Respelled root (.writeFile q) (.writeFile { q with path })
  | delete (q : Request.Delete) {path : String}
      (h : Path.locate root q.path = Path.locate root path) :
      Respelled root (.delete q) (.delete { q with path })
  | listFiles (q : Request.ListFiles) {path : Option String}
      (h : Path.locate root (q.root.getD "") = Path.locate root (path.getD "")) :
      Respelled root (.listFiles q) (.listFiles { q with root := path })
  | readLines (q : Request.ReadLines) {path : String}
      (h : Path.locate root q.path = Path.locate root path) :
      Respelled root (.readLines q) (.readLines { q with path })
  | indexSymbols (q : Request.IndexSymbols) {paths : List String}
      (h : List.Forall₂ (fun p p' => Path.locate root p = Path.locate root p') q.paths paths) :
      Respelled root (.indexSymbols q) (.indexSymbols { q with paths })
  | graphDependencies (q : Request.GraphDependencies) {path : Option String}
      (h : Path.locate root (q.root.getD "") = Path.locate root (path.getD "")) :
      Respelled root (.graphDependencies q) (.graphDependencies { q with root := path })

/-- A path that is folded to no location at or below the root. -/
def Path.Escapes (root : Location) (path : String) : Prop :=
  ∀ l, Path.locate root path = some l → ¬ root <+: l

/-! ## Answers that quote a path -/

/-- Two answers that are the same up to the path, one of a pair, that their error quotes. -/
inductive SameBut (quoted : List (String × String)) :
    Except WorkspaceError α → Except WorkspaceError α → Prop where
  | same (a : Except WorkspaceError α) : SameBut quoted a a
  | escape {path path' : String} (h : (path, path') ∈ quoted) :
      SameBut quoted (.error (.pathEscape path)) (.error (.pathEscape path'))
  | system {path path' : String} (h : (path, path') ∈ quoted) (e : SystemError) :
      SameBut quoted (.error (.ofSystem path e)) (.error (.ofSystem path' e))

namespace SameBut

variable {quoted more : List (String × String)} {x x' : Except WorkspaceError α}

theorem mono (h : SameBut quoted x x') (hsub : quoted ⊆ more) : SameBut more x x' := by
  cases h with
  | same => exact .same x
  | escape hmem => exact .escape (hsub hmem)
  | system hmem e => exact .system (hsub hmem) e

theorem bind {f f' : α → Except WorkspaceError β} (h : SameBut quoted x x')
    (hf : ∀ a, SameBut quoted (f a) (f' a)) : SameBut quoted (x >>= f) (x' >>= f') := by
  cases h with
  | same =>
    cases x with
    | error e => exact .same _
    | ok a => exact hf a
  | escape hmem => exact .escape hmem
  | system hmem e => exact .system hmem e

theorem map (h : SameBut quoted x x') (f : α → β) : SameBut quoted (x.map f) (x'.map f) := by
  cases h with
  | same => exact .same _
  | escape hmem => exact .escape hmem
  | system hmem e => exact .system hmem e

/-- What treats every error alike treats two such answers alike: they are one answer, or errors
that differ in the path that they quote, whatever the answer would have been. -/
@[elab_as_elim]
theorem elim {P : Except WorkspaceError α → Except WorkspaceError α → Prop}
    (h : SameBut quoted x x') (same : ∀ a, P a a)
    (refused : ∀ e e', (∀ β : Type, SameBut quoted (.error e : Except WorkspaceError β) (.error e')) →
      P (.error e) (.error e')) : P x x' := by
  cases h with
  | same => exact same x
  | escape hmem => exact refused _ _ fun _ => .escape hmem
  | system hmem e => exact refused _ _ fun _ => .system hmem e

end SameBut

namespace Sandbox

variable {s : Sandbox}

theorem resolveNames_shown (s : Sandbox) (t : FileTree) (path path' : String) (names : Location) :
    SameBut [(path, path')] (s.resolveNames t path names) (s.resolveNames t path' names) := by
  unfold resolveNames
  split_ifs
  · exact .escape List.mem_cons_self
  · split
    · exact .system List.mem_cons_self _
    · split
      · exact .same _
      · exact .escape List.mem_cons_self

theorem resolve_respelled (h : Path.locate s.root path = Path.locate s.root path') :
    SameBut [(path, path')] (s.resolve t path) (s.resolve t path') := by
  unfold resolve
  rw [← h]
  split
  · exact .escape List.mem_cons_self
  · exact resolveNames_shown s t path path' _

theorem resolveEntry_respelled (h : Path.locate s.root path = Path.locate s.root path') :
    SameBut [(path, path')] (s.resolveEntry t path) (s.resolveEntry t path') := by
  unfold resolveEntry
  rw [← h]
  split
  · exact .escape List.mem_cons_self
  · split_ifs
    · exact .escape List.mem_cons_self
    · exact resolveNames_shown s t path path' _
    · exact .same _

theorem resolve_of_escapes (h : Path.Escapes s.root path) :
    s.resolve t path = .error (.pathEscape path) := by
  unfold resolve
  split
  · rfl
  · next names hl =>
    have hout : names.isWithin s.root = false :=
      Bool.eq_false_iff.mpr fun hin => h names hl (List.isPrefixOf_iff_prefix.mp hin)
    simp [resolveNames, hout]

theorem resolveEntry_of_escapes (h : Path.Escapes s.root path) :
    s.resolveEntry t path = .error (.pathEscape path) := by
  unfold resolveEntry
  split
  · rfl
  · next names hl =>
    have hout : names.isWithin s.root = false :=
      Bool.eq_false_iff.mpr fun hin => h names hl (List.isPrefixOf_iff_prefix.mp hin)
    simp [hout]

theorem mapM_resolve_respelled {paths paths' : List String}
    (h : List.Forall₂ (fun p p' => Path.locate s.root p = Path.locate s.root p') paths paths') :
    SameBut (paths.zip paths') (paths.mapM (s.resolve t)) (paths'.mapM (s.resolve t)) := by
  induction h with
  | nil => exact .same _
  | @cons path path' paths paths' hpath _ ih =>
    rw [List.mapM_cons, List.mapM_cons, List.zip_cons_cons]
    have hfirst : SameBut ((path, path') :: paths.zip paths') (s.resolve t path)
        (s.resolve t path') := (resolve_respelled hpath).mono (by simp)
    exact hfirst.bind fun _ => (ih.mono (List.subset_cons_self _ _)).bind fun _ => .same _

end Sandbox

namespace Service

variable {s : Service} {q q' : Request}

theorem writeFile_respelled (q : Request.WriteFile)
    (h : Path.locate s.sandbox.root q.path = Path.locate s.sandbox.root path) :
    (s.writeFile t { q with path }).2 = (s.writeFile t q).2 ∧
      SameBut [(q.path, path)] (s.writeFile t q).1 (s.writeFile t { q with path }).1 := by
  have hplan : SameBut [(q.path, path)] (s.planWrite t q) (s.planWrite t { q with path }) :=
    (SameBut.same _).bind fun _ => (Sandbox.resolve_respelled h).bind fun _ => .same _
  unfold writeFile
  refine hplan.elim (fun _ => ⟨rfl, .same _⟩) ?_
  intro e e' herror
  exact ⟨rfl, herror _⟩

theorem indexSymbols_respelled (q : Request.IndexSymbols) {paths : List String}
    (h : List.Forall₂ (fun p p' => Path.locate s.sandbox.root p = Path.locate s.sandbox.root p')
      q.paths paths) :
    SameBut (q.paths.zip paths) (s.indexSymbols w q) (s.indexSymbols w { q with paths }) := by
  unfold indexSymbols
  cases hp : q.paths with
  | nil =>
    rw [hp] at h
    obtain rfl := List.forall₂_nil_left_iff.mp h
    exact .same _
  | cons path rest =>
    rw [hp] at h
    have hblank : paths.isEmpty = false := by
      cases h
      rfl
    simp only [hblank, List.isEmpty_cons, Bool.false_eq_true, ↓reduceIte]
    exact (Sandbox.mapM_resolve_respelled h).bind fun _ => .same _

/-- Requests that differ in the spelling of their paths have the same effect, and the same answer
up to the path that an error quotes. -/
theorem perform_respelled (s : Service) (w : Workspace) (h : q.Respelled s.sandbox.root q') :
    (s.perform w q').2 = (s.perform w q).2 ∧
      SameBut (q.paths.zip q'.paths) (s.perform w q).1 (s.perform w q').1 := by
  cases h with
  | listDirectory q h | readFile q h =>
    exact ⟨rfl, ((Sandbox.resolve_respelled h).bind fun _ => .same _).map _⟩
  | listFiles q h =>
    have hroot := Sandbox.resolve_respelled (t := w.tree) h
    exact ⟨rfl, ((SameBut.same _).bind fun _ => hroot.bind fun _ => .same _).map _⟩
  | readLines q h =>
    have hfile := Sandbox.resolve_respelled (t := w.tree) h
    refine ⟨rfl, SameBut.map ?_ _⟩
    exact (SameBut.same _).bind fun _ => (SameBut.same _).bind fun _ => hfile.bind fun _ => .same _
  | writeFile q h =>
    obtain ⟨heffect, hanswer⟩ := writeFile_respelled (t := w.tree) q h
    exact ⟨congrArg (fun t => { w with tree := t }) heffect, hanswer.map _⟩
  | @delete q path h =>
    have hdeleted : SameBut [(q.path, path)] (s.delete w.tree q)
        (s.delete w.tree { q with path }) :=
      (SameBut.same _).bind fun _ => (Sandbox.resolveEntry_respelled h).bind fun _ => .same _
    simp only [perform]
    refine hdeleted.elim (fun _ => ⟨rfl, .same _⟩) ?_
    intro e e' herror
    exact ⟨rfl, herror _⟩
  | indexSymbols q h =>
    have hindexed := indexSymbols_respelled (w := w) q h
    simp only [perform]
    refine hindexed.elim (fun _ => ⟨rfl, .same _⟩) ?_
    intro e e' herror
    exact ⟨rfl, herror _⟩
  | @graphDependencies q path h =>
    have hgraph : SameBut [(q.root.getD "", path.getD "")] (s.graphDependencies w q)
        (s.graphDependencies w { q with root := path }) :=
      (Sandbox.resolve_respelled h).bind fun _ => .same _
    simp only [perform]
    refine hgraph.elim (fun _ => ⟨rfl, .same _⟩) ?_
    intro e e' herror
    exact ⟨rfl, herror _⟩

/-! ## Paths that lead out -/

/-- What a request asks apart from its paths is in order: no number is negative, and a change is
asked of a workspace that may be changed. -/
def Admits (s : Service) : Request → Prop
  | .writeFile _ | .delete _ => s.settings.workspace.readOnly = false
  | .listFiles q => 0 ≤ q.limit
  | .readLines q => (∀ n ∈ q.first, 0 ≤ n) ∧ ∀ n ∈ q.last, 0 ≤ n
  | _ => True

theorem nonNegative_of_le {n : Int} (field : String) (hn : 0 ≤ n) :
    nonNegative field n = .ok n.toNat := if_pos hn

theorem mapM_nonNegative {n : Option Int} (field : String) (hn : ∀ k ∈ n, 0 ≤ k) :
    n.mapM (nonNegative field) = .ok (n.map Int.toNat) := by
  cases n with
  | none => rfl
  | some k =>
    have hk := nonNegative_of_le field (hn k rfl)
    simp only [Option.mapM_some, hk]
    rfl

theorem perform_indexSymbols_of_refused {q : Request.IndexSymbols} {paths : List String}
    {e : WorkspaceError} (hq : q.paths = paths) (hne : paths ≠ [])
    (hroots : paths.mapM (s.sandbox.resolve w.tree) = .error e) :
    s.perform w (.indexSymbols q) = (.error e, w) := by
  have hblank : paths.isEmpty = false := by simpa using hne
  simp only [perform, indexSymbols, hq, hblank, Bool.false_eq_true, ↓reduceIte, hroots]
  rfl

/-- A request whose first refused path is one that leads out is refused for it, and changes
nothing. -/
theorem perform_of_escapes {before after : List String} (hq : q.paths = before ++ path :: after)
    (hpath : Path.Escapes s.sandbox.root path)
    (hbefore : ∀ p ∈ before, ∃ place, s.sandbox.resolve w.tree p = .ok place)
    (hq' : s.Admits q) : s.perform w q = (.error (.pathEscape path), w) := by
  have hresolve := Sandbox.resolve_of_escapes (t := w.tree) hpath
  -- a request that names one path names this one
  have hsingle {p : String} (h : [p] = before ++ path :: after) : p = path := by
    cases before with
    | nil => exact (List.cons.inj h).1
    | cons => simp at h
  cases q with
  | listDirectory q =>
    obtain rfl := hsingle hq
    simp only [perform, listDirectory, hresolve]
    rfl
  | readFile q =>
    obtain rfl := hsingle hq
    simp only [perform, readFile, hresolve]
    rfl
  | writeFile q =>
    obtain rfl := hsingle hq
    simp only [perform, writeFile, planWrite, ensureWritable_of_not_readOnly hq', hresolve]
    rfl
  | delete q =>
    obtain rfl := hsingle hq
    simp only [perform, delete, ensureWritable_of_not_readOnly hq',
      Sandbox.resolveEntry_of_escapes hpath]
    rfl
  | listFiles q =>
    obtain rfl := hsingle hq
    simp only [perform, listFiles, nonNegative_of_le _ hq', hresolve]
    rfl
  | readLines q =>
    obtain rfl := hsingle hq
    simp only [perform, readLines, mapM_nonNegative _ hq'.1, mapM_nonNegative _ hq'.2, hresolve]
    rfl
  | indexSymbols q =>
    have hroots := mapM_eq_error hbefore hresolve after
    exact perform_indexSymbols_of_refused hq (by simp) hroots
  | graphDependencies q =>
    obtain rfl := hsingle hq
    simp only [perform, graphDependencies, hresolve]
    rfl
  | search q | searchSymbols q => simp [Request.paths] at hq

/-- Of several paths one that leads out is enough for a refusal, whichever path is refused first. -/
theorem exists_perform_of_escapes {before after : List String}
    (hq : q.paths = before ++ path :: after) (hpath : Path.Escapes s.sandbox.root path)
    (hq' : s.Admits q) : ∃ e, s.perform w q = (.error e, w) := by
  by_cases hbefore : ∀ p ∈ before, ∃ place, s.sandbox.resolve w.tree p = .ok place
  · exact ⟨_, perform_of_escapes hq hpath hbefore hq'⟩
  · cases q with
    | indexSymbols q =>
      have hmem : path ∈ q.paths := by
        rw [show q.paths = before ++ path :: after from hq]
        simp
      cases hroots : q.paths.mapM (s.sandbox.resolve w.tree) with
      | error e =>
        have hne := List.ne_nil_of_mem hmem
        exact ⟨e, perform_indexSymbols_of_refused rfl hne hroots⟩
      | ok roots =>
        obtain ⟨p, hp⟩ := exists_of_mapM_eq_ok hroots hmem
        rw [Sandbox.resolve_of_escapes hpath] at hp
        simp at hp
    | search q | searchSymbols q => simp [Request.paths] at hq
    | _ =>
      -- a request that names one path names none before it
      cases before with
      | nil => simp at hbefore
      | cons => simp [Request.paths] at hq

/-- Only what a path is folded to counts: dots, blank segments, climbs and the root written out
change nothing of it, requests whose paths are folded to the same have the same effect and the same
answer up to the path that an error quotes, and what is folded to nothing at or below the root is
refused for it, whatever the tree holds, unless another path before it is refused first. -/
theorem spelling_irrelevant :
    (∀ (root : Location) (path path' : String), Path.Plainer root path path' →
      Path.locate root path = Path.locate root path') ∧
    (∀ (s : Service) (w : Workspace) (q q' : Request), q.Respelled s.sandbox.root q' →
      (s.perform w q').2 = (s.perform w q).2 ∧
        SameBut (q.paths.zip q'.paths) (s.perform w q).1 (s.perform w q').1) ∧
    ∀ (s : Service) (w : Workspace) (q : Request) (before after : List String) (path : String),
      q.paths = before ++ path :: after → Path.Escapes s.sandbox.root path → s.Admits q →
      (∃ e, s.perform w q = (.error e, w)) ∧
        ((∀ p ∈ before, ∃ place, s.sandbox.resolve w.tree p = .ok place) →
          s.perform w q = (.error (.pathEscape path), w)) := by
  refine ⟨fun _ _ _ h => h.locate_eq, fun s w _ _ h => perform_respelled s w h, ?_⟩
  intro s w q before after path hq hpath hq'
  refine ⟨exists_perform_of_escapes hq hpath hq', ?_⟩
  intro hbefore
  exact perform_of_escapes hq hpath hbefore hq'

/-- A link that leads out of the workspace, spelled in several ways, and what it leads to. -/
theorem spelling_irrelevant_outward :
    Path.Plainer ["ws"] "x/.././out" "x/../out" ∧
      Path.locate ["ws"] "x/.././out" = Path.locate ["ws"] "x/../out" ∧
      Path.locate ["ws"] "x/../out" = Path.locate ["ws"] "/ws//out/" ∧
      SameBut [("x/../out", "/ws//out/")]
        (outwardService.perform { tree := outward } (.readFile { path := "x/../out" })).1
        (outwardService.perform { tree := outward } (.readFile { path := "/ws//out/" })).1 ∧
      Path.Escapes ["ws"] "x/../../secret" ∧
      outwardService.perform { tree := outward } (.readFile { path := "x/../../secret" }) =
        (.error (.pathEscape "x/../../secret"), { tree := outward }) := by
  obtain ⟨hplainer, hrespelled, hescapes⟩ := spelling_irrelevant
  have hdot : Path.Plainer ["ws"] "x/.././out" "x/../out" := .dot "x/.." "out"
  have hsame : Path.locate ["ws"] "x/../out" = Path.locate ["ws"] "/ws//out/" := by decide
  have hout : Path.Escapes ["ws"] "x/../../secret" := by
    have hl : Path.locate ["ws"] "x/../../secret" = some ["secret"] := by decide
    intro l h
    obtain rfl : ["secret"] = l := Option.some.inj (hl.symm.trans h)
    decide
  refine ⟨hdot, hplainer _ _ _ hdot, hsame, ?_, hout, ?_⟩
  · have hread := hrespelled outwardService { tree := outward } _ _
      (.readFile { path := "x/../out" } hsame)
    exact hread.2
  · have hread := hescapes outwardService { tree := outward }
      (.readFile { path := "x/../../secret" }) [] [] _ rfl hout trivial
    exact hread.2 (by simp)

end Service

end Worksite
