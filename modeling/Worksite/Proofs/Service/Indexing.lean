import Worksite.Proofs.Index.Collection
import Worksite.Proofs.Service.Start
import Worksite.Proofs.Walk.FirstNames

/-!
What a request to index symbols processes: which files, by which names, and how often. A cap that
leaves room for all the files can still cut a walk, since each walk counts files again that are
there already; and of the names of a file only the first one is looked at, also where another one
is that of a language.
-/
namespace Worksite.Service

open FileTree Walk Index

variable {s : Service} {w : Workspace} {q : Request.IndexSymbols} {roots : List Place}
  {p r : Location} {text : String}

/-- The paths that a request covers. -/
def indexPaths (q : Request.IndexSymbols) : List String := if q.paths.isEmpty then [""] else q.paths

def indexLanguages (q : Request.IndexSymbols) : List Language := q.languages.map Language.ofTag

/-- The paths of a request lead to what is there, and its time never ends. -/
structure Unhurried (s : Service) (w : Workspace) (q : Request.IndexSymbols)
    (roots : List Place) : Prop where
  resolved : (indexPaths q).mapM (s.sandbox.resolve w.tree) = .ok roots
  there : ∀ root ∈ roots, ∃ e, w.tree.find true root.absolute = .ok e
  timely : s.limits.searchTimeBudgetMs ≠ 0

/-- What the walks of a request find if nothing ends them early. -/
def walks (s : Service) (w : Workspace) (roots : List Place) : List (List FoundFile) :=
  roots.map (found s.sandbox w.tree {})

/-- The cap of the settings cuts no walk of a request before a wanted file of a new name. -/
def Roomy (s : Service) (w : Workspace) (q : Request.IndexSymbols) (roots : List Place) : Prop :=
  Uncut (indexLanguages q) (some s.limits.maxIndexFiles.toNat) [] (s.walks w roots)

theorem Unhurried.searchDeadline (h : s.Unhurried w q roots) : s.searchDeadline = .unbounded := by
  have hbudget : s.limits.searchTimeBudgetMs.toNat ≠ 0 := by
    simpa [← UInt64.toNat_inj] using h.timely
  rw [Service.searchDeadline, Deadline.ofMilliseconds, if_neg hbudget]
  rfl

/-- What is published: the symbols of what the walks leave under the cap. -/
theorem Unhurried.indexSymbols_eq (h : s.Unhurried w q roots) :
    s.indexSymbols w q = .ok (w.index.publish (symbolsOf
      (load s.sandbox w.tree s.limits.maxFileBytes.toNat .unbounded
        ((s.walks w roots).foldl
          (keep (indexLanguages q) (some s.limits.maxIndexFiles.toNat)) [])))) := by
  obtain ⟨filter, hf⟩ : ∃ f, FileFilter.ofTexts [] [] = .ok f :=
    FileFilter.exists_ofTexts (by simp)
  have hscan : scan s.sandbox w.tree (s.scope roots [] [] (indexLanguages q)) .unbounded =
      .ok _ := scan_of_time hf h.there
  simp only [indexSymbols, ← indexPaths.eq_def, h.resolved, ok_bind, IndexSnapshot.rebuildSymbols,
    h.searchDeadline]
  rw [← indexLanguages, hscan]
  rfl

/-- A path of a request, where it leads, and what a walk from there finds. -/
structure Lead where
  path : String
  root : Place
  files : List FoundFile

structure Lead.Holds (s : Service) (t : FileTree) (x : Lead) : Prop where
  resolved : s.sandbox.resolve t x.path = .ok x.root
  there : ∃ e, t.find true x.root.absolute = .ok e
  found : found s.sandbox t {} x.root = x.files

theorem unhurried_of_leads {t : FileTree} {i : IndexSnapshot} {leads : List Lead}
    (h : ∀ x ∈ leads, x.Holds s t) (hpaths : indexPaths q = leads.map Lead.path)
    (htime : s.limits.searchTimeBudgetMs ≠ 0) :
    s.Unhurried { tree := t, index := i } q (leads.map Lead.root) where
  resolved := by
    rw [hpaths, mapM_eq_ok, List.forall₂_map_left_iff, List.forall₂_map_right_iff,
      List.forall₂_same]
    exact fun x hx => (h x hx).resolved
  there root hroot := by
    obtain ⟨x, hx, rfl⟩ := List.mem_map.mp hroot
    exact (h x hx).there
  timely := htime

theorem walks_of_leads {t : FileTree} {i : IndexSnapshot} {leads : List Lead}
    (h : ∀ x ∈ leads, x.Holds s t) :
    s.walks { tree := t, index := i } (leads.map Lead.root) = leads.map Lead.files := by
  rw [walks, List.map_map]
  exact List.map_congr_left fun x hx => (h x hx).found

/-! ## Each wanted file once -/

/-- Two files, and a service that indexes two at most. -/
def pair : FileTree where
  entries := [(["ws"], .directory), (["ws", "a.py"], .file "x".toUTF8 0o644),
    (["ws", "b.py"], .file "y".toUTF8 0o644)]
  distinct := by decide

def pairService : Service where
  settings := { workspace := { root := "/ws" }, limits := { maxIndexFiles := 2 } }
  sandbox := { root := ["ws"] }
  policy := {}
  pool := { size := 4 }

/-- The files as they are found. -/
def foundA : FoundFile := { relative := ["a.py"], size := 1 }

def foundB : FoundFile := { relative := ["b.py"], size := 1 }

def pairTop : Lead where
  path := "."
  root := { absolute := ["ws"], relative := [] }
  files := [foundA, foundB]

def pairFile : Lead where
  path := "a.py"
  root := { absolute := ["ws", "a.py"], relative := ["a.py"] }
  files := [foundA]

theorem holds_pair : pairTop.Holds pairService pair ∧ pairFile.Holds pairService pair := by
  have htop : pair.find true pairTop.root.absolute = .ok .directory := by cbv
  have hfound : found pairService.sandbox pair {} pairTop.root = pairTop.files := by
    rw [found_of_directory htop]
    cbv
  exact ⟨⟨by cbv, ⟨_, htop⟩, hfound⟩, by cbv, ⟨.file "x".toUTF8 0o644, by cbv⟩, by cbv⟩

theorem loadText_pair :
    pair.loadText ["ws", "a.py"] pairService.limits.maxFileBytes.toNat = some "x" ∧
      pair.loadText ["ws", "b.py"] pairService.limits.maxFileBytes.toNat = some "y" :=
  ⟨by cbv, by cbv⟩

/-- The condition is exact: after each root all the wanted files of its walk are there. -/
theorem roomy_iff (h : s.Unhurried w q roots) : s.Roomy w q roots ↔
      ∀ before root, before ++ [root] <+: roots → ∃ files,
        collect s.sandbox w.tree (s.scope roots [] [] (indexLanguages q)) [] .unbounded
          (before ++ [root]) = .ok (files, .unbounded) ∧
        ∀ r ∈ namesOf (found s.sandbox w.tree {} root), WantedName (indexLanguages q) r →
          r ∈ namesOf files := by
  obtain ⟨filter, hf⟩ : ∃ f, FileFilter.ofTexts [] [] = .ok f :=
    FileFilter.exists_ofTexts (by simp)
  have hcollect {before : List Place} (hpre : before <+: roots) :
      collect s.sandbox w.tree (s.scope roots [] [] (indexLanguages q)) [] .unbounded before =
        .ok ((s.walks w before).foldl
          (keep (indexLanguages q) (some s.limits.maxIndexFiles.toNat)) [], .unbounded) :=
    collect_of_time hf fun root hroot => h.there root (hpre.subset hroot)
  rw [Roomy, uncut_iff]
  · constructor
    · intro hall before root hpre
      refine ⟨_, hcollect hpre, ?_⟩
      have hwalks := hpre.map (found s.sandbox w.tree {})
      rw [List.map_append, List.map_singleton] at hwalks
      rw [walks, List.map_append, List.map_singleton]
      exact hall _ _ hwalks
    · intro hall before walk hpre
      obtain ⟨roots', hroots', heq⟩ := List.prefix_map_iff.mp hpre
      obtain ⟨before, last, rfl, rfl, hlast⟩ := List.map_eq_append_iff.mp heq.symm
      obtain ⟨root, rfl, rfl⟩ := List.map_eq_singleton_iff.mp hlast
      obtain ⟨files, hfiles, hthere⟩ := hall before root hroots'
      rw [hcollect hroots', Except.ok.injEq, Prod.mk.injEq] at hfiles
      obtain ⟨rfl, -⟩ := hfiles
      rwa [walks, List.map_append, List.map_singleton] at hthere
  · intro walk hwalk
    obtain ⟨root, -, rfl⟩ := List.mem_map.mp hwalk
    exact nodup_namesOf_found _ _ _ _

/-! ## Each file by its first name -/

/-- A file, and a link to it with a name that comes first and is that of no language. -/
def aliased : FileTree where
  entries := [(["ws"], .directory), (["ws", "b.py"], .file "y".toUTF8 0o644),
    (["ws", "a.md"], .link "b.py")]
  distinct := by decide

end Worksite.Service
