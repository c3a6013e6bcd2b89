import Worksite.Walk
import Worksite.Place.Read
import Worksite.Symbol.Extract

/-!
The index of a workspace: the symbols and the dependency graph of the last scans. A rebuild scans
first and publishes at the end; each publication replaces one half, carries the other one on, and
has the next generation.
-/
namespace Worksite

structure IndexSnapshot where
  /-- How often something was published. -/
  generation : Nat := 0
  symbols : SymbolTable := {}
  /-- The files of the last symbol scan. -/
  indexedFiles : Nat := 0
  graph : DependencyGraph := {}
  deriving DecidableEq, Repr

/-- What a rebuild covers. -/
structure IndexScope where
  roots : List Place
  walk : WalkOptions := {}
  /-- Without any, all languages count. -/
  languages : List Language := []
  maxFileBytes : Nat
  deriving DecidableEq, Repr

namespace Index

/-- Whether files of a language are scanned. -/
def isWanted (languages : List Language) (l : Language) : Bool :=
  l.extraction != .unsupported && (languages.isEmpty || languages.contains l)

/-- Adds the wanted files that are not there yet. -/
def addFiles (languages : List Language) (files found : List FoundFile) : List FoundFile :=
  found.foldl (fun files f =>
    if isWanted languages f.language && !files.any (·.relative = f.relative) then files ++ [f]
    else files) files

/-- The files of a scope, root after root, each once. A later root may add as many files as are
left of the cap. -/
def collect (s : Sandbox) (t : FileTree) (scope : IndexScope) (files : List FoundFile)
    (d : Deadline) : List Place → Except WorkspaceError (List FoundFile × Deadline)
  | [] => .ok (files, d)
  | root :: rest =>
    let left := scope.walk.maxCount.map (· - files.length)
    if left = some 0 then .ok (files, d)
    else if d.expired then .ok (files, d)
    else do
      let (e, d) ← enumerate s t root { scope.walk with maxCount := left } d.next
      let files := addFiles scope.languages files e.files
      if e.truncated = some .timeBudget then return (files, d)
      else collect s t scope files d rest

/-- The texts of files, each with its file, as far as the time goes. -/
def load (s : Sandbox) (t : FileTree) (maxBytes : Nat) :
    Deadline → List FoundFile → List (FoundFile × String)
  | _, [] => []
  | d, f :: rest =>
    if d.expired then []
    else
      (t.loadText (s.root ++ f.relative) maxBytes).toList.map (f, ·) ++ load s t maxBytes d.next rest

/-- What a rebuild scans. -/
def scan (s : Sandbox) (t : FileTree) (scope : IndexScope) (d : Deadline) :
    Except WorkspaceError (List (FoundFile × String)) := do
  let (files, d) ← collect s t scope [] d scope.roots
  return load s t scope.maxFileBytes d files

/-- One half of the index, ready to be published. -/
inductive Half where
  | symbols (table : SymbolTable) (files : Nat)
  | graph (graph : DependencyGraph)
  deriving DecidableEq, Repr

def symbolsOf (scanned : List (FoundFile × String)) : Half :=
  .symbols (scanned.foldl (fun t (f, text) => t.insert (extractSymbols f.path text f.language)) {})
    scanned.length

def graphOf (scanned : List (FoundFile × String)) : Half :=
  .graph (scanned.foldl (fun g (f, text) => g.add f.path (extractDependencies text f.language)) {})

end Index

namespace IndexSnapshot

/-- Replaces one half. -/
def publish (i : IndexSnapshot) : Index.Half → IndexSnapshot
  | .symbols table files =>
    { i with generation := i.generation + 1, symbols := table, indexedFiles := files }
  | .graph graph => { i with generation := i.generation + 1, graph }

def rebuildSymbols (i : IndexSnapshot) (s : Sandbox) (t : FileTree) (scope : IndexScope)
    (d : Deadline) : Except WorkspaceError IndexSnapshot :=
  (Index.scan s t scope d).map fun scanned => i.publish (Index.symbolsOf scanned)

def rebuildGraph (i : IndexSnapshot) (s : Sandbox) (t : FileTree) (scope : IndexScope)
    (d : Deadline) : Except WorkspaceError IndexSnapshot :=
  (Index.scan s t scope d).map fun scanned => i.publish (Index.graphOf scanned)

end IndexSnapshot

end Worksite
