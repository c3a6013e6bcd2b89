import Worksite.Settings
import Worksite.Request
import Worksite.Search
import Worksite.Index
import Worksite.Place.Write
import Worksite.Place.Delete
import Worksite.WorkerPool

/-!
The service: the operations on a workspace. Each checks its arguments, resolves its paths, asks the
policy before it changes anything, and then does its work. Only writes and deletes change files,
and only rebuilds change the index.
-/
namespace Worksite

/-- What is fixed from the start of a service. -/
structure Service where
  settings : Settings
  sandbox : Sandbox
  policy : WritePolicy
  pool : WorkerPool
  deriving DecidableEq, Repr

/-- What requests may change. -/
structure Workspace where
  tree : FileTree
  index : IndexSnapshot := {}

/-- Why a service does not start. -/
inductive StartError where
  | settings (e : SettingsError)
  | workspace (e : WorkspaceError)
  | tooManyWorkers
  deriving DecidableEq, Repr

namespace Service

/-! Start. -/

/-- The path of the policy file below the root, as it is shown, if it is there. -/
def policyFile? (s : Sandbox) (t : FileTree) (path : String) : Option String :=
  if Path.isAbsolute path then
    match t.canonicalText [] path with
    | .ok l => (l.relativeTo? s.root).map Location.display
    | .error _ => (s.relativize? path).map Path.slashed
  else
    match s.resolve t path with
    | .ok p => some p.relative.display
    | .error _ => none

/-- A service with a policy, to which the policy file is added as denied. `here` is where a
relative root starts. -/
def ofPolicy (settings : Settings) (policy : WritePolicy) (t : FileTree) (here : Location) :
    Except StartError Service := do
  let sandbox ← (Sandbox.ofRoot t here settings.workspace.root).mapError .workspace
  let policy :=
    match policyFile? sandbox t settings.workspace.policyFile with
    | some path => policy.deny (WritePolicy.prefixOf path)
    | none => policy
  match WorkerPool.ofSize? settings.limits.workerThreads.toNat with
  | some pool => return { settings, sandbox, policy, pool }
  | none => .error .tooManyWorkers

/-- The policy of a policy file; one that is missing allows everything. -/
def loadPolicy (t : FileTree) (here : Location) (path : String) :
    Except SettingsError WritePolicy :=
  match t.readText here path with
  | .ok text => (PolicySettings.parse text).map PolicySettings.policy
  | .error .noEntry => .ok {}
  | .error e => .error (.unreadable e)

/-- A service with the policy of the workspace. -/
def ofSettings (settings : Settings) (t : FileTree) (here : Location) :
    Except StartError Service := do
  let policy ← (loadPolicy t here settings.workspace.policyPath).mapError .settings
  ofPolicy settings policy t here

/-! Operations. -/

/-- A number that a caller may not make negative. -/
def nonNegative (field : String) (n : Int) : Except WorkspaceError Nat :=
  if 0 ≤ n then .ok n.toNat
  else .error (.invalidArgument (field ++ " must not be negative, got " ++ toString n))

def limits (s : Service) : Settings.Limits := s.settings.limits

def listDirectory (s : Service) (t : FileTree) (q : Request.ListDirectory) :
    Except WorkspaceError Response.Listing := do
  let p ← s.sandbox.resolve t q.path
  return { path := p.relative.display, entries := ← p.list t }

def readFile (s : Service) (t : FileTree) (q : Request.ReadFile) :
    Except WorkspaceError Response.ReadFile := do
  let p ← s.sandbox.resolve t q.path
  return { path := p.relative.display, content := ← p.read t q.asBinary }

def readLines (s : Service) (t : FileTree) (q : Request.ReadLines) :
    Except WorkspaceError Response.ReadLines := do
  let first ← q.first.mapM (nonNegative "start_line")
  let last ← q.last.mapM (nonNegative "end_line")
  let p ← s.sandbox.resolve t q.path
  p.readLines t first last

def listFiles (s : Service) (t : FileTree) (q : Request.ListFiles) :
    Except WorkspaceError Response.Files := do
  let limit := min (← nonNegative "limit" q.limit) s.limits.maxListResults.toNat
  let root ← s.sandbox.resolve t (q.root.getD "")
  let walk : WalkOptions :=
    { including := q.including, excluding := q.excluding, maxCount := some limit }
  let (e, _) ← enumerate s.sandbox t root walk
    (.ofMilliseconds s.limits.listTimeBudgetMs.toNat)
  return { files := e.files.map FoundFile.entry }

/-- The time that a search or a rebuild may take. -/
def searchDeadline (s : Service) : Deadline :=
  .ofMilliseconds s.limits.searchTimeBudgetMs.toNat

def searchFiles (s : Service) (t : FileTree) (q : Request.Search) :
    Except WorkspaceError Response.Matches := do
  let limit := min (← nonNegative "limit" q.limit) s.limits.maxSearchResults.toNat
  if q.query = "" then .error (.invalidArgument "search query must not be empty")
  else
    let root ← s.sandbox.resolve t ""
    let walk : WalkOptions :=
      { including := q.including, excluding := q.excluding,
        maxCount := some s.limits.maxIndexFiles.toNat }
    let outcome ← search s.sandbox t root walk
      { query := { text := q.query, regex := q.regex, caseSensitive := q.caseSensitive }
        limit := some limit
        maxFileBytes := s.limits.maxFileBytes.toNat }
      s.searchDeadline
    return { found := outcome.found }

/-- The scope of a rebuild, with the limits of the settings. -/
def scope (s : Service) (roots : List Place) (including excluding : List String)
    (languages : List Language) : IndexScope where
  roots := roots
  walk := { including, excluding, maxCount := some s.limits.maxIndexFiles.toNat }
  languages := languages
  maxFileBytes := s.limits.maxFileBytes.toNat

def indexSymbols (s : Service) (w : Workspace) (q : Request.IndexSymbols) :
    Except WorkspaceError IndexSnapshot := do
  let paths := if q.paths.isEmpty then [""] else q.paths
  let roots ← paths.mapM (s.sandbox.resolve w.tree)
  w.index.rebuildSymbols s.sandbox w.tree (s.scope roots [] [] (q.languages.map Language.ofTag))
    s.searchDeadline

def graphDependencies (s : Service) (w : Workspace) (q : Request.GraphDependencies) :
    Except WorkspaceError IndexSnapshot := do
  let root ← s.sandbox.resolve w.tree (q.root.getD "")
  w.index.rebuildGraph s.sandbox w.tree (s.scope [root] q.including q.excluding [])
    s.searchDeadline

def searchSymbols (i : IndexSnapshot) (q : Request.SearchSymbols) :
    Except WorkspaceError Response.Symbols := do
  let kind ← q.kind.mapM fun tag =>
    match SymbolKind.ofTag? tag with
    | some k => .ok k
    | none => .error (.invalidArgument (SymbolKind.unknown tag))
  return { symbols := i.symbols.search {
    kind
    name := q.name.filter (· ≠ "")
    language := q.language.map Language.ofTag } }

def ensureWritable (s : Service) : Except WorkspaceError Unit :=
  if s.settings.workspace.readOnly then .error .readOnly else .ok ()

/-- Whether the policy allows a change at a place. The root is never deleted. -/
def authorize (s : Service) (p : Place) (operation : WriteOperation) :
    Except WorkspaceError Unit :=
  let denied (reason : String) := .policyDenied p.relative.relativeText reason
  if p.isRoot && operation = .delete then
    .error (denied "the workspace root cannot be deleted")
  else (s.policy.authorize p.relative operation).mapError fun d => denied d.message

/-- The bytes that a content stands for. -/
def decodeContent : Request.Encoding → String → Except WorkspaceError ByteArray
  | .utf8, content => .ok content.toUTF8
  | .base64, content =>
    match Base64.decodeText content with
    | .ok bytes => .ok ⟨bytes.toArray⟩
    | .error e => .error (.invalidArgument ("content is not valid base64: " ++ e.message))

/-- What is written where, once everything is checked. -/
def planWrite (s : Service) (t : FileTree) (q : Request.WriteFile) :
    Except WorkspaceError (Place × ByteArray) := do
  s.ensureWritable
  let p ← s.sandbox.resolve t q.path
  s.authorize p .write
  return (p, ← decodeContent q.encoding q.content)

def writeFile (s : Service) (t : FileTree) (q : Request.WriteFile) :
    Except WorkspaceError Response.WriteOutcome × FileTree :=
  match s.planWrite t q with
  | .error e => (.error e, t)
  | .ok (p, bytes) => p.write t bytes q.createParents s.policy.backupOnWrite

def delete (s : Service) (t : FileTree) (q : Request.Delete) :
    Except WorkspaceError (Response.Deleted × FileTree) := do
  s.ensureWritable
  let p ← s.sandbox.resolveEntry t q.path
  s.authorize p .delete
  let t ← p.delete t q.recursive
  return ({ ok := true, path := p.relative.display }, t)

/-- Does what is asked. -/
def perform (s : Service) (w : Workspace) :
    Request → Except WorkspaceError Response × Workspace
  | .listDirectory q => ((s.listDirectory w.tree q).map .listing, w)
  | .readFile q => ((s.readFile w.tree q).map .readFile, w)
  | .writeFile q =>
    let (answer, t) := s.writeFile w.tree q
    (answer.map .written, { w with tree := t })
  | .delete q =>
    match s.delete w.tree q with
    | .ok (a, t) => (.ok (.deleted a), { w with tree := t })
    | .error e => (.error e, w)
  | .listFiles q => ((s.listFiles w.tree q).map .files, w)
  | .readLines q => ((s.readLines w.tree q).map .readLines, w)
  | .search q => ((s.searchFiles w.tree q).map .found, w)
  | .indexSymbols q =>
    match s.indexSymbols w q with
    | .ok i =>
      (.ok (.indexed {
        fileCount := i.indexedFiles, symbols := i.symbols.symbols, generation := i.generation }),
        { w with index := i })
    | .error e => (.error e, w)
  | .searchSymbols q => ((searchSymbols w.index q).map .symbols, w)
  | .graphDependencies q =>
    match s.graphDependencies w q with
    | .ok i => (.ok (.graph i.graph), { w with index := i })
    | .error e => (.error e, w)

/-- Does what is asked; an error names the operation. -/
def answer (s : Service) (w : Workspace) (q : Request) :
    Except ServiceError Response × Workspace :=
  let (a, w) := s.perform w q
  (a.mapError fun error => { operation := q.operation, error }, w)

/-- The names of what a service can do. -/
def capabilities : List String := Request.readers.map Prod.fst ++ ["health"]

def health (s : Service) (build : BuildInfo) (i : IndexSnapshot) : Response.Health where
  status := "ok"
  workspace := s.settings.workspace.name
  readOnly := s.settings.workspace.readOnly
  capabilities := capabilities
  version := build.display
  build := build
  indexGeneration := i.generation
  maxRequestsPerMinute := s.limits.maxRequestsPerMinute

end Service

end Worksite
