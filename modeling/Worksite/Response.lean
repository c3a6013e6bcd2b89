import Worksite.Request
import Worksite.Symbol
import Worksite.Dependency
import Worksite.Content
import Worksite.Error

/-!
Responses: what a workspace answers, and how it is written to JSON and read back.
-/
namespace Worksite

/-! What answers are made of. -/

inductive EntryKind where
  | file
  | directory
  | symlink
  | other
  deriving DecidableEq, Repr

def EntryKind.tag : EntryKind → String
  | .file => "file"
  | .directory => "directory"
  | .symlink => "symlink"
  | .other => "other"

def EntryKind.ofTag? : String → Option EntryKind
  | "file" => some .file
  | "directory" => some .directory
  | "symlink" => some .symlink
  | "other" => some .other
  | _ => none

/-- An entry of a directory. -/
structure DirectoryEntry where
  name : String
  path : String
  kind : EntryKind
  size : Nat
  deriving DecidableEq, Repr

/-- A file that a walk found. -/
structure FileEntry where
  path : String
  size : Nat
  language : Language
  deriving DecidableEq, Repr

/-- A place where a query was found. Lines and columns count from one; the end is past the last
character. -/
structure SearchMatch where
  path : String
  line : UInt32
  columnStart : UInt32
  columnEnd : UInt32
  snippet : String
  deriving DecidableEq, Repr

structure BuildInfo where
  version : String
  revision : String
  profile : String
  builtAt : Nat
  grammarVersion : Nat
  deriving DecidableEq, Repr

def BuildInfo.display (b : BuildInfo) : String :=
  b.version ++ " (" ++ b.revision ++ ", " ++ b.profile ++ ")"

namespace Response

structure Listing where
  path : String
  entries : List DirectoryEntry
  deriving DecidableEq, Repr

structure ReadFile where
  path : String
  content : FileContent
  deriving DecidableEq, Repr

structure WriteOutcome where
  ok : Bool
  path : String
  bytesWritten : Nat
  backup : Option String
  deriving DecidableEq, Repr

structure Deleted where
  ok : Bool
  path : String
  deriving DecidableEq, Repr

structure Files where
  files : List FileEntry
  deriving DecidableEq, Repr

/-- Lines of a file, with the digest and the number of lines of the whole. -/
structure ReadLines where
  path : String
  content : FileContent
  contentHash : String
  totalLines : Nat
  deriving DecidableEq, Repr

structure Matches where
  found : List SearchMatch
  deriving DecidableEq, Repr

structure Indexed where
  fileCount : Nat
  symbols : List Symbol
  generation : Nat
  deriving DecidableEq, Repr

structure Symbols where
  symbols : List Symbol
  deriving DecidableEq, Repr

structure Health where
  status : String
  workspace : String
  readOnly : Bool
  capabilities : List String
  version : String
  build : BuildInfo
  indexGeneration : Nat
  maxRequestsPerMinute : UInt32
  deriving DecidableEq, Repr

structure Stopping where
  acknowledged : Bool
  message : String
  deriving DecidableEq, Repr

structure Failure where
  kind : ErrorKind
  operation : String
  message : String
  deriving DecidableEq, Repr

end Response

def ServiceError.failure (e : ServiceError) : Response.Failure where
  kind := e.error.kind
  operation := e.operation
  message := e.error.message

/-! Writing. -/

def DirectoryEntry.json (e : DirectoryEntry) : Json :=
  .object [("name", .text e.name), ("path", .text e.path), ("type", .text e.kind.tag),
    ("size", .nat e.size)]

def FileEntry.json (e : FileEntry) : Json :=
  .object [("path", .text e.path), ("size", .nat e.size), ("language", .text e.language.tag)]

def SearchMatch.json (m : SearchMatch) : Json :=
  .object [("path", .text m.path), ("line", .nat m.line.toNat),
    ("column_start", .nat m.columnStart.toNat), ("column_end", .nat m.columnEnd.toNat),
    ("snippet", .text m.snippet)]

def Symbol.json (s : Symbol) : Json :=
  .object [("name", .text s.name), ("kind", .text s.kind.tag), ("language", .text s.language.tag),
    ("file", .text s.file), ("line", .nat s.line.toNat)]

def BuildInfo.json (b : BuildInfo) : Json :=
  .object [("version", .text b.version), ("git_revision", .text b.revision),
    ("profile", .text b.profile), ("built_at", .nat b.builtAt),
    ("grammar_abi", .nat b.grammarVersion)]

def FileContent.members : FileContent → List (String × Json)
  | .text s => [("content", .text s)]
  | .binary s => [("content_base64", .text s)]

def FileContent.json (c : FileContent) : Json := .object c.members

def DependencyEdge.json (e : DependencyEdge) : Json :=
  .object [("from", .text e.source), ("to", .text e.target)]

def DependencyGraph.json (g : DependencyGraph) : Json :=
  .object [("nodes", .texts g.nodes), ("edges", .array (g.edges.map DependencyEdge.json))]

namespace Response

def Listing.json (a : Listing) : Json :=
  .object [("path", .text a.path), ("entries", .array (a.entries.map DirectoryEntry.json))]

def ReadFile.json (a : ReadFile) : Json := .object (("path", .text a.path) :: a.content.members)

def WriteOutcome.json (a : WriteOutcome) : Json :=
  .object ([("ok", .bool a.ok), ("path", .text a.path), ("bytes_written", .nat a.bytesWritten)] ++
    a.backup.toList.map fun b => ("backup", .text b))

def Deleted.json (a : Deleted) : Json := .object [("ok", .bool a.ok), ("path", .text a.path)]

def Files.json (a : Files) : Json := .object [("files", .array (a.files.map FileEntry.json))]

def ReadLines.json (a : ReadLines) : Json :=
  .object (("path", .text a.path) :: a.content.members ++
    [("content_hash", .text a.contentHash), ("total_lines", .nat a.totalLines)])

def Matches.json (a : Matches) : Json := .object [("matches", .array (a.found.map SearchMatch.json))]

def Indexed.json (a : Indexed) : Json :=
  .object [("indexed_file_count", .nat a.fileCount), ("symbols", .array (a.symbols.map Symbol.json)),
    ("generation", .nat a.generation)]

def Symbols.json (a : Symbols) : Json := .object [("symbols", .array (a.symbols.map Symbol.json))]

def Health.json (a : Health) : Json :=
  .object [("status", .text a.status), ("workspace", .text a.workspace),
    ("read_only", .bool a.readOnly), ("capabilities", .texts a.capabilities),
    ("version", .text a.version), ("build", a.build.json),
    ("index_generation", .nat a.indexGeneration),
    ("max_requests_per_minute", .nat a.maxRequestsPerMinute.toNat)]

def Stopping.json (a : Stopping) : Json :=
  .object [("acknowledged", .bool a.acknowledged), ("message", .text a.message)]

def Failure.body (a : Failure) : Json :=
  .object [("kind", .text a.kind.tag), ("operation", .text a.operation),
    ("message", .text a.message)]

def Failure.json (a : Failure) : Json := .object [("error", a.body)]

end Response

/-! Reading. -/

open Reading

def Language.read : Reading Language := fun r => (Reading.text r).map Language.ofTag

def DirectoryEntry.read : Reading DirectoryEntry := fun r => do
  let m ← fieldsOf [.required "name" text, .required "path" text,
    .required "type" (tag EntryKind.ofTag?), .required "size" nat64] r
  return {
    name := ← required m "name" text
    path := ← required m "path" text
    kind := ← required m "type" (tag EntryKind.ofTag?)
    size := ← required m "size" nat64 }

def FileEntry.read : Reading FileEntry := fun r => do
  let m ← fieldsOf [.required "path" text, .required "size" nat64,
    .required "language" Language.read] r
  return {
    path := ← required m "path" text
    size := ← required m "size" nat64
    language := ← required m "language" Language.read }

def SearchMatch.read : Reading SearchMatch := fun r => do
  let m ← fieldsOf [.required "path" text, .required "line" nat32,
    .required "column_start" nat32, .required "column_end" nat32, .required "snippet" text] r
  return {
    path := ← required m "path" text
    line := ← required m "line" nat32
    columnStart := ← required m "column_start" nat32
    columnEnd := ← required m "column_end" nat32
    snippet := ← required m "snippet" text }

def Symbol.read : Reading Symbol := fun r => do
  let m ← fieldsOf [.required "name" text, .required "kind" (tag SymbolKind.ofTag?),
    .required "language" Language.read, .required "file" text, .required "line" nat32] r
  return {
    name := ← required m "name" text
    kind := ← required m "kind" (tag SymbolKind.ofTag?)
    language := ← required m "language" Language.read
    file := ← required m "file" text
    line := ← required m "line" nat32 }

def BuildInfo.read : Reading BuildInfo := fun r => do
  let m ← fieldsOf [.required "version" text, .required "git_revision" text,
    .required "profile" text, .required "built_at" nat64, .required "grammar_abi" nat64] r
  return {
    version := ← required m "version" text
    revision := ← required m "git_revision" text
    profile := ← required m "profile" text
    builtAt := ← required m "built_at" nat64
    grammarVersion := ← required m "grammar_abi" nat64 }

namespace FileContent

/-- The only text among the members of a name. -/
def soleText? (met : Members) (name : String) : Option String :=
  match met.filter (·.1 = name) with
  | [(_, .text s)] => some s
  | _ => none

/-- Text if there is one, otherwise base 64. -/
def ofMembers (met : Members) : Except ReadError FileContent :=
  match soleText? met "content", soleText? met "content_base64" with
  | some s, _ => .ok (text s)
  | none, some s => .ok (binary s)
  | none, none => .error .wrongType

def read : Reading FileContent := fun r =>
  if !Raw.isKept 127 r then .error .notJson
  else
    match r with
    | .object ms _ => ofMembers (besides [] ms)
    | _ => .error .wrongType

end FileContent

def DependencyEdge.read : Reading DependencyEdge := fun r => do
  let m ← fieldsOf [.required "from" text, .required "to" text] r
  return { source := ← required m "from" text, target := ← required m "to" text }

def DependencyGraph.read : Reading DependencyGraph := fun r => do
  let m ← fieldsOf [.required "nodes" (list text), .required "edges" (list DependencyEdge.read)] r
  return {
    nodes := ← required m "nodes" (list text)
    edges := ← required m "edges" (list DependencyEdge.read) }

namespace Response

def Listing.read : Reading Listing := fun r => do
  let m ← fieldsOf [.required "path" text, .required "entries" (list DirectoryEntry.read)] r
  return {
    path := ← required m "path" text
    entries := ← required m "entries" (list DirectoryEntry.read) }

def ReadFile.read : Reading ReadFile := fun r => do
  let (m, others) ← spreadFieldsOf [.required "path" text] r
  return { path := ← required m "path" text, content := ← FileContent.ofMembers others }

def WriteOutcome.read : Reading WriteOutcome := fun r => do
  let m ← fieldsOf [.required "ok" bool, .required "path" text, .required "bytes_written" nat64,
    .optional "backup" text] r
  return {
    ok := ← required m "ok" bool
    path := ← required m "path" text
    bytesWritten := ← required m "bytes_written" nat64
    backup := ← optional m "backup" text }

def Deleted.read : Reading Deleted := fun r => do
  let m ← fieldsOf [.required "ok" bool, .required "path" text] r
  return { ok := ← required m "ok" bool, path := ← required m "path" text }

def Files.read : Reading Files := fun r => do
  let m ← fieldsOf [.required "files" (list FileEntry.read)] r
  return { files := ← required m "files" (list FileEntry.read) }

def ReadLines.read : Reading ReadLines := fun r => do
  let (m, others) ← spreadFieldsOf [.required "path" text, .required "content_hash" text,
    .required "total_lines" nat64] r
  return {
    path := ← required m "path" text
    content := ← FileContent.ofMembers others
    contentHash := ← required m "content_hash" text
    totalLines := ← required m "total_lines" nat64 }

def Matches.read : Reading Matches := fun r => do
  let m ← fieldsOf [.required "matches" (list SearchMatch.read)] r
  return { found := ← required m "matches" (list SearchMatch.read) }

def Indexed.read : Reading Indexed := fun r => do
  let m ← fieldsOf [.required "indexed_file_count" nat64, .required "symbols" (list Symbol.read),
    .required "generation" nat64] r
  return {
    fileCount := ← required m "indexed_file_count" nat64
    symbols := ← required m "symbols" (list Symbol.read)
    generation := ← required m "generation" nat64 }

def Symbols.read : Reading Symbols := fun r => do
  let m ← fieldsOf [.required "symbols" (list Symbol.read)] r
  return { symbols := ← required m "symbols" (list Symbol.read) }

def Health.read : Reading Health := fun r => do
  let m ← fieldsOf [.required "status" text, .required "workspace" text,
    .required "read_only" bool, .required "capabilities" (list text), .required "version" text,
    .required "build" BuildInfo.read, .required "index_generation" nat64,
    .required "max_requests_per_minute" nat32] r
  return {
    status := ← required m "status" text
    workspace := ← required m "workspace" text
    readOnly := ← required m "read_only" bool
    capabilities := ← required m "capabilities" (list text)
    version := ← required m "version" text
    build := ← required m "build" BuildInfo.read
    indexGeneration := ← required m "index_generation" nat64
    maxRequestsPerMinute := ← required m "max_requests_per_minute" nat32 }

def Stopping.read : Reading Stopping := fun r => do
  let m ← fieldsOf [.required "acknowledged" bool, .required "message" text] r
  return {
    acknowledged := ← required m "acknowledged" bool
    message := ← required m "message" text }

def Failure.readBody : Reading Failure := fun r => do
  let m ← fieldsOf [.required "kind" (tag ErrorKind.ofTag?), .required "operation" text,
    .required "message" text] r
  return {
    kind := ← required m "kind" (tag ErrorKind.ofTag?)
    operation := ← required m "operation" text
    message := ← required m "message" text }

def Failure.read : Reading Failure := fun r => do
  let m ← fieldsOf [.required "error" Failure.readBody] r
  required m "error" Failure.readBody

end Response

/-- What one of the operations answers. -/
inductive Response where
  | listing (a : Response.Listing)
  | readFile (a : Response.ReadFile)
  | written (a : Response.WriteOutcome)
  | deleted (a : Response.Deleted)
  | files (a : Response.Files)
  | readLines (a : Response.ReadLines)
  | found (a : Response.Matches)
  | indexed (a : Response.Indexed)
  | symbols (a : Response.Symbols)
  | graph (a : DependencyGraph)
  deriving DecidableEq, Repr

namespace Response

def json : Response → Json
  | listing a => a.json
  | readFile a => a.json
  | written a => a.json
  | deleted a => a.json
  | files a => a.json
  | readLines a => a.json
  | found a => a.json
  | indexed a => a.json
  | symbols a => a.json
  | graph a => a.json

/-- How the answer to a request is read. -/
def readerFor : Request → Reading Response
  | .listDirectory _ => fun r => (Listing.read r).map listing
  | .readFile _ => fun r => (ReadFile.read r).map readFile
  | .writeFile _ => fun r => (WriteOutcome.read r).map written
  | .delete _ => fun r => (Deleted.read r).map deleted
  | .listFiles _ => fun r => (Files.read r).map files
  | .readLines _ => fun r => (ReadLines.read r).map readLines
  | .search _ => fun r => (Matches.read r).map found
  | .indexSymbols _ => fun r => (Indexed.read r).map indexed
  | .searchSymbols _ => fun r => (Symbols.read r).map symbols
  | .graphDependencies _ => fun r => (DependencyGraph.read r).map graph

end Response

end Worksite
