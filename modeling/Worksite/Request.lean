import Worksite.Json.Reading

/-!
Requests: what is asked of a workspace, and how it is read from JSON. Limits and line numbers may
be negative here, so that they can be refused with a reason.
-/
namespace Worksite.Request

structure ListDirectory where
  path : String := ""
  deriving DecidableEq, Repr

structure ReadFile where
  path : String
  asBinary : Bool := false
  deriving DecidableEq, Repr

inductive Encoding where
  | utf8
  | base64
  deriving DecidableEq, Repr

def Encoding.tag : Encoding → String
  | .utf8 => "utf8"
  | .base64 => "base64"

def Encoding.ofTag? : String → Option Encoding
  | "utf8" => some .utf8
  | "base64" => some .base64
  | _ => none

structure WriteFile where
  path : String
  content : String
  encoding : Encoding := .utf8
  createParents : Bool := true
  deriving DecidableEq, Repr

structure Delete where
  path : String
  recursive : Bool := false
  deriving DecidableEq, Repr

structure ListFiles where
  root : Option String := none
  including : List String := []
  excluding : List String := []
  limit : Int := 1000
  deriving DecidableEq, Repr

structure ReadLines where
  path : String
  first : Option Int := none
  last : Option Int := none
  deriving DecidableEq, Repr

structure Search where
  query : String
  including : List String := []
  excluding : List String := []
  regex : Bool := false
  caseSensitive : Bool := false
  limit : Int := 200
  deriving DecidableEq, Repr

structure IndexSymbols where
  paths : List String := []
  languages : List String := []
  deriving DecidableEq, Repr

structure SearchSymbols where
  kind : Option String := none
  name : Option String := none
  language : Option String := none
  deriving DecidableEq, Repr

structure GraphDependencies where
  root : Option String := none
  including : List String := []
  excluding : List String := []
  deriving DecidableEq, Repr

open Reading

/-! Reading. -/

def ListDirectory.read : Reading ListDirectory := fun r => do
  let m ← fieldsOf [.defaulted "path" text] r
  return { path := ← defaulted m "path" "" text }

def ReadFile.read : Reading ReadFile := fun r => do
  let m ← fieldsOf [.required "path" text, .defaulted "as_binary" bool] r
  return {
    path := ← required m "path" text
    asBinary := ← defaulted m "as_binary" false bool }

def Encoding.read : Reading Encoding := Reading.tag Encoding.ofTag?

def WriteFile.read : Reading WriteFile := fun r => do
  let m ← fieldsOf [.required "path" text, .required "content" text,
    .defaulted "encoding" Encoding.read, .defaulted "create_dirs" bool] r
  return {
    path := ← required m "path" text
    content := ← required m "content" text
    encoding := ← defaulted m "encoding" .utf8 Encoding.read
    createParents := ← defaulted m "create_dirs" true bool }

def Delete.read : Reading Delete := fun r => do
  let m ← fieldsOf [.required "path" text, .defaulted "recursive" bool] r
  return {
    path := ← required m "path" text
    recursive := ← defaulted m "recursive" false bool }

def ListFiles.read : Reading ListFiles := fun r => do
  let m ← fieldsOf [.defaulted "root" (option text), .defaulted "include_globs" (list text),
    .defaulted "exclude_globs" (list text), .defaulted "limit" int64] r
  return {
    root := ← defaulted m "root" none (option text)
    including := ← defaulted m "include_globs" [] (list text)
    excluding := ← defaulted m "exclude_globs" [] (list text)
    limit := ← defaulted m "limit" 1000 int64 }

def ReadLines.read : Reading ReadLines := fun r => do
  let m ← fieldsOf [.required "path" text, .defaulted "start_line" (option int64),
    .defaulted "end_line" (option int64)] r
  return {
    path := ← required m "path" text
    first := ← defaulted m "start_line" none (option int64)
    last := ← defaulted m "end_line" none (option int64) }

def Search.read : Reading Search := fun r => do
  let m ← fieldsOf [.required "query" text, .defaulted "include_globs" (list text),
    .defaulted "exclude_globs" (list text), .defaulted "regex" bool,
    .defaulted "case_sensitive" bool, .defaulted "limit" int64] r
  return {
    query := ← required m "query" text
    including := ← defaulted m "include_globs" [] (list text)
    excluding := ← defaulted m "exclude_globs" [] (list text)
    regex := ← defaulted m "regex" false bool
    caseSensitive := ← defaulted m "case_sensitive" false bool
    limit := ← defaulted m "limit" 200 int64 }

def IndexSymbols.read : Reading IndexSymbols := fun r => do
  let m ← fieldsOf [.defaulted "paths" (list text), .defaulted "languages" (list text)] r
  return {
    paths := ← defaulted m "paths" [] (list text)
    languages := ← defaulted m "languages" [] (list text) }

def SearchSymbols.read : Reading SearchSymbols := fun r => do
  let m ← fieldsOf [.defaulted "kind" (option text), .defaulted "name" (option text),
    .defaulted "language" (option text)] r
  return {
    kind := ← defaulted m "kind" none (option text)
    name := ← defaulted m "name" none (option text)
    language := ← defaulted m "language" none (option text) }

def GraphDependencies.read : Reading GraphDependencies := fun r => do
  let m ← fieldsOf [.defaulted "root" (option text), .defaulted "include_globs" (list text),
    .defaulted "exclude_globs" (list text)] r
  return {
    root := ← defaulted m "root" none (option text)
    including := ← defaulted m "include_globs" [] (list text)
    excluding := ← defaulted m "exclude_globs" [] (list text) }

/-! Writing. -/

def ListDirectory.json (q : ListDirectory) : Json := .object [("path", .text q.path)]

def ReadFile.json (q : ReadFile) : Json :=
  .object [("path", .text q.path), ("as_binary", .bool q.asBinary)]

def WriteFile.json (q : WriteFile) : Json :=
  .object [("path", .text q.path), ("content", .text q.content),
    ("encoding", .text q.encoding.tag), ("create_dirs", .bool q.createParents)]

def Delete.json (q : Delete) : Json :=
  .object [("path", .text q.path), ("recursive", .bool q.recursive)]

def ListFiles.json (q : ListFiles) : Json :=
  .object [("root", .option .text q.root), ("include_globs", .texts q.including),
    ("exclude_globs", .texts q.excluding), ("limit", .int q.limit)]

def ReadLines.json (q : ReadLines) : Json :=
  .object [("path", .text q.path), ("start_line", .option .int q.first),
    ("end_line", .option .int q.last)]

def Search.json (q : Search) : Json :=
  .object [("query", .text q.query), ("include_globs", .texts q.including),
    ("exclude_globs", .texts q.excluding), ("regex", .bool q.regex),
    ("case_sensitive", .bool q.caseSensitive), ("limit", .int q.limit)]

def IndexSymbols.json (q : IndexSymbols) : Json :=
  .object [("paths", .texts q.paths), ("languages", .texts q.languages)]

def SearchSymbols.json (q : SearchSymbols) : Json :=
  .object [("kind", .option .text q.kind), ("name", .option .text q.name),
    ("language", .option .text q.language)]

def GraphDependencies.json (q : GraphDependencies) : Json :=
  .object [("root", .option .text q.root), ("include_globs", .texts q.including),
    ("exclude_globs", .texts q.excluding)]

end Worksite.Request

namespace Worksite

/-- One of the operations on a workspace, with what it is asked. -/
inductive Request where
  | listDirectory (q : Request.ListDirectory)
  | readFile (q : Request.ReadFile)
  | writeFile (q : Request.WriteFile)
  | delete (q : Request.Delete)
  | listFiles (q : Request.ListFiles)
  | readLines (q : Request.ReadLines)
  | search (q : Request.Search)
  | indexSymbols (q : Request.IndexSymbols)
  | searchSymbols (q : Request.SearchSymbols)
  | graphDependencies (q : Request.GraphDependencies)
  deriving DecidableEq, Repr

namespace Request

/-- The name of an operation. -/
def operation : Request → String
  | listDirectory _ => "fs.list"
  | readFile _ => "fs.read"
  | writeFile _ => "fs.write"
  | delete _ => "fs.delete"
  | listFiles _ => "repo.list"
  | readLines _ => "repo.read"
  | search _ => "repo.search"
  | indexSymbols _ => "symbols.index"
  | searchSymbols _ => "symbols.search"
  | graphDependencies _ => "dep.graph"

def json : Request → Json
  | listDirectory q => q.json
  | readFile q => q.json
  | writeFile q => q.json
  | delete q => q.json
  | listFiles q => q.json
  | readLines q => q.json
  | search q => q.json
  | indexSymbols q => q.json
  | searchSymbols q => q.json
  | graphDependencies q => q.json

/-- How the request of an operation is read, for each operation. -/
def readers : List (String × Reading Request) :=
  [("fs.list", fun r => (ListDirectory.read r).map listDirectory),
    ("fs.read", fun r => (ReadFile.read r).map readFile),
    ("fs.write", fun r => (WriteFile.read r).map writeFile),
    ("fs.delete", fun r => (Delete.read r).map delete),
    ("repo.list", fun r => (ListFiles.read r).map listFiles),
    ("repo.read", fun r => (ReadLines.read r).map readLines),
    ("repo.search", fun r => (Search.read r).map search),
    ("symbols.index", fun r => (IndexSymbols.read r).map indexSymbols),
    ("symbols.search", fun r => (SearchSymbols.read r).map searchSymbols),
    ("dep.graph", fun r => (GraphDependencies.read r).map graphDependencies)]

end Request

end Worksite
