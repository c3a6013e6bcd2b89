import Worksite.Toml.Syntax
import Worksite.Toml.Printer
import Worksite.Policy
import Worksite.Json
import Worksite.Error

/-!
Settings of the service and of the write policy, read from TOML files. What is missing has a
default, and what makes no sense is refused.
-/
namespace Worksite

inductive SettingsError where
  | unreadable (cause : SystemError)
  | malformed
  | invalid (reason : String)
  deriving DecidableEq, Repr

def SettingsError.message : SettingsError → String
  | unreadable cause => "failed to read config file: " ++ cause.message
  | malformed => "failed to parse TOML: TOML parse error"
  | invalid reason => "validation error: " ++ reason

structure Settings.Workspace where
  root : String := "."
  name : String := "default"
  readOnly : Bool := false
  policyFile : String := ".burrow/policy.toml"
  deriving DecidableEq, Repr

structure Settings.Daemon where
  socketPath : String := "/tmp/burrow.sock"
  deriving DecidableEq, Repr

structure Settings.Limits where
  maxRequestsPerMinute : UInt32 := 120
  requestTimeoutSecs : UInt64 := 30
  listTimeBudgetMs : UInt64 := 5000
  searchTimeBudgetMs : UInt64 := 8000
  maxListResults : UInt64 := 10000
  maxSearchResults : UInt64 := 2000
  maxIndexFiles : UInt64 := 20000
  maxFileBytes : UInt64 := 2097152
  workerThreads : UInt64 := 4
  deriving DecidableEq, Repr

structure Settings.Logging where
  level : String := "info"
  deriving DecidableEq, Repr

structure Settings where
  workspace : Settings.Workspace := {}
  daemon : Settings.Daemon := {}
  limits : Settings.Limits := {}
  logging : Settings.Logging := {}
  deriving DecidableEq, Repr

namespace Settings

/-- The path of the policy file, below the root unless it is absolute. -/
def Workspace.policyPath (w : Workspace) : String := Path.push w.root w.policyFile

/-- The limits that must not be zero. -/
def Limits.counts (l : Limits) : List (String × UInt64) :=
  [("limits.request_timeout_secs", l.requestTimeoutSecs),
   ("limits.list_time_budget_ms", l.listTimeBudgetMs),
   ("limits.search_time_budget_ms", l.searchTimeBudgetMs),
   ("limits.max_list_results", l.maxListResults),
   ("limits.max_search_results", l.maxSearchResults),
   ("limits.max_index_files", l.maxIndexFiles),
   ("limits.max_file_bytes", l.maxFileBytes),
   ("limits.worker_threads", l.workerThreads)]

def validate (s : Settings) : Except SettingsError Unit :=
  if Text.trim s.workspace.name.toList = [] then
    .error (.invalid "workspace.name must not be empty")
  else if s.workspace.root = "" then .error (.invalid "workspace.root must not be empty")
  else if s.daemon.socketPath = "" then .error (.invalid "daemon.socket_path must not be empty")
  else
    match s.limits.counts.find? (·.2 = 0) with
    | some (name, _) => .error (.invalid (name ++ " must be non-zero"))
    | none => .ok ()

/-! Reading. -/

open Toml

def Workspace.ofToml? (v : Toml) : Option Workspace := do
  let m ← fields? ["root", "name", "read_only", "policy_file"] v
  return {
    root := ← field? m "root" "." text?
    name := ← field? m "name" "default" text?
    readOnly := ← field? m "read_only" false bool?
    policyFile := ← field? m "policy_file" ".burrow/policy.toml" text? }

def Daemon.ofToml? (v : Toml) : Option Daemon := do
  let m ← fields? ["socket_path"] v
  return { socketPath := ← field? m "socket_path" "/tmp/burrow.sock" text? }

def Limits.ofToml? (v : Toml) : Option Limits := do
  let m ← fields? ["max_requests_per_minute", "request_timeout_secs", "list_time_budget_ms",
    "search_time_budget_ms", "max_list_results", "max_search_results", "max_index_files",
    "max_file_bytes", "worker_threads"] v
  return {
    maxRequestsPerMinute := ← field? m "max_requests_per_minute" 120 nat32?
    requestTimeoutSecs := ← field? m "request_timeout_secs" 30 nat64?
    listTimeBudgetMs := ← field? m "list_time_budget_ms" 5000 nat64?
    searchTimeBudgetMs := ← field? m "search_time_budget_ms" 8000 nat64?
    maxListResults := ← field? m "max_list_results" 10000 nat64?
    maxSearchResults := ← field? m "max_search_results" 2000 nat64?
    maxIndexFiles := ← field? m "max_index_files" 20000 nat64?
    maxFileBytes := ← field? m "max_file_bytes" 2097152 nat64?
    workerThreads := ← field? m "worker_threads" 4 nat64? }

def Logging.ofToml? (v : Toml) : Option Logging := do
  let m ← fields? ["level"] v
  return { level := ← field? m "level" "info" text? }

def ofToml? (v : Toml) : Option Settings := do
  let m ← fields? ["workspace", "daemon", "limits", "logging"] v
  return {
    workspace := ← field? m "workspace" {} Workspace.ofToml?
    daemon := ← field? m "daemon" {} Daemon.ofToml?
    limits := ← field? m "limits" {} Limits.ofToml?
    logging := ← field? m "logging" {} Logging.ofToml? }

def parse (text : String) : Except SettingsError Settings :=
  match (Toml.ofText? text).bind ofToml? with
  | none => .error .malformed
  | some s => s.validate.map fun _ => s

/-! Writing. -/

abbrev Lines := List (String × Toml.Printer.Scalar)

def Workspace.lines (w : Workspace) : Lines :=
  [("root", .text w.root), ("name", .text w.name), ("read_only", .bool w.readOnly),
    ("policy_file", .text w.policyFile)]

def Daemon.lines (d : Daemon) : Lines := [("socket_path", .text d.socketPath)]

def Limits.lines (l : Limits) : Lines :=
  [("max_requests_per_minute", .nat l.maxRequestsPerMinute.toNat),
    ("request_timeout_secs", .nat l.requestTimeoutSecs.toNat),
    ("list_time_budget_ms", .nat l.listTimeBudgetMs.toNat),
    ("search_time_budget_ms", .nat l.searchTimeBudgetMs.toNat),
    ("max_list_results", .nat l.maxListResults.toNat),
    ("max_search_results", .nat l.maxSearchResults.toNat),
    ("max_index_files", .nat l.maxIndexFiles.toNat),
    ("max_file_bytes", .nat l.maxFileBytes.toNat),
    ("worker_threads", .nat l.workerThreads.toNat)]

def Logging.lines (l : Logging) : Lines := [("level", .text l.level)]

def sections (s : Settings) : List Toml.Printer.Section :=
  [⟨"workspace", s.workspace.lines⟩, ⟨"daemon", s.daemon.lines⟩, ⟨"limits", s.limits.lines⟩,
    ⟨"logging", s.logging.lines⟩]

/-- The settings as a TOML document that reads back as the same. -/
def render (s : Settings) : String := Toml.Printer.document s.sections

def json (s : Settings) : Json :=
  .object [
    ("workspace", .object [("root", .text s.workspace.root), ("name", .text s.workspace.name),
      ("read_only", .bool s.workspace.readOnly), ("policy_file", .text s.workspace.policyFile)]),
    ("daemon", .object [("socket_path", .text s.daemon.socketPath)]),
    ("limits", .object [
      ("max_requests_per_minute", .nat s.limits.maxRequestsPerMinute.toNat),
      ("request_timeout_secs", .nat s.limits.requestTimeoutSecs.toNat),
      ("list_time_budget_ms", .nat s.limits.listTimeBudgetMs.toNat),
      ("search_time_budget_ms", .nat s.limits.searchTimeBudgetMs.toNat),
      ("max_list_results", .nat s.limits.maxListResults.toNat),
      ("max_search_results", .nat s.limits.maxSearchResults.toNat),
      ("max_index_files", .nat s.limits.maxIndexFiles.toNat),
      ("max_file_bytes", .nat s.limits.maxFileBytes.toNat),
      ("worker_threads", .nat s.limits.workerThreads.toNat)]),
    ("logging", .object [("level", .text s.logging.level)])]

end Settings

/-- The policy file of a workspace. -/
structure PolicySettings where
  allowed : List String := []
  denied : List String := []
  backupOnWrite : Bool := false
  deriving DecidableEq, Repr

namespace PolicySettings

/-- The first prefix of a list that climbs. -/
def climbing? (prefixes : List String) : Option (Nat × String) :=
  (prefixes.mapIdx fun i p => (i, p)).find? fun (_, p) => Path.Step.up ∈ Path.steps p

def refusal (list : String) (found : Nat × String) : SettingsError :=
  .invalid (list ++ "[" ++ toString found.1 ++ "] must not contain '..', got " ++
    Text.quoted found.2)

/-- Prefixes may not climb out of the workspace. -/
def validate (s : PolicySettings) : Except SettingsError Unit :=
  match climbing? s.allowed, climbing? s.denied with
  | some found, _ => .error (refusal "write_allowed_paths" found)
  | none, some found => .error (refusal "write_denied_paths" found)
  | none, none => .ok ()

open Toml in
def ofToml? (v : Toml) : Option PolicySettings := do
  let m ← fields? ["write_allowed_paths", "write_denied_paths", "backup_on_write"] v
  return {
    allowed := ← field? m "write_allowed_paths" [] texts?
    denied := ← field? m "write_denied_paths" [] texts?
    backupOnWrite := ← field? m "backup_on_write" false bool? }

def parse (text : String) : Except SettingsError PolicySettings :=
  match (Toml.ofText? text).bind ofToml? with
  | none => .error .malformed
  | some s => s.validate.map fun _ => s

def policy (s : PolicySettings) : WritePolicy :=
  WritePolicy.ofPrefixes s.allowed s.denied s.backupOnWrite

def json (s : PolicySettings) : Json :=
  .object [("write_allowed_paths", .texts s.allowed), ("write_denied_paths", .texts s.denied),
    ("backup_on_write", .bool s.backupOnWrite)]

end PolicySettings

end Worksite
