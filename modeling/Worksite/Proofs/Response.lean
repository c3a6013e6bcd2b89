import Worksite.Proofs.Json.Spread
import Worksite.Proofs.Language

/-!
Responses are restored from what is written for them, with their parts.
-/
namespace Worksite

open Reading

variable {r : Raw}

/-! ## Parts -/

theorem EntryKind.ofTag?_tag (k : EntryKind) : EntryKind.ofTag? k.tag = some k := by
  cases k <;> rfl

theorem SymbolKind.ofTag?_tag (k : SymbolKind) : SymbolKind.ofTag? k.tag = some k := by
  cases k <;> rfl

theorem ErrorKind.ofTag?_tag (k : ErrorKind) : ErrorKind.ofTag? k.tag = some k := by
  cases k <;> rfl

theorem restores_language {l : Language} (h : l.ReadsBack) (shape : Shape) :
    Restores Language.read shape (.text l.tag) l := by
  intro r hr _
  rw [hr.text]
  exact congrArg Except.ok h

def DirectoryEntry.Fits (e : DirectoryEntry) : Prop := e.size < UInt64.size

def DirectoryEntry.shape : Shape := .flat ["name", "path", "type", "size"]

theorem DirectoryEntry.restores {e : DirectoryEntry} (h : e.Fits) :
    Restores DirectoryEntry.read shape e.json e :=
  Assembles.restores
    (.required (restores_text _ _) <| .required (restores_text _ _) <|
      .required (restores_tag e.kind.ofTag?_tag _) <| .required (restores_nat64 h _) .done)
    (by decide)

def FileEntry.Fits (e : FileEntry) : Prop := e.size < UInt64.size ∧ e.language.ReadsBack

def FileEntry.shape : Shape := .flat ["path", "size", "language"]

theorem FileEntry.restores {e : FileEntry} (h : e.Fits) :
    Restores FileEntry.read shape e.json e :=
  Assembles.restores
    (.required (restores_text _ _) <| .required (restores_nat64 h.1 _) <|
      .required (restores_language h.2 _) .done)
    (by decide)

def SearchMatch.shape : Shape :=
  .flat ["path", "line", "column_start", "column_end", "snippet"]

theorem SearchMatch.restores (m : SearchMatch) : Restores SearchMatch.read shape m.json m :=
  Assembles.restores
    (.required (restores_text _ _) <| .required (restores_nat32 _ _) <|
      .required (restores_nat32 _ _) <| .required (restores_nat32 _ _) <|
        .required (restores_text _ _) .done)
    (by decide)

def Symbol.shape : Shape := .flat ["name", "kind", "language", "file", "line"]

theorem Symbol.restores {s : Symbol} (h : s.language.ReadsBack) :
    Restores Symbol.read shape s.json s :=
  Assembles.restores
    (.required (restores_text _ _) <| .required (restores_tag s.kind.ofTag?_tag _) <|
      .required (restores_language h _) <| .required (restores_text _ _) <|
        .required (restores_nat32 _ _) .done)
    (by decide)

def BuildInfo.Fits (b : BuildInfo) : Prop :=
  b.builtAt < UInt64.size ∧ b.grammarVersion < UInt64.size

def BuildInfo.shape : Shape :=
  .flat ["version", "git_revision", "profile", "built_at", "grammar_abi"]

theorem BuildInfo.restores {b : BuildInfo} (h : b.Fits) : Restores BuildInfo.read shape b.json b :=
  Assembles.restores
    (.required (restores_text _ _) <| .required (restores_text _ _) <|
      .required (restores_text _ _) <| .required (restores_nat64 h.1 _) <|
        .required (restores_nat64 h.2 _) .done)
    (by decide)

def DependencyEdge.shape : Shape := .flat ["from", "to"]

theorem DependencyEdge.restores (e : DependencyEdge) :
    Restores DependencyEdge.read shape e.json e :=
  Assembles.restores (.required (restores_text _ _) <| .required (restores_text _ _) .done)
    (by decide)

def DependencyGraph.shape : Shape := .nested ["nodes", "edges"] "edges" (.list DependencyEdge.shape)

theorem DependencyGraph.restores (g : DependencyGraph) :
    Restores DependencyGraph.read shape g.json g :=
  Assembles.restores
    (.required (restores_texts _) <|
      .required (restores_list fun e _ => DependencyEdge.restores e) .done)
    (by decide)

namespace Response

/-! ## Responses of one object -/

def Listing.Fits (a : Listing) : Prop := ∀ e ∈ a.entries, e.Fits

def Listing.shape : Shape := .nested ["path", "entries"] "entries" (.list DirectoryEntry.shape)

theorem Listing.restores {a : Listing} (h : a.Fits) : Restores Listing.read shape a.json a :=
  Assembles.restores
    (.required (restores_text _ _) <|
      .required (restores_list fun e he => DirectoryEntry.restores (h e he)) .done)
    (by decide)

def WriteOutcome.shape : Shape := .flat ["ok", "path", "bytes_written", "backup"]

theorem WriteOutcome.restores {a : WriteOutcome} (h : a.bytesWritten < UInt64.size) :
    Restores WriteOutcome.read shape a.json a := by
  have hbackup : ∀ s ∈ a.backup, Restores (option text) .leaf (.text s) (some s) := by
    intro s _
    exact restores_option (o := some s) rfl fun t _ => restores_text _ t
  have hjson : a.json = .object ([("ok", .bool a.ok), ("path", .text a.path),
      ("bytes_written", .nat a.bytesWritten)] ++
        ((a.backup.toList.map fun b => ("backup", .text b)) ++ [])) := by
    rw [List.append_nil]
    rfl
  rw [hjson]
  exact Assembles.restores
    (.required (restores_bool _ _) <| .required (restores_text _ _) <|
      .required (restores_nat64 h _) <| .optional hbackup .done)
    (by decide)

def Deleted.shape : Shape := .flat ["ok", "path"]

theorem Deleted.restores (a : Deleted) : Restores Deleted.read shape a.json a :=
  Assembles.restores (.required (restores_bool _ _) <| .required (restores_text _ _) .done)
    (by decide)

def Files.Fits (a : Files) : Prop := ∀ e ∈ a.files, e.Fits

def Files.shape : Shape := .nested ["files"] "files" (.list FileEntry.shape)

theorem Files.restores {a : Files} (h : a.Fits) : Restores Files.read shape a.json a :=
  Assembles.restores (.required (restores_list fun e he => FileEntry.restores (h e he)) .done)
    (by decide)

def Matches.shape : Shape := .nested ["matches"] "matches" (.list SearchMatch.shape)

theorem Matches.restores (a : Matches) : Restores Matches.read shape a.json a :=
  Assembles.restores (.required (restores_list fun m _ => SearchMatch.restores m) .done)
    (by decide)

def Indexed.Fits (a : Indexed) : Prop :=
  a.fileCount < UInt64.size ∧ (∀ s ∈ a.symbols, s.language.ReadsBack) ∧
    a.generation < UInt64.size

def Indexed.shape : Shape :=
  .nested ["indexed_file_count", "symbols", "generation"] "symbols" (.list Symbol.shape)

theorem Indexed.restores {a : Indexed} (h : a.Fits) : Restores Indexed.read shape a.json a :=
  Assembles.restores
    (.required (restores_nat64 h.1 _) <|
      .required (restores_list fun s hs => Symbol.restores (h.2.1 s hs)) <|
        .required (restores_nat64 h.2.2 _) .done)
    (by decide)

def Symbols.Fits (a : Symbols) : Prop := ∀ s ∈ a.symbols, s.language.ReadsBack

def Symbols.shape : Shape := .nested ["symbols"] "symbols" (.list Symbol.shape)

theorem Symbols.restores {a : Symbols} (h : a.Fits) : Restores Symbols.read shape a.json a :=
  Assembles.restores (.required (restores_list fun s hs => Symbol.restores (h s hs)) .done)
    (by decide)

def Health.Fits (a : Health) : Prop := a.build.Fits ∧ a.indexGeneration < UInt64.size

def Health.shape : Shape :=
  .nested ["status", "workspace", "read_only", "capabilities", "version", "build",
    "index_generation", "max_requests_per_minute"] "build" BuildInfo.shape

theorem Health.restores {a : Health} (h : a.Fits) : Restores Health.read shape a.json a :=
  Assembles.restores
    (.required (restores_text _ _) <| .required (restores_text _ _) <|
      .required (restores_bool _ _) <| .required (restores_texts _) <|
        .required (restores_text _ _) <| .required (BuildInfo.restores h.1) <|
          .required (restores_nat64 h.2 _) <| .required (restores_nat32 _ _) .done)
    (by decide)

def Stopping.shape : Shape := .flat ["acknowledged", "message"]

theorem Stopping.restores (a : Stopping) : Restores Stopping.read shape a.json a :=
  Assembles.restores (.required (restores_bool _ _) <| .required (restores_text _ _) .done)
    (by decide)

def Failure.bodyShape : Shape := .flat ["kind", "operation", "message"]

theorem Failure.restores_body (a : Failure) : Restores Failure.readBody bodyShape a.body a :=
  Assembles.restores
    (.required (restores_tag a.kind.ofTag?_tag _) <| .required (restores_text _ _) <|
      .required (restores_text _ _) .done)
    (by decide)

def Failure.shape : Shape := .nested ["error"] "error" Failure.bodyShape

theorem Failure.restores (a : Failure) : Restores Failure.read shape a.json a := by
  have hread : Failure.read = fun r => fieldsOf [.required "error" readBody] r >>= fun m =>
      required m "error" readBody >>= pure := by
    simp only [bind_pure]
    rfl
  rw [hread]
  exact Assembles.restores (.required (restores_body a) .done) (by decide)

/-! ## Responses with a content -/

def ReadFile.names : List String := ["path", "content", "content_base64"]

def ReadLines.Fits (a : ReadLines) : Prop := a.totalLines < UInt64.size

def ReadLines.names : List String :=
  ["path", "content_hash", "total_lines", "content", "content_base64"]

end Response

end Worksite
