import Worksite.Proofs.Json.Rearranged
import Worksite.Request

/-!
Requests are restored from what is written for them.
-/
namespace Worksite.Request

open Reading

theorem Encoding.ofTag?_tag (e : Encoding) : Encoding.ofTag? e.tag = some e := by
  cases e <;> rfl

def ListDirectory.shape : Shape := .flat ["path"]

theorem ListDirectory.restores (q : ListDirectory) : Restores ListDirectory.read shape q.json q :=
  Assembles.restores (.defaulted (restores_text _ _) .done) (by decide)

def ReadFile.shape : Shape := .flat ["path", "as_binary"]

theorem ReadFile.restores (q : ReadFile) : Restores ReadFile.read shape q.json q :=
  Assembles.restores (.required (restores_text _ _) <| .defaulted (restores_bool _ _) .done)
    (by decide)

def WriteFile.shape : Shape := .flat ["path", "content", "encoding", "create_dirs"]

theorem WriteFile.restores (q : WriteFile) : Restores WriteFile.read shape q.json q :=
  Assembles.restores
    (.required (restores_text _ _) <| .required (restores_text _ _) <|
      .defaulted (restores_tag q.encoding.ofTag?_tag _) <| .defaulted (restores_bool _ _) .done)
    (by decide)

def Delete.shape : Shape := .flat ["path", "recursive"]

theorem Delete.restores (q : Delete) : Restores Delete.read shape q.json q :=
  Assembles.restores (.required (restores_text _ _) <| .defaulted (restores_bool _ _) .done)
    (by decide)

theorem restores_optionText (shape : Shape) (o : Option String) :
    Restores (option text) shape (.option .text o) o :=
  restores_option rfl fun s _ => restores_text shape s

theorem restores_optionInt64 {o : Option Int} (h : ∀ n ∈ o, Int64Fits n) (shape : Shape) :
    Restores (option int64) shape (.option .int o) o :=
  restores_option rfl fun n hn => restores_int64 (h n hn) shape

def ListFiles.shape : Shape := .flat ["root", "include_globs", "exclude_globs", "limit"]

theorem ListFiles.restores {q : ListFiles} (h : Int64Fits q.limit) :
    Restores ListFiles.read shape q.json q :=
  Assembles.restores
    (.defaulted (restores_optionText _ _) <| .defaulted (restores_texts _) <|
      .defaulted (restores_texts _) <| .defaulted (restores_int64 h _) .done)
    (by decide)

/-- Whether the line numbers are of 64 bits. -/
def ReadLines.Fits (q : ReadLines) : Prop :=
  (∀ n ∈ q.first, Int64Fits n) ∧ ∀ n ∈ q.last, Int64Fits n

def ReadLines.shape : Shape := .flat ["path", "start_line", "end_line"]

theorem ReadLines.restores {q : ReadLines} (h : q.Fits) : Restores ReadLines.read shape q.json q :=
  Assembles.restores
    (.required (restores_text _ _) <| .defaulted (restores_optionInt64 h.1 _) <|
      .defaulted (restores_optionInt64 h.2 _) .done)
    (by decide)

def Search.shape : Shape :=
  .flat ["query", "include_globs", "exclude_globs", "regex", "case_sensitive", "limit"]

theorem Search.restores {q : Search} (h : Int64Fits q.limit) :
    Restores Search.read shape q.json q :=
  Assembles.restores
    (.required (restores_text _ _) <| .defaulted (restores_texts _) <|
      .defaulted (restores_texts _) <| .defaulted (restores_bool _ _) <|
        .defaulted (restores_bool _ _) <| .defaulted (restores_int64 h _) .done)
    (by decide)

def IndexSymbols.shape : Shape := .flat ["paths", "languages"]

theorem IndexSymbols.restores (q : IndexSymbols) : Restores IndexSymbols.read shape q.json q :=
  Assembles.restores (.defaulted (restores_texts _) <| .defaulted (restores_texts _) .done)
    (by decide)

def SearchSymbols.shape : Shape := .flat ["kind", "name", "language"]

theorem SearchSymbols.restores (q : SearchSymbols) : Restores SearchSymbols.read shape q.json q :=
  Assembles.restores
    (.defaulted (restores_optionText _ _) <| .defaulted (restores_optionText _ _) <|
      .defaulted (restores_optionText _ _) .done)
    (by decide)

def GraphDependencies.shape : Shape := .flat ["root", "include_globs", "exclude_globs"]

theorem GraphDependencies.restores (q : GraphDependencies) :
    Restores GraphDependencies.read shape q.json q :=
  Assembles.restores
    (.defaulted (restores_optionText _ _) <| .defaulted (restores_texts _) <|
      .defaulted (restores_texts _) .done)
    (by decide)

end Worksite.Request
