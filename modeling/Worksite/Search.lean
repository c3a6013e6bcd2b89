import Worksite.Walk
import Worksite.Query
import Worksite.Place.Read

/-!
Searches: where a query matches in the files of a walk, line by line. Files that are not fit for
scanning are passed over. A search ends early like a walk.
-/
namespace Worksite

structure SearchOptions where
  query : Query
  /-- How many matches at most. -/
  limit : Option Nat := none
  maxFileBytes : Nat
  deriving DecidableEq, Repr

structure SearchOutcome where
  found : List SearchMatch := []
  filesScanned : Nat := 0
  truncated : Option Truncation := none
  deriving DecidableEq, Repr

namespace Search

/-- The match of a span in a line. -/
def matchOf (path : String) (line : Nat) (text : Text.Chars) (m : Pattern.Span) : SearchMatch :=
  let start := text.length - m.first.after.length + 1
  let stop := start + (m.first.after.length - m.last.after.length)
  { path, line := UInt32.ofNat line, columnStart := UInt32.ofNat start,
    columnEnd := UInt32.ofNat stop, snippet := String.ofList (Text.trimEnd text) }

/-- The matches in a text that are not empty, line after line. -/
def inText (p : Pattern) (path : String) (text : Text.Chars) : List SearchMatch :=
  ((Text.lines text).zipIdx 1).flatMap fun (line, number) =>
    ((p.allMatches line).filter (!·.isEmpty)).map (matchOf path number line)

/-- Scans files in turn, up to a number of matches. -/
def scan (load : FoundFile → Option String) (p : Pattern) (truncated : Option Truncation) :
    (left : Option Nat) → Deadline → List FoundFile → SearchOutcome
  | _, _, [] => { truncated }
  | left, d, f :: rest =>
    if d.expired then { truncated := some .timeBudget }
    else
      match load f with
      | none => scan load p truncated left d.next rest
      | some text =>
        let found := inText p f.path text.toList
        if left.any (· ≤ found.length) then
          { found := found.take (left.getD 0), filesScanned := 1, truncated := some .count }
        else
          let more := scan load p truncated (left.map (· - found.length)) d.next rest
          { more with found := found ++ more.found, filesScanned := more.filesScanned + 1 }

end Search

/-- Searches the files of a walk. -/
def search (s : Sandbox) (t : FileTree) (root : Place) (walk : WalkOptions) (o : SearchOptions)
    (d : Deadline) : Except WorkspaceError SearchOutcome := do
  let p ← o.query.pattern
  if o.limit = some 0 then return {}
  else
    let (e, d) ← enumerate s t root walk d
    return Search.scan (fun f => t.loadText (s.root ++ f.relative) o.maxFileBytes) p e.truncated
      o.limit d e.files

end Worksite
