import Worksite.Sandbox
import Worksite.Glob
import Worksite.Response
import Worksite.Deadline

/-!
Walks: the files below a place, in the order of their names. Directories that are never shown are
not entered, links to directories are not followed, and of several names of one file the first is
kept. A walk ends early when it has found enough or its time is over, which is no error.
-/
namespace Worksite

/-- A file that a walk found, by its names below the workspace root. -/
structure FoundFile where
  relative : Location
  size : Nat
  deriving DecidableEq, Repr

namespace FoundFile

def path (f : FoundFile) : String := f.relative.display

def language (f : FoundFile) : Language := Language.classify f.relative.relativeText

def entry (f : FoundFile) : FileEntry :=
  { path := f.path, size := f.size, language := f.language }

end FoundFile

/-- Why a walk or a search ended early. -/
inductive Truncation where
  | count
  | timeBudget
  deriving DecidableEq, Repr

def Truncation.tag : Truncation → String
  | .count => "count"
  | .timeBudget => "time_budget"

structure Enumeration where
  files : List FoundFile := []
  truncated : Option Truncation := none
  deriving DecidableEq, Repr

/-- What a walk is after: patterns of paths below its start, and how many files at most. -/
structure WalkOptions where
  including : List String := []
  excluding : List String := []
  maxCount : Option Nat := none
  deriving DecidableEq, Repr

namespace Walk

/-- Whether a walk from `root` does not come to a location below it. -/
def isPruned (t : FileTree) (root l : Location) : Bool :=
  let names := l.drop root.length
  Exclusion.holds names ||
    (t.isDirectory l && (names.getLast?.any fun name => name ∈ Exclusion.directories))

/-- What a walk comes to: the start, then what is below it. -/
def visited (t : FileTree) (root : Location) : List Location :=
  root :: (t.below root).filter (!isPruned t root ·)

/-- The file that a visited location stands for, with the place where its bytes are. -/
def candidate? (s : Sandbox) (t : FileTree) (filter : FileFilter) (root l : Location) :
    Option (Location × FoundFile) :=
  if t.isDirectory l then none
  else
    match t.find true l with
    | .ok (.file bytes _) =>
      match t.canonical l with
      | .error _ => none
      | .ok place => do
        guard (place.isWithin s.root)
        let relative ← l.relativeTo? s.root
        let below := (l.relativeTo? root).getD l
        guard (filter.admits below.relativeText relative.relativeText)
        return (place, { relative, size := bytes.size })
    | _ => none

/-- Gathers files from what is visited, up to a count. `seen` holds the places that had their
turn. -/
def gather (candidate? : Location → Option (Location × FoundFile)) (seen : List Location) :
    (left : Option Nat) → Deadline → List Location → Enumeration × Deadline
  | _, d, [] => ({}, d)
  | left, d, l :: rest =>
    if d.expired then ({ truncated := some .timeBudget }, d)
    else
      match candidate? l with
      | none => gather candidate? seen left d.next rest
      | some (place, file) =>
        if place ∈ seen then gather candidate? seen left d.next rest
        else if left.any (· ≤ 1) then ({ files := [file], truncated := some .count }, d.next)
        else
          let (e, d) := gather candidate? (place :: seen) (left.map (· - 1)) d.next rest
          ({ e with files := file :: e.files }, d)

end Walk

/-- The files below a place, and the deadline as the walk leaves it. A place that is a file itself
is its only file; patterns to include do not matter there. -/
def enumerate (s : Sandbox) (t : FileTree) (root : Place) (o : WalkOptions) (d : Deadline) :
    Except WorkspaceError (Enumeration × Deadline) := do
  let filter ← FileFilter.ofTexts o.including o.excluding
  if o.maxCount = some 0 then return ({}, d)
  else
    match t.find true root.absolute with
    | .error e => .error (root.systemError e)
    | .ok (.file bytes _) =>
      if Exclusion.holds root.relative || filter.excludes root.relative.relativeText then
        return ({}, d)
      else return ({ files := [{ relative := root.relative, size := bytes.size }] }, d)
    | .ok _ =>
      return Walk.gather (Walk.candidate? s t filter root.absolute) [] o.maxCount d
        (Walk.visited t root.absolute)

end Worksite
