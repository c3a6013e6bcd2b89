import Worksite.FileTree.Lookup

/-!
Changes of a file tree, one system step each. A step that is refused changes nothing, except that
making a chain of directories keeps those it made.
-/
namespace Worksite.FileTree

def makeDirectory (t : FileTree) (l : Location) : Except SystemError FileTree := do
  let p ← t.seat l
  match t.entry? p with
  | some _ => .error .exists
  | none => .ok (t.put p .directory)

/-- Makes a directory with those above it that are missing. The names come last one first. -/
def makeDirectories (t : FileTree) : List String → Except SystemError Unit × FileTree
  | [] => (.ok (), t)
  | name :: above =>
    let l := (name :: above).reverse
    /- Something in the way is fine if it is a directory. -/
    let settled (t : FileTree) (e : SystemError) : Except SystemError Unit × FileTree :=
      if t.leadsToDirectory l then (.ok (), t) else (.error e, t)
    match t.makeDirectory l with
    | .ok t => (.ok (), t)
    | .error .noEntry =>
      match t.makeDirectories above with
      | (.error e, t) => (.error e, t)
      | (.ok (), t) =>
        match t.makeDirectory l with
        | .ok t => (.ok (), t)
        | .error e => settled t e
    | .error e => settled t e

/-- Makes a file that was not there. -/
def create (t : FileTree) (l : Location) (mode : Nat) : Except SystemError FileTree := do
  let p ← t.seat l
  match t.entry? p with
  | some _ => .error .exists
  | none => .ok (t.put p (.file .empty mode))

/-- Moves an entry that is no directory; what stood at the new place is replaced. -/
def rename (t : FileTree) (source target : Location) : Except SystemError FileTree := do
  let p ← t.seat source
  let q ← t.seat target
  match t.entry? p, t.entry? q with
  | none, _ => .error .noEntry
  | some _, some .directory => .error .isDirectory
  | some e, _ => .ok ((t.erase p).put q e)

/-- Removes an entry that is no directory. -/
def remove (t : FileTree) (l : Location) : Except SystemError FileTree := do
  let p ← t.seat l
  match t.entry? p with
  | none => .error .noEntry
  | some .directory => .error .isDirectory
  | some _ => .ok (t.erase p)

/-- Removes a directory that holds nothing. -/
def removeDirectory (t : FileTree) (l : Location) : Except SystemError FileTree := do
  let p ← t.seat l
  match t.entry? p with
  | some .directory => if (t.names p).isEmpty then .ok (t.erase p) else .error .notEmpty
  | some _ => .error .notDirectory
  | none => .error .noEntry

/-- Removes a directory with all it holds. -/
def removeTree (t : FileTree) (l : Location) : Except SystemError FileTree := do
  let p ← t.seat l
  match t.entry? p with
  | some .directory => .ok (t.eraseTree p)
  | some _ => .error .notDirectory
  | none => .error .noEntry

/-- A name of a passing file that is free in a directory. -/
def freshName (t : FileTree) (directory : Location) : String :=
  let taken := t.names directory
  let candidates := (List.range (taken.length + 1)).map fun n =>
    let digits := toString n
    ".tmp" ++ String.ofList (List.replicate (6 - digits.length) '0') ++ digits
  (candidates.find? (· ∉ taken)).getD ".tmp"

end Worksite.FileTree
