import Worksite.FileTree.Change

/-!
Laying out a file tree item by item, with the directories that an item needs.
-/
namespace Worksite.FileTree

/-- What can be laid out at a path. -/
inductive Item where
  | file (bytes : ByteArray) (mode : Nat)
  | link (target : String)
  | directory
  /-- Whatever is there goes, with all below it. -/
  | nothing

/-- Where a file that is opened for writing at `l` comes to stand, behind up to `links` links. -/
def landing (t : FileTree) (l : Location) : Nat → Except SystemError Location
  | 0 => .error .tooManyLinks
  | links + 1 => do
    let p ← t.seat l
    match t.entry? p with
    | some (.link target) =>
      match Path.locate p.dropLast target with
      | some l => t.landing l links
      | none => .error .noEntry
    | _ => .ok p

def layEntry (t : FileTree) (l : Location) : Item → Except SystemError FileTree
  | .file bytes mode => do
    let p ← t.landing l (maxLinks + 1)
    if t.isDirectory p then .error .isDirectory else .ok (t.put p (.file bytes mode))
  | .link target => do
    let p ← t.seat l
    if target = "" then .error .noEntry
    else if (t.entry? p).isSome then .error .exists
    else .ok (t.put p (.link target))
  | .directory =>
    match t.makeDirectories l.reverse with
    | (.ok (), t) => .ok t
    | (.error e, _) => .error e
  | .nothing => do
    match ← t.find false l with
    | .directory => t.removeTree l
    | _ => t.remove l

/-- Lays out one item; the directories above it are made unless it is taken away. -/
def lay (t : FileTree) (l : Location) (item : Item) : Except SystemError Unit × FileTree :=
  let (made, t) : Except SystemError Unit × FileTree :=
    match item with
    | .nothing => (.ok (), t)
    | _ => t.makeDirectories l.dropLast.reverse
  match made with
  | .error e => (.error e, t)
  | .ok () =>
    match t.layEntry l item with
    | .ok t => (.ok (), t)
    | .error e => (.error e, t)

end Worksite.FileTree
