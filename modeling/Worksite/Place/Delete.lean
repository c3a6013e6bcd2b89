import Worksite.Place
import Worksite.FileTree.Change

/-!
Deleting what stands at a place: the entry itself, so that a link goes and what it leads to stays.
-/
namespace Worksite.Place

/-- The change that removes an entry; only on demand does a directory go with what it holds. -/
def removal (p : Place) (t : FileTree) (recursive : Bool) : Entry → Except SystemError FileTree
  | .directory => if recursive then t.removeTree p.absolute else t.removeDirectory p.absolute
  | _ => t.remove p.absolute

def delete (p : Place) (t : FileTree) (recursive : Bool) : Except WorkspaceError FileTree :=
  if p.isRoot then
    .error (.policyDenied p.relative.relativeText "the workspace root cannot be deleted")
  else
    match t.find false p.absolute with
    | .error e => .error (p.systemError e)
    | .ok e =>
      match p.removal t recursive e with
      | .ok t => .ok t
      | .error .notEmpty =>
        .error (.invalidArgument
          (p.relative.display ++ " is not empty; pass recursive to delete it"))
      | .error e => .error (p.systemError e)

end Worksite.Place
