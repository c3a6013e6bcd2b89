import Worksite.FileTree.Lookup

/-!
Places: locations of the workspace that passed the checks of the sandbox.
-/
namespace Worksite

structure Place where
  absolute : Location
  /-- The names below the root; none for the root itself. -/
  relative : Location
  deriving DecidableEq, Repr

namespace Place

def isRoot (p : Place) : Bool := p.relative.isEmpty

/-- What a refusal of the system at this place means. -/
def systemError (p : Place) (e : SystemError) : WorkspaceError :=
  .ofSystem p.relative.relativeText e

def notFound (p : Place) (reason : String) : WorkspaceError :=
  .notFound p.relative.relativeText reason

end Place

end Worksite
