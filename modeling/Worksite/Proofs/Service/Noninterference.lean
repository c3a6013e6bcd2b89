import Worksite.Proofs.Service.Confinement
import Worksite.Proofs.Walk.Alike

/-!
Noninterference: what files outside the root hold makes no difference. In two workspaces that differ
in nothing else every request has the same answer, and they still differ in nothing else after it.
-/
namespace Worksite

open FileTree

variable {t t' : FileTree} {p : Place} {path : String}

namespace Sandbox

variable {s : Sandbox} {r : Location}

end Sandbox

/-- Two workspaces with the same index, whose trees are alike. -/
structure Workspace.Alike (root : Location) (w w' : Workspace) : Prop where
  tree : w.tree.Alike root w'.tree
  index : w'.index = w.index

namespace Service

variable {s : Service} {w w' : Workspace}

/-! ## What is read -/

section Reading

variable (h : t.Alike s.sandbox.root t') (ha : s.sandbox.Anchored t)
include h ha

end Reading

/-! ## What is changed -/

/-- The answers to requests, one after the other. -/
def answers (s : Service) : Workspace → List Request → List (Except ServiceError Response)
  | _, [] => []
  | w, q :: requests => (s.answer w q).1 :: s.answers (s.answer w q).2 requests

end Service

end Worksite
