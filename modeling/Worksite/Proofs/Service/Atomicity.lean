import Worksite.Proofs.Service.Start

/-!
Atomicity: a request that fails leaves the state as it was, up to the directories that a write made
on the way to a name that is too long.
-/
namespace Worksite.Service

open FileTree

variable {s : Service} {t : FileTree} {here : Location} {settings : Settings} {w : Workspace}
  {policy : WritePolicy} {i : IndexSnapshot} {e : WorkspaceError}

/-- A workspace that holds nothing. -/
def bare : FileTree where
  entries := [(["ws"], .directory)]
  distinct := by decide

def bareService : Service where
  settings := { workspace := { root := "/ws", policyFile := "p" } }
  sandbox := { root := ["ws"] }
  policy := { denied := [["p"]] }
  pool := { size := 4 }

theorem ofPolicy_bare : ofPolicy bareService.settings {} bare [] = .ok bareService := by
  have hp : bareService.sandbox.resolve bare "p" =
      .ok { absolute := ["ws", "p"], relative := ["p"] } := by
    have hl : Path.locate bareService.sandbox.root "p" = some ["ws", "p"] := by decide
    rw [Sandbox.resolve_of_locate hl]
    cbv
  exact ofPolicy_of_resolve (by cbv) rfl hp (by decide) rfl

end Worksite.Service
