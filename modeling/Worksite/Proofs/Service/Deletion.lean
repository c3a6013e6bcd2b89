import Worksite.Proofs.Service.Start

/-!
Deletion: what the policy allows to be deleted may be deleted and written with all below it, so
that a delete takes nothing with it that the policy guards.
-/
namespace Worksite.Service

open FileTree

variable {s : Service} {w : Workspace} {x : Location}

/-- What a delete changes the policy allows to be changed in any way. -/
theorem authorize_of_deleted (ha : s.sandbox.Anchored w.tree) (hc : w.tree.Closed)
    (q : Request.Delete) (hx : entry? (s.perform w (.delete q)).2.tree x ≠ w.tree.entry? x) :
    ∃ r, x = s.sandbox.root ++ r ∧ ∀ operation, s.policy.authorize r operation = .ok () := by
  have heffect := effect_perform ha hc (.delete q)
  have hinside : s.Inside x := by
    by_contra hno
    exact hx (heffect.entry?_of_not_inside ha hno)
  obtain ⟨r, rfl⟩ := hinside.1
  refine ⟨r, rfl, fun operation => ?_⟩
  obtain ⟨o, ho, hchange⟩ := heffect.change hx
  obtain rfl : .delete = o := Option.some.inj ho
  cases hchange with
  | removed allowed before =>
    cases operation with
    | write => exact WritePolicy.authorize_write_of_delete allowed
    | delete => exact allowed

/-- What a policy allows to be deleted may be deleted and written with all below it, and no delete
takes anything with it for which that is not so. -/
theorem delete_closed_below :
    (∀ (p : WritePolicy) (l l' : Location) (operation : WriteOperation),
      p.authorize l .delete = .ok () → l <+: l' → p.authorize l' operation = .ok ()) ∧
    ∀ (s : Service) (w : Workspace) (q : Request.Delete) (x : Location),
      s.sandbox.Anchored w.tree → w.tree.Closed →
      entry? (s.perform w (.delete q)).2.tree x ≠ w.tree.entry? x →
        ∃ r, x = s.sandbox.root ++ r ∧ ∀ operation, s.policy.authorize r operation = .ok () := by
  refine ⟨fun p l l' operation h hl => ?_, fun s w q x ha hc hx => authorize_of_deleted ha hc q hx⟩
  cases operation with
  | write => exact WritePolicy.authorize_delete_iff.mp h l' hl
  | delete => exact WritePolicy.authorize_delete_below h hl

/-- A directory that may be deleted, beside a denied one. -/
def guarded : FileTree where
  entries := [(["ws"], .directory), (["ws", "src"], .directory),
    (["ws", "src", "old"], .directory), (["ws", "src", "old", "a"], .file "x".toUTF8 0o644),
    (["ws", "src", "gen"], .directory)]
  distinct := by decide

/-- The service on it. -/
def guardedService : Service where
  settings := { workspace := { root := "/ws" } }
  sandbox := { root := ["ws"] }
  policy := { allowed := [["src"]], denied := [["src", "gen"]] }
  pool := { size := 4 }

theorem perform_guarded : guardedService.perform { tree := guarded }
      (.delete { path := "src/old", recursive := true }) =
    (.ok (.deleted { ok := true, path := "src/old" }),
      { tree := guarded.eraseTree ["ws", "src", "old"] }) := by
  have hl : Path.locate ["ws"] "src/old" = some ["ws", "src", "old"] := by decide
  have hp : guardedService.sandbox.resolveEntry guarded "src/old" =
      .ok { absolute := ["ws", "src", "old"], relative := ["src", "old"] } := by
    rw [Sandbox.resolveEntry, show guardedService.sandbox.root = ["ws"] from rfl, hl]
    cbv
  simp only [perform, delete, hp]
  cbv

/-- The directory may be deleted, and what goes with it may be overwritten; the directory above
the denied one may not be deleted. -/
theorem delete_closed_below_guarded :
    guardedService.policy.authorize ["src", "old"] .delete = .ok () ∧
      guardedService.policy.authorize ["src", "old", "a"] .write = .ok () ∧
      (∃ r, ["ws", "src", "old", "a"] = ["ws"] ++ r ∧
        ∀ operation, guardedService.policy.authorize r operation = .ok ()) ∧
      guardedService.policy.authorize ["src"] .delete ≠ .ok () := by
  have hallowed : guardedService.policy.authorize ["src", "old"] .delete = .ok () := by decide
  have hanchored : guardedService.sandbox.Anchored guarded :=
    ⟨Closed.canonical (by decide) (by decide) ⟨.directory, rfl, by simp⟩, rfl⟩
  have hgone : entry? (guardedService.perform { tree := guarded }
      (.delete { path := "src/old", recursive := true })).2.tree ["ws", "src", "old", "a"] ≠
        guarded.entry? ["ws", "src", "old", "a"] := by
    rw [perform_guarded]
    exact Option.some_ne_none _ |>.symm
  exact ⟨hallowed, delete_closed_below.1 _ _ _ .write hallowed (by decide),
    delete_closed_below.2 _ _ _ _ hanchored (by decide) hgone, by decide⟩

end Worksite.Service
