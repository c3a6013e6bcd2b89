import Worksite.Proofs.Service.Start

/-!
Confinement: whatever is asked of a service, nothing outside its root changes.
-/
namespace Worksite.Service

open FileTree

variable {s : Service} {t : FileTree} {here x : Location} {settings : Settings}
  {policy : WritePolicy} {i : IndexSnapshot}

/-- No run of requests changes anything but what is strictly below the root. -/
theorem run_entry?_of_not_inside {w : Workspace} (requests : List Request)
    (ha : s.sandbox.Anchored w.tree) (hc : w.tree.Closed) (hx : ¬ s.Inside x) :
    (s.run w requests).tree.entry? x = w.tree.entry? x := by
  have h := run_induction (P := fun t => t.entry? x = w.tree.entry? x) requests ha hc rfl ?_
  · exact h.2.2
  · intro t o t' ha _ hsame he
    rw [he.entry?_of_not_inside ha hx, hsame]

/-- Whatever is asked of a service, the entries outside its root are those at its start. -/
theorem run_confined (requests : List Request) (hc : t.Closed) (hh : t.Canonical here)
    (h : ofPolicy settings policy t here = .ok s) (hx : ¬ s.sandbox.root <+: x) :
    (s.run { tree := t, index := i } requests).tree.entry? x = t.entry? x :=
  run_entry?_of_not_inside requests (anchored_of_ofPolicy hh h) hc fun hin => hx hin.1

/-- A workspace with a link that leads out of it. -/
def outward : FileTree where
  entries := [(["ws"], .directory), (["secret"], .file "key".toUTF8 0o600),
    (["ws", "out"], .link "../secret")]
  distinct := by decide

/-- The service on it, with backups. -/
def outwardService : Service where
  settings := { workspace := { root := "/ws" } }
  sandbox := { root := ["ws"] }
  policy := { denied := [[".burrow", "policy.toml"]], backupOnWrite := true }
  pool := { size := 4 }

theorem ofPolicy_outward : ofPolicy { workspace := { root := "/ws" } } { backupOnWrite := true }
    outward [] = .ok outwardService := by
  have hp : outwardService.sandbox.resolve outward ".burrow/policy.toml" =
      .ok {
        absolute := ["ws", ".burrow", "policy.toml"]
        relative := [".burrow", "policy.toml"] } := by
    have hl : Path.locate outwardService.sandbox.root ".burrow/policy.toml" =
        some ["ws", ".burrow", "policy.toml"] := by
      decide
    rw [Sandbox.resolve_of_locate hl]
    cbv
  exact ofPolicy_of_resolve (by cbv) rfl hp (by decide) rfl

theorem run_confined_outward :
    entry? (outwardService.run { tree := outward } [
        .writeFile { path := "out", content := "new" }, .delete { path := "out" },
        .writeFile { path := "out", content := "new" }]).tree ["secret"] =
      some (.file "key".toUTF8 0o600) :=
  run_confined _ (by decide) (canonical_nil outward) ofPolicy_outward (by decide)

end Worksite.Service
