import Worksite.Proofs.Service.Effect

/-!
The start of a service: its root is in place, and its policy is the given one with the policy file
denied.
-/
namespace Worksite.Service

open FileTree

variable {s : Service} {t : FileTree} {here : Location} {settings : Settings}
  {policy : WritePolicy} {i : IndexSnapshot}

/-- A policy with the policy file added as denied, where it is below the root. -/
def protect (policy : WritePolicy) (s : Sandbox) (t : FileTree) (path : String) : WritePolicy :=
  match policyFile? s t path with
  | some path => policy.deny (WritePolicy.prefixOf path)
  | none => policy

theorem ofPolicy_eq (settings : Settings) (policy : WritePolicy) (t : FileTree)
    (here : Location) : ofPolicy settings policy t here =
      (Sandbox.ofRoot t here settings.workspace.root).mapError .workspace >>= fun sandbox =>
        match WorkerPool.ofSize? settings.limits.workerThreads.toNat with
        | some pool =>
          let policy := protect policy sandbox t settings.workspace.policyFile
          .ok { settings, sandbox, policy, pool }
        | none => .error .tooManyWorkers := rfl

theorem ofPolicy_eq_ok : ofPolicy settings policy t here = .ok s ↔
    Sandbox.ofRoot t here settings.workspace.root = .ok s.sandbox ∧ s.settings = settings ∧
      s.policy = protect policy s.sandbox t settings.workspace.policyFile ∧
      WorkerPool.ofSize? settings.limits.workerThreads.toNat = some s.pool := by
  rw [ofPolicy_eq]
  constructor
  · intro h
    obtain ⟨sandbox, hs, h⟩ := bind_eq_ok.mp h
    split at h
    · next pool hp =>
      obtain rfl := Except.ok.inj h
      exact ⟨mapError_eq_ok.mp hs, rfl, rfl, hp⟩
    · simp at h
  · rintro ⟨hs, rfl, hp, hw⟩
    rw [mapError_eq_ok.mpr hs, ok_bind, hw]
    simp only [← hp]

/-- A start whose policy file has a place below the root. -/
theorem ofPolicy_of_resolve {p : Place}
    (hroot : Sandbox.ofRoot t here s.settings.workspace.root = .ok s.sandbox)
    (hbelow : Path.isAbsolute s.settings.workspace.policyFile = false)
    (hfile : s.sandbox.resolve t s.settings.workspace.policyFile = .ok p)
    (hpolicy : s.policy = policy.deny (WritePolicy.prefixOf p.relative.display))
    (hpool : WorkerPool.ofSize? s.settings.limits.workerThreads.toNat = some s.pool) :
    ofPolicy s.settings policy t here = .ok s := by
  refine ofPolicy_eq_ok.mpr ⟨hroot, rfl, ?_, hpool⟩
  simp only [protect, policyFile?, hbelow, Bool.false_eq_true, ↓reduceIte, hfile]
  exact hpolicy

theorem ofSettings_eq_ok : ofSettings settings t here = .ok s ↔
    ∃ policy, loadPolicy t here settings.workspace.policyPath = .ok policy ∧
      ofPolicy settings policy t here = .ok s := by
  unfold ofSettings
  simp only [bind_eq_ok, mapError_eq_ok]

theorem anchored_of_ofPolicy (hh : t.Canonical here)
    (h : ofPolicy settings policy t here = .ok s) : s.sandbox.Anchored t :=
  Sandbox.anchored_of_ofRoot hh (ofPolicy_eq_ok.mp h).1

/-- What a service comes to from its start is sound. -/
theorem run_sound (requests : List Request) (hc : t.Closed) (hh : t.Canonical here)
    (h : ofPolicy settings policy t here = .ok s) :
    s.sandbox.Anchored (s.run { tree := t, index := i } requests).tree ∧
      (s.run { tree := t, index := i } requests).tree.Closed := by
  obtain ⟨ha, hc, -⟩ := run_induction (P := fun _ => True) (w := { tree := t, index := i })
    requests (anchored_of_ofPolicy hh h) hc trivial fun _ _ _ _ _ _ _ => trivial
  exact ⟨ha, hc⟩

end Worksite.Service
