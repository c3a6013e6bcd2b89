import Worksite.Proofs.Service.Atomicity
import Worksite.Proofs.Service.Start
import Worksite.Proofs.WorkerPool

/-!
Accepted settings. Each of their limits is checked to be at least one; above, any number passes. A
start over a root that is there depends on nothing else but whether the workers can be counted.
-/
namespace Worksite

/-- What settings must be to be accepted. -/
structure Settings.Accepted (s : Settings) : Prop where
  name : Text.trim s.workspace.name.toList ≠ []
  root : s.workspace.root ≠ ""
  socketPath : s.daemon.socketPath ≠ ""
  counts : ∀ x ∈ s.limits.counts, x.2 ≠ 0

theorem Settings.validate_eq_ok {s : Settings} : s.validate = .ok () ↔ s.Accepted := by
  unfold validate
  split_ifs with hname hroot hsocket
  · exact iff_of_false (by simp) fun h => h.name hname
  · exact iff_of_false (by simp) fun h => h.root hroot
  · exact iff_of_false (by simp) fun h => h.socketPath hsocket
  · split
    · next name n hfound =>
      refine iff_of_false (by simp) fun h => ?_
      exact h.counts _ (List.mem_of_find?_eq_some hfound) (by simpa using List.find?_some hfound)
    · next hnone =>
      refine iff_of_true rfl ⟨hname, hroot, hsocket, fun x hx => ?_⟩
      simpa using List.find?_eq_none.mp hnone x hx

theorem Settings.Accepted.workers_pos {s : Settings} (h : s.Accepted) :
    0 < s.limits.workerThreads.toNat := by
  have hmem : ("limits.worker_threads", s.limits.workerThreads) ∈ s.limits.counts := by
    simp [Limits.counts]
  refine Nat.pos_of_ne_zero fun hzero => h.counts _ hmem ?_
  exact UInt64.toNat_inj.mp hzero

namespace Service

variable {t : FileTree} {here l : Location} {settings : Settings}

theorem ofPolicy_of_counted (policy : WritePolicy)
    (hroot : Sandbox.ofRoot t here settings.workspace.root = .ok { root := l })
    (hpos : 0 < settings.limits.workerThreads.toNat)
    (hworkers : settings.limits.workerThreads.toNat ≤ WorkerPool.maxSize) :
    ofPolicy settings policy t here =
      .ok { settings, sandbox := { root := l }
            policy := protect policy { root := l } t settings.workspace.policyFile
            pool := { size := settings.limits.workerThreads.toNat } } := by
  have hpool := WorkerPool.ofSize?_eq_some.mpr ⟨hworkers, rfl⟩
  rw [Nat.max_eq_left hpos] at hpool
  exact ofPolicy_eq_ok.mpr ⟨hroot, rfl, rfl, hpool⟩

theorem ofPolicy_of_uncounted (policy : WritePolicy)
    (hroot : Sandbox.ofRoot t here settings.workspace.root = .ok { root := l })
    (hworkers : WorkerPool.maxSize < settings.limits.workerThreads.toNat) :
    ofPolicy settings policy t here = .error .tooManyWorkers := by
  rw [ofPolicy_eq, mapError_eq_ok.mpr hroot, ok_bind, WorkerPool.ofSize?_eq_none.mpr hworkers]

/-- With accepted settings and a root that is a directory, under whatever policy: a service starts,
at that root and with an idle slot for each worker, if and only if the workers can be counted; if
they cannot, that is what the start breaks down at. -/
theorem starts_iff (hvalid : settings.validate = .ok ())
    (hroot : t.canonicalText here settings.workspace.root = .ok l) (hdir : t.isDirectory l)
    (policy : WritePolicy) :
    ((∃ s, ofPolicy settings policy t here = .ok s ∧ s.settings = settings ∧
        s.sandbox.root = l ∧ s.pool.size = settings.limits.workerThreads.toNat ∧
        s.pool.available = settings.limits.workerThreads.toNat) ↔
      settings.limits.workerThreads.toNat ≤ WorkerPool.maxSize) ∧
    (ofPolicy settings policy t here = .error .tooManyWorkers ↔
      WorkerPool.maxSize < settings.limits.workerThreads.toNat) := by
  have hpos := (Settings.validate_eq_ok.mp hvalid).workers_pos
  have hsandbox : Sandbox.ofRoot t here settings.workspace.root = .ok { root := l } := by
    simp [Sandbox.ofRoot, hroot, hdir]
  rcases Nat.lt_or_ge WorkerPool.maxSize settings.limits.workerThreads.toNat with h | h
  · have hbroken := ofPolicy_of_uncounted policy hsandbox h
    exact ⟨iff_of_false (by simp [hbroken]) (Nat.not_le_of_lt h), iff_of_true hbroken h⟩
  · have hstarted := ofPolicy_of_counted policy hsandbox hpos h
    exact ⟨iff_of_true ⟨_, hstarted, rfl, rfl, rfl, rfl⟩ h,
      iff_of_false (by simp [hstarted]) (Nat.not_lt_of_ge h)⟩

/-- Settings over the root `/ws` with a number of workers. -/
def withWorkers (n : UInt64) : Settings where
  workspace := { root := "/ws" }
  limits := { workerThreads := n }

/-- As many workers as can be counted. -/
theorem starts_iff_most :
    (withWorkers 2305843009213693951).validate = .ok () ∧
      bare.canonicalText [] "/ws" = .ok ["ws"] ∧ bare.isDirectory ["ws"] ∧
      ∃ s, ofPolicy (withWorkers 2305843009213693951) {} bare [] = .ok s ∧
        s.pool.available = 2305843009213693951 := by
  have hvalid : (withWorkers 2305843009213693951).validate = .ok () := by decide
  have hroot : bare.canonicalText [] "/ws" = .ok ["ws"] := by cbv
  have hdir : bare.isDirectory ["ws"] := by decide
  obtain ⟨hstarts, -⟩ := starts_iff hvalid hroot hdir {}
  obtain ⟨s, hs, -, -, -, havailable⟩ := hstarts.mpr (by decide)
  exact ⟨hvalid, hroot, hdir, s, hs, havailable⟩

/-- One worker more is accepted, and no service starts. -/
theorem accepted_breaks_down :
    (withWorkers 2305843009213693952).validate = .ok () ∧
      bare.canonicalText [] "/ws" = .ok ["ws"] ∧ bare.isDirectory ["ws"] ∧
      ofPolicy (withWorkers 2305843009213693952) {} bare [] = .error .tooManyWorkers := by
  have hroot : Sandbox.ofRoot bare [] "/ws" = .ok { root := ["ws"] } := by cbv
  exact ⟨by decide, by cbv, by decide, ofPolicy_of_uncounted {} hroot (by decide)⟩

end Service

end Worksite
