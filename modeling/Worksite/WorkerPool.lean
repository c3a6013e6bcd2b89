import Worksite.Error

/-!
A pool of worker slots. A job holds one slot while it runs, and gives it back however it ends.
-/
namespace Worksite

structure WorkerPool where
  size : Nat
  held : Nat := 0
  deriving DecidableEq, Repr

namespace WorkerPool

/-- The most slots a pool can count. -/
def maxSize : Nat := (1 <<< 61) - 1

/-- A pool has at least one slot; none if there are more than can be counted. -/
def ofSize? (n : Nat) : Option WorkerPool :=
  if n ≤ maxSize then some { size := max n 1 } else none

def available (p : WorkerPool) : Nat := p.size - p.held

def acquire? (p : WorkerPool) : Option WorkerPool :=
  if p.held < p.size then some { p with held := p.held + 1 } else none

def release (p : WorkerPool) : WorkerPool := { p with held := p.held - 1 }

/-- Runs a job, which gives nothing when it breaks down. -/
def run {α : Type} (p : WorkerPool) (job : String) (result : Unit → Option α) :
    Except WorkspaceError α × WorkerPool :=
  match p.acquire? with
  | none => (.error (.internal "worker pool closed"), p)
  | some q =>
    match result () with
    | some a => (.ok a, q.release)
    | none => (.error (.internal (job ++ " worker failed")), q.release)

end WorkerPool

end Worksite
