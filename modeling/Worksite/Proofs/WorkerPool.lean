import Mathlib
import Worksite.WorkerPool

/-!
The worker pool under interleaving. Any number of jobs are submitted to one pool, each by a caller
that waits for the answer and may give up at any moment, and one job after the other takes a turn,
in any order. A job that breaks down unwinds, so that its slot comes back as from one that returns.
Slots are only counted by the pool; that each count stands for a job that has a slot is what every
turn keeps.
-/
namespace Worksite.WorkerPool

variable {α : Type} {n j : Nat} {p q : WorkerPool}

/-! ## Slots -/

theorem ofSize?_eq_some : ofSize? n = some p ↔ n ≤ maxSize ∧ p = { size := max n 1 } := by
  unfold ofSize?
  split_ifs with h <;> simp [h, eq_comm]

theorem ofSize?_eq_none : ofSize? n = none ↔ maxSize < n := by
  unfold ofSize?
  split_ifs with h <;> simp [h, Nat.lt_of_not_le]

theorem acquire?_eq_some :
    p.acquire? = some q ↔ p.held < p.size ∧ q = { p with held := p.held + 1 } := by
  unfold acquire?
  split_ifs with h <;> simp [h, eq_comm]

/-! ## Jobs -/

/-- Where a job stands. -/
inductive Stage (α : Type) where
  /-- In line for a slot. -/
  | waiting
  /-- A slot is set aside for it, which its caller has still to take up. -/
  | granted
  /-- Handed over with its slot, and to begin as soon as there is a thread. -/
  | dispatched
  | running
  /-- What it returned, or nothing if it broke down. -/
  | ended (result : Option α)
  /-- Ended, and its caller knows. -/
  | told (result : Option α)
  /-- Given up before it was handed over. -/
  | dropped

namespace Stage

/-- Whether a job in a stage has a slot. -/
def holdsSlot : Stage α → Bool
  | granted | dispatched | running => true
  | waiting | ended _ | told _ | dropped => false

def isRunning : Stage α → Bool
  | running => true
  | waiting | granted | dispatched | ended _ | told _ | dropped => false

/-- Whether a job neither waits nor runs. -/
def isOver : Stage α → Bool
  | ended _ | told _ | dropped => true
  | waiting | granted | dispatched | running => false

end Stage

/-- A job that was submitted, and whether its caller has not given up. -/
structure Task (α : Type) where
  name : String
  stage : Stage α := .waiting
  attended : Bool := true

/-- What becomes known of a job. -/
inductive Notice (α : Type) where
  | began
  | answered (answer : Except WorkspaceError α)

/-- What a caller is told of a job that came to a result. -/
def answerOf (name : String) : Option α → Except WorkspaceError α
  | some a => .ok a
  | none => .error (.internal (name ++ " worker failed"))

theorem run_eq (p : WorkerPool) (name : String) (result : Unit → Option α) :
    p.run name result =
      match p.acquire? with
      | none => (.error (.internal "worker pool closed"), p)
      | some q => (answerOf name (result ()), q.release) := by
  unfold run
  cases p.acquire? with
  | none => rfl
  | some q => cases result () <;> rfl

/-! ## Turns -/

/-- What a job or its caller may do next, and what that does to the pool. -/
inductive Turn : WorkerPool → Task α → Option (Notice α) → WorkerPool → Task α → Prop where
  | grant {p q : WorkerPool} {x : Task α} :
      x.stage = .waiting → p.acquire? = some q → Turn p x none q { x with stage := .granted }
  | dispatch {p : WorkerPool} {x : Task α} :
      x.stage = .granted → Turn p x none p { x with stage := .dispatched }
  | begin {p : WorkerPool} {x : Task α} :
      x.stage = .dispatched → Turn p x (some .began) p { x with stage := .running }
  | finish {p : WorkerPool} {x : Task α} (result : Option α) :
      x.stage = .running → Turn p x none p.release { x with stage := .ended result }
  | answer {p : WorkerPool} {x : Task α} {result : Option α} :
      x.stage = .ended result → x.attended →
        Turn p x (some (.answered (answerOf x.name result))) p { x with stage := .told result }
  /-- A caller gives up in line. -/
  | quit {p : WorkerPool} {x : Task α} :
      x.stage = .waiting → Turn p x none p { x with stage := .dropped, attended := false }
  /-- A caller gives up when a slot is set aside for it, which goes back. -/
  | forgo {p : WorkerPool} {x : Task α} :
      x.stage = .granted → Turn p x none p.release { x with stage := .dropped, attended := false }
  /-- A caller gives up on a job that was handed over, which does not stop it. -/
  | leave {p : WorkerPool} {x : Task α} :
      x.stage = .dispatched ∨ x.stage = .running ∨ (∃ result, x.stage = .ended result) →
        Turn p x none p { x with attended := false }

/-- A pool with the jobs that were submitted to it. -/
structure Workshop (α : Type) where
  pool : WorkerPool
  tasks : List (Task α) := []

namespace Workshop

/-- How many jobs have a slot. -/
def held (w : Workshop α) : Nat := w.tasks.countP (·.stage.holdsSlot)

/-- How many jobs run. -/
def running (w : Workshop α) : Nat := w.tasks.countP (·.stage.isRunning)

end Workshop

/-- A job is submitted, or one of those that were submitted takes a turn. -/
inductive Step : Workshop α → Option (Nat × Notice α) → Workshop α → Prop where
  | submit {w : Workshop α} (name : String) :
      Step w none { w with tasks := w.tasks ++ [{ name }] }
  | turn {w : Workshop α} {j : Nat} {x y : Task α} {q : WorkerPool} {notice : Option (Notice α)} :
      w.tasks[j]? = some x → Turn w.pool x notice q y →
        Step w (notice.map (j, ·)) { pool := q, tasks := w.tasks.set j y }

/-- Steps one after the other, and what becomes known in them of which job. -/
inductive Steps : Workshop α → List (Nat × Notice α) → Workshop α → Prop where
  | refl (w : Workshop α) : Steps w [] w
  | step {w w' w'' : Workshop α} {log : List (Nat × Notice α)}
      {event : Option (Nat × Notice α)} :
      Steps w log w' → Step w' event w'' → Steps w (log ++ event.toList) w''

variable {w w' : Workshop α} {x y : Task α} {notice : Option (Notice α)}
  {event : Option (Nat × Notice α)} {log : List (Nat × Notice α)}

/-! ## Slots are counted -/

/-- The slots that are counted are those that jobs have, and there are no more than the size. -/
structure Workshop.Sound (w : Workshop α) : Prop where
  counted : w.pool.held = w.held
  bounded : w.pool.held ≤ w.pool.size

/-- A turn counts one slot more or less just as its job gets or gives back one. -/
theorem Turn.counts (h : Turn p x notice q y) (hx : x.stage.holdsSlot → 0 < p.held)
    (hp : p.held ≤ p.size) :
    q.held + x.stage.holdsSlot.toNat = p.held + y.stage.holdsSlot.toNat ∧ q.held ≤ q.size ∧
      q.size = p.size := by
  cases h with
  | grant hs hq =>
    obtain ⟨hlt, rfl⟩ := acquire?_eq_some.mp hq
    exact ⟨by simp [hs, Stage.holdsSlot], hlt, rfl⟩
  | dispatch hs | begin hs => simp [hs, Stage.holdsSlot, hp]
  | finish result hs | forgo hs =>
    have hpos := hx (by rw [hs]; rfl)
    refine ⟨?_, (Nat.sub_le ..).trans hp, rfl⟩
    simp only [hs, Stage.holdsSlot, release, Bool.toNat_true, Bool.toNat_false]
    omega
  | answer hs _ => simp [hs, Stage.holdsSlot, hp]
  | quit hs => simp [hs, Stage.holdsSlot, hp]
  | leave _ => exact ⟨rfl, hp, rfl⟩

/-- What a turn of one job makes of a sum over all. -/
theorem sum_map_set_add {l : List (Task α)} (f : Task α → Nat) (hj : l[j]? = some x) :
    ((l.set j y).map f).sum + f x = (l.map f).sum + f y := by
  induction l generalizing j with
  | nil => simp at hj
  | cons z l ih =>
    cases j with
    | zero =>
      obtain rfl : z = x := by simpa using hj
      simp only [List.set_cons_zero, List.map_cons, List.sum_cons]
      omega
    | succ j =>
      have hrest := ih (j := j) (by simpa using hj)
      simp only [List.set_cons_succ, List.map_cons, List.sum_cons]
      omega

theorem countP_eq_sum (f : Task α → Bool) (l : List (Task α)) :
    l.countP f = (l.map fun x => (f x).toNat).sum := by
  induction l with
  | nil => rfl
  | cons x l ih => cases hx : f x <;> simp [hx, ih, Nat.add_comm]

theorem Workshop.Sound.step (h : w.Sound) (hstep : Step w event w') :
    w'.Sound ∧ w'.pool.size = w.pool.size := by
  cases hstep with
  | submit name =>
    refine ⟨⟨?_, h.bounded⟩, rfl⟩
    simp [Workshop.held, h.counted, Stage.holdsSlot]
  | @turn j x y q notice hj hturn =>
    have hpos : x.stage.holdsSlot → 0 < w.pool.held := by
      intro hx
      rw [h.counted]
      exact List.countP_pos_iff.mpr ⟨x, List.mem_of_getElem? hj, hx⟩
    obtain ⟨hcount, hbound, hsize⟩ := hturn.counts hpos h.bounded
    have hset := sum_map_set_add (y := y) (fun x => x.stage.holdsSlot.toNat) hj
    have hheld := h.counted
    refine ⟨⟨?_, hbound⟩, hsize⟩
    simp only [Workshop.held, countP_eq_sum] at hheld ⊢
    omega

theorem sound_initial (p : WorkerPool) (hp : p.held = 0) :
    ({ pool := p } : Workshop α).Sound where
  counted := hp
  bounded := hp ▸ Nat.zero_le _

theorem Steps.sound (h : Steps w log w') (hw : w.Sound) :
    w'.Sound ∧ w'.pool.size = w.pool.size := by
  induction h with
  | refl => exact ⟨hw, rfl⟩
  | step _ hstep ih =>
    obtain ⟨hs, hsize⟩ := ih.1.step hstep
    exact ⟨hs, hsize.trans ih.2⟩

theorem Workshop.running_le_held (w : Workshop α) : w.running ≤ w.held := by
  refine List.countP_mono_left fun x _ hx => ?_
  cases hs : x.stage with
  | running => rfl
  | _ => simp [hs, Stage.isRunning] at hx

theorem Workshop.held_of_over (h : ∀ x ∈ w.tasks, x.stage.isOver) : w.held = 0 := by
  refine List.countP_eq_zero.mpr fun x hx => ?_
  have hover := h x hx
  cases hs : x.stage with
  | ended _ | told _ | dropped => simp [Stage.holdsSlot]
  | _ => simp [hs, Stage.isOver] at hover

/-! ## What becomes known of a job -/

/-- What is known of a job that stands where it does. -/
def Task.notices (x : Task α) : List (Notice α) :=
  match x.stage with
  | .waiting | .granted | .dispatched | .dropped => []
  | .running | .ended _ => [.began]
  | .told result => [.began, .answered (answerOf x.name result)]

/-- What became known of a job, in order. -/
def noticesOf (j : Nat) (log : List (Nat × Notice α)) : List (Notice α) :=
  (log.filter (·.1 = j)).map Prod.snd

/-- The jobs that began, in order. -/
def begun (log : List (Nat × Notice α)) : List Nat :=
  log.filterMap fun
    | (j, .began) => some j
    | (_, .answered _) => none

theorem Turn.notices (h : Turn p x notice q y) : y.notices = x.notices ++ notice.toList := by
  cases h with
  | grant hs | dispatch hs | begin hs | finish _ hs | answer hs | quit hs | forgo hs =>
    simp [Task.notices, hs]
  | leave hs => simp [Task.notices]

theorem noticesOf_append (a b : List (Nat × Notice α)) :
    noticesOf j (a ++ b) = noticesOf j a ++ noticesOf j b := by
  simp [noticesOf]

theorem mem_noticesOf {e : Notice α} : e ∈ noticesOf j log ↔ (j, e) ∈ log := by
  simp [noticesOf]

/-- Of each job that is known which its stage tells, and of no other job anything. -/
def Workshop.Fits (w : Workshop α) (log : List (Nat × Notice α)) : Prop :=
  ∀ j, noticesOf j log = (w.tasks[j]?.map Task.notices).getD []

theorem Workshop.Fits.step (h : w.Fits log) (hstep : Step w event w') :
    w'.Fits (log ++ event.toList) := by
  intro i
  rw [noticesOf_append, h i]
  cases hstep with
  | submit name =>
    -- of a new job nothing is known
    by_cases hi : i < w.tasks.length
    · rw [List.getElem?_append_left hi]
      exact List.append_nil _
    · rw [List.getElem?_append_right (Nat.le_of_not_lt hi),
        List.getElem?_eq_none (Nat.le_of_not_lt hi)]
      cases i - w.tasks.length <;> rfl
  | @turn j x y q notice hj hturn =>
    by_cases hij : i = j
    · subst hij
      have hlt := (List.getElem?_eq_some_iff.mp hj).1
      have hown : noticesOf i (notice.map (i, ·)).toList = notice.toList := by
        cases notice <;> simp [noticesOf]
      rw [List.getElem?_set_self hlt, hj, hown]
      exact hturn.notices.symm
    · have hother : noticesOf i (notice.map (j, ·)).toList = [] := by
        cases notice <;> simp [noticesOf, Ne.symm hij]
      rw [List.getElem?_set_ne (Ne.symm hij), hother, List.append_nil]

theorem Steps.fits (h : Steps { pool := p } log w) : w.Fits log := by
  induction h with
  | refl => exact fun _ => rfl
  | step _ hstep ih => exact ih.step hstep

theorem count_begun (log : List (Nat × Notice α)) (j : Nat) :
    (begun log).count j = (noticesOf j log).countP fun
      | .began => true
      | .answered _ => false := by
  induction log with
  | nil => rfl
  | cons event log ih =>
    obtain ⟨i, _ | a⟩ := event
    · by_cases hij : i = j <;> simp_all [begun, noticesOf]
    · by_cases hij : i = j <;> simp_all [begun, noticesOf]

/-- A job begins once at most. -/
theorem Workshop.Fits.nodup_begun (h : w.Fits log) : (begun log).Nodup := by
  refine List.nodup_iff_count_le_one.mpr fun j => ?_
  rw [count_begun, h j]
  cases w.tasks[j]? with
  | none => exact Nat.zero_le _
  | some x =>
    obtain ⟨name, stage, attended⟩ := x
    cases stage <;> simp [Task.notices]

/-- Who is told of a job is told what it came to. -/
theorem Workshop.Fits.answered_iff (h : w.Fits log) {a : Except WorkspaceError α} :
    (j, .answered a) ∈ log ↔
      ∃ x result, w.tasks[j]? = some x ∧ x.stage = .told result ∧ a = answerOf x.name result := by
  rw [← mem_noticesOf, h j]
  cases w.tasks[j]? with
  | none => simp
  | some x =>
    obtain ⟨name, stage, attended⟩ := x
    cases stage <;> simp [Task.notices]

/-! ## All steps -/

/-- However jobs and callers interleave: no more jobs run than the pool has slots, of which it has
one at least; the slots that are free and those that jobs have make up the size. A job begins once
at most. A caller is told what the job came to, and that is an internal error for one that broke
down, unless the caller gives up. When no job waits or runs, all slots are free again. -/
theorem steps_bounded (hp : ofSize? n = some p) (h : Steps { pool := p } log w) :
    w.running ≤ w.pool.size ∧ w.pool.available + w.held = w.pool.size ∧
      w.pool.size = max n 1 ∧ (begun log).Nodup ∧
      (∀ j a, (j, .answered a) ∈ log → ∃ x result, w.tasks[j]? = some x ∧
        x.stage = .told result ∧ a = answerOf x.name result) ∧
      (∀ j x, w.tasks[j]? = some x →
        let failure : Notice α := .answered (.error (.internal (x.name ++ " worker failed")))
        (x.stage = .told none → (j, failure) ∈ log) ∧
        (x.stage = .ended none → x.attended → ∃ w', Step w (some (j, failure)) w')) ∧
      ((∀ x ∈ w.tasks, x.stage.isOver) → w.pool.available = w.pool.size) := by
  obtain ⟨-, rfl⟩ := ofSize?_eq_some.mp hp
  obtain ⟨hsound, hsize⟩ := h.sound (sound_initial _ rfl)
  have hheld : w.held ≤ w.pool.size := hsound.counted ▸ hsound.bounded
  have havailable : w.pool.available + w.held = w.pool.size := by
    rw [available, hsound.counted, Nat.sub_add_cancel hheld]
  refine ⟨w.running_le_held.trans hheld, havailable, hsize, h.fits.nodup_begun,
    fun j a => h.fits.answered_iff.mp, fun j x hj => ⟨fun hs => ?_, fun hs hattended => ?_⟩,
    fun hover => ?_⟩
  · exact h.fits.answered_iff.mpr ⟨x, none, hj, hs, rfl⟩
  · exact ⟨_, .turn hj (.answer hs hattended)⟩
  · rw [Workshop.held_of_over hover] at havailable
    exact havailable

/-- One slot and two jobs. The first one has it and breaks down; when the slot is set aside for the
second one, its caller gives up. -/
theorem steps_bounded_broken :
    ofSize? 1 = some { size := 1 } ∧
      ∃ w, Steps ({ pool := { size := 1 } } : Workshop Nat)
        [(0, .began), (0, .answered (.error (.internal "scan worker failed")))] w ∧
        (∀ x ∈ w.tasks, x.stage.isOver) ∧ w.pool.available = 1 := by
  have hp : ofSize? 1 = some { size := 1 } := by decide
  have h₁ := (Steps.refl ({ pool := { size := 1 } } : Workshop Nat)).step (.submit "scan")
  have h₂ := h₁.step (.submit "list")
  have h₃ := h₂.step (.turn (j := 0) rfl (.grant rfl rfl))
  have h₄ := h₃.step (.turn (j := 0) rfl (.dispatch rfl))
  have h₅ := h₄.step (.turn (j := 0) rfl (.begin rfl))
  have h₆ := h₅.step (.turn (j := 0) rfl (.finish none rfl))
  have h₇ := h₆.step (.turn (j := 1) rfl (.grant rfl rfl))
  have h₈ := h₇.step (.turn (j := 1) rfl (.forgo rfl))
  have h₉ := h₈.step (.turn (j := 0) rfl (.answer rfl rfl))
  obtain ⟨-, -, -, -, -, -, hrest⟩ := steps_bounded hp h₉
  have hover := hrest (by decide)
  exact ⟨hp, _, h₉, by decide, hover⟩

/-! ## Jobs come to their end -/

theorem Step.last {l : List (Task α)} (h : Turn p x notice q y) :
    Step { pool := p, tasks := l ++ [x] } (notice.map (l.length, ·))
      { pool := q, tasks := l ++ [y] } := by
  have hset : (l ++ [x]).set l.length y = l ++ [y] := by simp
  rw [← hset]
  exact .turn (w := { pool := p, tasks := l ++ [x] }) (by simp) h

/-- How many turns are left of a job. -/
def Stage.left : Stage α → Nat
  | .waiting => 4
  | .granted => 3
  | .dispatched => 2
  | .running => 1
  | .ended _ | .told _ | .dropped => 0

def Workshop.left (w : Workshop α) : Nat := (w.tasks.map (·.stage.left)).sum

/-- Some job that is not over can go on: one that has a slot, or else, as all slots are free then,
one that waits. -/
theorem Workshop.Sound.exists_step (h : w.Sound) (hsize : 0 < w.pool.size) (hx : x ∈ w.tasks)
    (hopen : x.stage.isOver = false) :
    ∃ event w', Step w event w' ∧ w'.left < w.left ∧ w'.tasks.length = w.tasks.length := by
  have hturn {j : Nat} {x y : Task α} {notice : Option (Notice α)} {q : WorkerPool}
      (hj : w.tasks[j]? = some x) (ht : Turn w.pool x notice q y)
      (hlt : y.stage.left < x.stage.left) :
      ∃ event w', Step w event w' ∧ w'.left < w.left ∧ w'.tasks.length = w.tasks.length := by
    have hsum := sum_map_set_add (y := y) (·.stage.left) hj
    refine ⟨_, _, .turn hj ht, ?_, List.length_set⟩
    simp only [Workshop.left] at hsum ⊢
    omega
  by_cases hslot : ∃ x ∈ w.tasks, x.stage.holdsSlot
  · obtain ⟨x, hx, hslot⟩ := hslot
    obtain ⟨j, hj⟩ := List.mem_iff_getElem?.mp hx
    cases hs : x.stage with
    | granted => exact hturn hj (.dispatch hs) (by simp [hs, Stage.left])
    | dispatched => exact hturn hj (.begin hs) (by simp [hs, Stage.left])
    | running => exact hturn hj (.finish none hs) (by simp [hs, Stage.left])
    | _ => simp [hs, Stage.holdsSlot] at hslot
  · push Not at hslot
    obtain ⟨j, hj⟩ := List.mem_iff_getElem?.mp hx
    have hfree : w.pool.held < w.pool.size := by
      rw [h.counted, Workshop.held, List.countP_eq_zero.mpr hslot]
      exact hsize
    have hs : x.stage = .waiting := by
      have hnone := hslot x hx
      cases hs : x.stage <;> simp_all [Stage.holdsSlot, Stage.isOver]
    exact hturn hj (.grant hs (acquire?_eq_some.mpr ⟨hfree, rfl⟩)) (by simp [hs, Stage.left])

/-- No job is stuck for a slot: whatever happened, the jobs can come to their end without any new
ones, and all slots are free then. -/
theorem Steps.exists_rest (h : Steps w log w') (hs : w'.Sound) (hsize : 0 < w'.pool.size) :
    ∃ more u, Steps w (log ++ more) u ∧ u.tasks.length = w'.tasks.length ∧
      (∀ x ∈ u.tasks, x.stage.isOver) ∧ u.pool.available = w'.pool.size := by
  induction hleft : w'.left using Nat.strong_induction_on generalizing w' log with
  | _ k ih =>
    by_cases hover : ∀ x ∈ w'.tasks, x.stage.isOver
    · refine ⟨[], w', (List.append_nil log).symm ▸ h, rfl, hover, ?_⟩
      rw [available, hs.counted, Workshop.held_of_over hover, Nat.sub_zero]
    · push Not at hover
      obtain ⟨x, hx, hopen⟩ := hover
      obtain ⟨event, u, hstep, hless, hlength⟩ :=
        hs.exists_step hsize hx (Bool.not_eq_true _ ▸ hopen)
      obtain ⟨hsound, hsame⟩ := hs.step hstep
      obtain ⟨more, v, hv, hvlength, hvover, hfree⟩ :=
        ih u.left (hleft ▸ hless) (h.step hstep) hsound (hsame ▸ hsize) rfl
      refine ⟨event.toList ++ more, v, ?_, hvlength.trans hlength, hvover, hfree.trans hsame⟩
      rw [← List.append_assoc]
      exact hv

/-- A job that nobody interrupts, and that finds a slot, comes to what a run of it comes to. -/
theorem steps_of_run (name : String) (result : Unit → Option α)
    (hfree : w.pool.held < w.pool.size) :
    ∃ w', Steps w [(w.tasks.length, .began),
        (w.tasks.length, .answered (w.pool.run name result).1)] w' ∧
      w'.pool = (w.pool.run name result).2 := by
  obtain ⟨q, hq⟩ : ∃ q, w.pool.acquire? = some q := ⟨_, acquire?_eq_some.mpr ⟨hfree, rfl⟩⟩
  rw [run_eq, hq]
  have hsubmitted := (Steps.refl w).step (.submit name)
  have hgranted := hsubmitted.step (.last (.grant rfl hq))
  have hdispatched := hgranted.step (.last (.dispatch rfl))
  have hrunning := hdispatched.step (.last (.begin rfl))
  have hended := hrunning.step (.last (.finish (result ()) rfl))
  exact ⟨_, hended.step (.last (.answer rfl rfl)), rfl⟩

end Worksite.WorkerPool
