import Worksite.Proofs.Service.Start

/-!
What requests may change: only writes and deletes change files, only rebuilds that succeed change
the index, and where the workspace is read-only nothing changes a file. Writes and deletes are
refused there before their path, their content or the policy is looked at.
-/
namespace Worksite

/-- The requests that rebuild a half of the index. -/
def Request.rebuilds : Request → Bool
  | .indexSymbols _ | .graphDependencies _ => true
  | _ => false

theorem IndexSnapshot.generation_publish (i : IndexSnapshot) (half : Index.Half) :
    (i.publish half).generation = i.generation + 1 := by
  cases half <;> rfl

namespace Service

variable {s : Service} {w w' : Workspace} {q : Request}

/-! ## One request -/

theorem tree_perform_of_not_mutation (h : mutation q = none) :
    (s.perform w q).2.tree = w.tree := by
  cases q with
  | writeFile q | delete q => simp [mutation] at h
  | indexSymbols q | graphDependencies q =>
    simp only [perform]
    split <;> rfl
  | _ => rfl

theorem index_perform_of_not_rebuilds (h : q.rebuilds = false) :
    (s.perform w q).2.index = w.index := by
  cases q with
  | indexSymbols q | graphDependencies q => simp [Request.rebuilds] at h
  | delete q =>
    simp only [perform]
    split <;> rfl
  | _ => rfl

theorem indexSymbols_eq_ok {q : Request.IndexSymbols} {i : IndexSnapshot}
    (h : s.indexSymbols w q = .ok i) : ∃ half, i = w.index.publish half := by
  obtain ⟨roots, -, h⟩ := bind_eq_ok.mp h
  obtain ⟨scanned, -, rfl⟩ := map_eq_ok.mp h
  exact ⟨_, rfl⟩

theorem graphDependencies_eq_ok {q : Request.GraphDependencies} {i : IndexSnapshot}
    (h : s.graphDependencies w q = .ok i) : ∃ half, i = w.index.publish half := by
  obtain ⟨root, -, h⟩ := bind_eq_ok.mp h
  obtain ⟨scanned, -, rfl⟩ := map_eq_ok.mp h
  exact ⟨_, rfl⟩

/-- A rebuild fails and leaves the state as it was, or it publishes a half of the index. -/
theorem perform_rebuild (h : q.rebuilds) :
    (∃ e, s.perform w q = (.error e, w)) ∨
      ∃ a half, s.perform w q = (.ok a, { w with index := w.index.publish half }) := by
  cases q with
  | indexSymbols q =>
    cases hi : s.indexSymbols w q with
    | error e => exact .inl ⟨e, by simp only [perform, hi]⟩
    | ok i =>
      obtain ⟨half, rfl⟩ := indexSymbols_eq_ok hi
      exact .inr ⟨_, half, by simp only [perform, hi]; rfl⟩
  | graphDependencies q =>
    cases hi : s.graphDependencies w q with
    | error e => exact .inl ⟨e, by simp only [perform, hi]⟩
    | ok i =>
      obtain ⟨half, rfl⟩ := graphDependencies_eq_ok hi
      exact .inr ⟨_, half, by simp only [perform, hi]; rfl⟩
  | _ => simp [Request.rebuilds] at h

/-- Whether a request is a rebuild that succeeds. -/
def publishes (s : Service) (w : Workspace) (q : Request) : Bool :=
  q.rebuilds && (s.perform w q).1.isOk

theorem generation_perform : (s.perform w q).2.index.generation =
    w.index.generation + if s.publishes w q then 1 else 0 := by
  by_cases hq : q.rebuilds
  · rcases perform_rebuild (s := s) (w := w) hq with ⟨e, h⟩ | ⟨a, half, h⟩
    · simp [publishes, h, Except.isOk, Except.toBool]
    · simp [publishes, h, hq, Except.isOk, Except.toBool, IndexSnapshot.generation_publish]
  · rw [index_perform_of_not_rebuilds (by simpa using hq)]
    simp [publishes, hq]

theorem index_perform_of_not_publishes (h : s.publishes w q = false) :
    (s.perform w q).2.index = w.index := by
  by_cases hq : q.rebuilds
  · rcases perform_rebuild (s := s) (w := w) hq with ⟨e, he⟩ | ⟨a, half, ha⟩
    · rw [he]
    · simp [publishes, hq, ha, Except.isOk, Except.toBool] at h
  · exact index_perform_of_not_rebuilds (by simpa using hq)

/-- A request changes the index just if it is a rebuild that succeeds. -/
theorem index_perform_ne_iff : (s.perform w q).2.index ≠ w.index ↔ s.publishes w q := by
  constructor
  · intro hne
    by_contra hno
    exact hne (index_perform_of_not_publishes (by simpa using hno))
  · intro hp heq
    have hgeneration := generation_perform (s := s) (w := w) (q := q)
    rw [heq, if_pos hp] at hgeneration
    omega

/-- The files after a request depend on no index. -/
theorem tree_perform_congr (h : w.tree = w'.tree) :
    (s.perform w q).2.tree = (s.perform w' q).2.tree := by
  cases hm : mutation q with
  | none => rw [tree_perform_of_not_mutation hm, tree_perform_of_not_mutation hm, h]
  | some operation =>
    cases q with
    | writeFile q => simp only [perform, h]
    | delete q =>
      simp only [perform, h]
      split
      · rfl
      · exact h
    | _ => simp [mutation] at hm

theorem ensureWritable_of_readOnly (h : s.settings.workspace.readOnly) :
    s.ensureWritable = .error .readOnly := by
  simp [ensureWritable, h]

/-- Nothing of a write or a delete is looked at where the workspace is read-only. -/
theorem perform_of_readOnly (h : s.settings.workspace.readOnly) (hm : mutation q ≠ none) :
    s.perform w q = (.error .readOnly, w) := by
  cases q with
  | writeFile q =>
    simp only [perform, writeFile, planWrite, ensureWritable_of_readOnly h, error_bind]
    rfl
  | delete q => simp only [perform, delete, ensureWritable_of_readOnly h, error_bind]
  | _ => simp [mutation] at hm

/-! ## Runs -/

/-- How many of the requests of a run publish an index. -/
def published (s : Service) (w : Workspace) : List Request → Nat
  | [] => 0
  | q :: rest => (if s.publishes w q then 1 else 0) + published s (s.perform w q).2 rest

theorem generation_run (requests : List Request) :
    (s.run w requests).index.generation = w.index.generation + s.published w requests := by
  induction requests generalizing w with
  | nil => rfl
  | cons q rest ih =>
    have hrest := ih (w := (s.perform w q).2)
    rw [generation_perform] at hrest
    rw [published, ← Nat.add_assoc]
    exact hrest

theorem index_run_of_published_eq_zero {requests : List Request}
    (h : s.published w requests = 0) : (s.run w requests).index = w.index := by
  induction requests generalizing w with
  | nil => rfl
  | cons q rest ih =>
    rw [published, Nat.add_eq_zero_iff] at h
    have hq : s.publishes w q = false := by simpa using h.1
    exact (ih h.2).trans (index_perform_of_not_publishes hq)

theorem index_run_ne_iff {requests : List Request} :
    (s.run w requests).index ≠ w.index ↔ 0 < s.published w requests := by
  rw [Nat.pos_iff_ne_zero, not_iff_not]
  refine ⟨fun heq => ?_, index_run_of_published_eq_zero⟩
  have hgeneration := generation_run (s := s) (w := w) requests
  rw [heq] at hgeneration
  omega

theorem tree_run_congr {requests : List Request} (h : w.tree = w'.tree) :
    (s.run w requests).tree = (s.run w' requests).tree := by
  induction requests generalizing w w' with
  | nil => exact h
  | cons q rest ih => exact ih (tree_perform_congr h)

/-- The files after a run are those after its writes and deletes. -/
theorem tree_run_filter (requests : List Request) :
    (s.run w requests).tree =
      (s.run w (requests.filter fun q => (mutation q).isSome)).tree := by
  induction requests generalizing w with
  | nil => rfl
  | cons q rest ih =>
    cases hm : mutation q with
    | none =>
      rw [List.filter_cons_of_neg (by simp [hm])]
      exact (tree_run_congr (tree_perform_of_not_mutation hm)).trans ih
    | some operation =>
      rw [List.filter_cons_of_pos (by simp [hm])]
      exact ih

theorem tree_run_of_readOnly (h : s.settings.workspace.readOnly) (requests : List Request) :
    (s.run w requests).tree = w.tree := by
  induction requests generalizing w with
  | nil => rfl
  | cons q rest ih =>
    refine (ih (w := (s.perform w q).2)).trans ?_
    by_cases hm : mutation q = none
    · exact tree_perform_of_not_mutation hm
    · rw [perform_of_readOnly h hm]

/-- In every run each request that is no write and no delete leaves the files as they are, and just
the rebuilds that succeed change the index. In a read-only workspace the files are the same after
the whole run, and each write and delete is answered that it is read-only. -/
theorem changes_permitted (s : Service) (w : Workspace) (requests : List Request) :
    (∀ before q after, requests = before ++ q :: after →
      (mutation q = none → (s.answer (s.run w before) q).2.tree = (s.run w before).tree) ∧
      ((s.answer (s.run w before) q).2.index ≠ (s.run w before).index ↔
        q.rebuilds ∧ (s.answer (s.run w before) q).1.isOk)) ∧
    (s.run w requests).tree = (s.run w (requests.filter fun q => (mutation q).isSome)).tree ∧
    ((s.run w requests).index ≠ w.index ↔ 0 < s.published w requests) ∧
    (s.settings.workspace.readOnly →
      (s.run w requests).tree = w.tree ∧
      ∀ before q after, requests = before ++ q :: after → mutation q ≠ none →
        s.answer (s.run w before) q =
          (.error { operation := q.operation, error := .readOnly }, s.run w before)) := by
  refine ⟨fun before q after _ => ⟨tree_perform_of_not_mutation, ?_⟩, tree_run_filter requests,
    index_run_ne_iff, fun hr => ⟨tree_run_of_readOnly hr requests, ?_⟩⟩
  · have hok : (s.answer (s.run w before) q).1.isOk = (s.perform (s.run w before) q).1.isOk := by
      simp only [answer]
      cases (s.perform (s.run w before) q).1 <;> rfl
    rw [hok, ← Bool.and_eq_true]
    exact index_perform_ne_iff
  · intro before q after _ hm
    simp only [answer, perform_of_readOnly hr hm]
    rfl

/-! ## A read-only workspace -/

/-- A workspace with one file. -/
def kept : FileTree where
  entries := [(["ws"], .directory), (["ws", "a.py"], .file "def f(): pass".toUTF8 0o644)]
  distinct := by decide

def lockedService : Service where
  settings := { workspace := { root := "/ws", readOnly := true } }
  sandbox := { root := ["ws"] }
  policy := {}
  pool := { size := 4 }

/-- A write that would escape with bad content, between two rebuilds, and a delete of the root. -/
def attempts : List Request :=
  [.indexSymbols {}, .writeFile { path := "../x", content := "=", encoding := .base64 },
    .graphDependencies {}, .delete { path := "" }]

theorem changes_permitted_kept :
    (lockedService.run { tree := kept } attempts).tree = kept ∧
      (lockedService.answer (lockedService.run { tree := kept } [.indexSymbols {}])
        (.writeFile { path := "../x", content := "=", encoding := .base64 })).1 =
          .error { operation := "fs.write", error := .readOnly } := by
  obtain ⟨-, -, -, hlocked⟩ := changes_permitted lockedService { tree := kept } attempts
  obtain ⟨hsame, hrefused⟩ := hlocked rfl
  exact ⟨hsame, congrArg Prod.fst (hrefused [.indexSymbols {}] _ _ rfl (by decide))⟩

end Service

end Worksite
