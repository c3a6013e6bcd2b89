import Worksite.Proofs.Sandbox.Missing
import Worksite.Proofs.Service.Exposure
import Worksite.Proofs.Service.Ranges

/-!
Requests for what is not there. They fail and change nothing; what they answer depends on what is in
the way. A name that is missing is told as what is not found, but something that is used like a
directory and is none is an error of the system.
-/
namespace Worksite

open FileTree Sandbox

variable {s : Service} {w : Workspace} {t : FileTree} {p : Place} {path : String}
  {names : Location} {last : Bool} {q : Request} {cause : SystemError} {e : WorkspaceError}

/-- Requests that look at what a path names: reads look at what it leads to, a delete at the entry.
Lines are read by a range. -/
inductive Request.Looks : Request → Bool → String → Prop where
  | listDirectory (path : String) : Looks (.listDirectory { path }) true path
  | readFile (path : String) (asBinary : Bool) : Looks (.readFile { path, asBinary }) true path
  | readLines (path : String) {first last : Option Int} (h : IsRange first last) :
      Looks (.readLines { path, first, last }) true path
  | delete (path : String) (recursive : Bool) : Looks (.delete { path, recursive }) false path

theorem WorkspaceError.kind_ofSystem (shown : String) (cause : SystemError) :
    ((ofSystem shown cause).kind = .notFound ↔ cause = .noEntry) ∧
      ((ofSystem shown cause).kind = .io ↔ cause ≠ .noEntry) := by
  cases cause <;> simp [ofSystem, kind]

namespace Place

theorem bytes_of_find_error (h : t.find true p.absolute = .error cause) :
    p.bytes t = .error (p.systemError cause) := by
  rw [bytes, h]

theorem list_of_find_error (h : t.find true p.absolute = .error cause) :
    p.list t = .error (p.systemError cause) := by
  rw [list, h]

theorem delete_of_find_error (recursive : Bool) (hp : p.relative ≠ [])
    (h : t.find false p.absolute = .error cause) :
    p.delete t recursive = .error (p.systemError cause) := by
  rw [delete, if_neg (by simpa [isRoot] using hp), h]

end Place

namespace Service

/-! ## Reads -/

/-- A read fails for what its path is refused for. -/
theorem perform_of_resolve_error (hq : q.Looks true path)
    (h : s.sandbox.resolve w.tree path = .error e) : s.perform w q = (.error e, w) := by
  cases hq with
  | listDirectory => simp only [perform, listDirectory, h, error_bind, Except.map]
  | readFile => simp only [perform, readFile, h, error_bind, Except.map]
  | readLines _ hr =>
    have hfirst := mapM_nonNegative "start_line" hr.first_nonneg
    have hlast := mapM_nonNegative "end_line" hr.last_nonneg
    simp only [perform, readLines, hfirst, hlast, h, ok_bind, error_bind, Except.map]

/-- A read fails for what is found at its place. -/
theorem perform_of_find_error (hq : q.Looks true path)
    (hp : s.sandbox.resolve w.tree path = .ok p)
    (h : w.tree.find true p.absolute = .error cause) :
    s.perform w q = (.error (p.systemError cause), w) := by
  have hbytes := Place.bytes_of_find_error h
  cases hq with
  | listDirectory =>
    simp only [perform, listDirectory, hp, ok_bind, Place.list_of_find_error h, error_bind,
      Except.map]
  | readFile =>
    simp only [perform, readFile, hp, ok_bind, Place.read, hbytes, Except.map, error_bind]
  | readLines _ hr =>
    have hfirst := mapM_nonNegative "start_line" hr.first_nonneg
    have hlast := mapM_nonNegative "end_line" hr.last_nonneg
    have hrange := (Place.checkRange_eq_ok hr.first_nonneg hr.last_nonneg).mpr hr
    simp only [perform, readLines, hfirst, hlast, hp, ok_bind, Place.readLines, hrange, hbytes,
      error_bind, Except.map]

/-! ## Deletes -/

theorem perform_delete_of_resolveEntry_error {d : Request.Delete} (hr : s.ensureWritable = .ok ())
    (h : s.sandbox.resolveEntry w.tree d.path = .error e) :
    s.perform w (.delete d) = (.error e, w) := by
  simp only [perform, delete, hr, h, ok_bind, error_bind]

theorem perform_delete_of_find_error {d : Request.Delete} (hr : s.ensureWritable = .ok ())
    (hp : s.sandbox.resolveEntry w.tree d.path = .ok p) (hproper : p.relative ≠ [])
    (hauth : s.policy.authorize p.relative .delete = .ok ())
    (h : w.tree.find false p.absolute = .error cause) :
    s.perform w (.delete d) = (.error (p.systemError cause), w) := by
  simp only [perform, delete, hr, hp, ok_bind, authorize_of_policy hproper hauth,
    Place.delete_of_find_error d.recursive hproper h, error_bind]

/-! ## What is in the way -/

/-- A request that looks at what its path names fails for what is in the way. -/
theorem perform_of_missing (ha : s.sandbox.Anchored w.tree) (hq : q.Looks last path)
    (h : s.sandbox.Missing w.tree last path names)
    (hallowed : last = false → s.ensureWritable = .ok () ∧ ∀ p,
      s.sandbox.resolveEntry w.tree path = .ok p →
        s.policy.authorize p.relative .delete = .ok ())
    (hcause : w.tree.find last names = .error cause) :
    ∃ shown, s.perform w q = (.error (.ofSystem shown cause), w) := by
  cases last with
  | true =>
    rcases h.resolve_cases hcause with hrefused | ⟨p, hp, hfind⟩
    · exact ⟨_, perform_of_resolve_error hq hrefused⟩
    · exact ⟨_, perform_of_find_error hq hp hfind⟩
  | false =>
    obtain ⟨hr, hauth⟩ := hallowed rfl
    cases hq with
    | delete path recursive =>
      rcases h.resolveEntry_cases ha hcause with ⟨shown, hrefused⟩ | ⟨p, hp, hproper, hfind⟩
      · exact ⟨shown, perform_delete_of_resolveEntry_error hr hrefused⟩
      · exact ⟨_, perform_delete_of_find_error hr hp hproper (hauth p hp) hfind⟩

/-- A read of what is not there, or a delete of it that is allowed, fails and changes nothing. It is
told as not found just if nothing that is no directory is in the way, and as an error of the system
otherwise. -/
theorem missing_notFound_iff (ha : s.sandbox.Anchored w.tree) (hq : q.Looks last path)
    (h : s.sandbox.Missing w.tree last path names)
    (hallowed : last = false → s.settings.workspace.readOnly = false ∧ ∀ p,
      s.sandbox.resolveEntry w.tree path = .ok p →
        s.policy.authorize p.relative .delete = .ok ()) :
    ∃ e, s.perform w q = (.error e, w) ∧
      (e.kind = .notFound ↔ ¬ w.tree.Obstructed last [] names) ∧
      (e.kind = .io ↔ w.tree.Obstructed last [] names) := by
  obtain ⟨cause, hcause, hcauses, hobstructed⟩ := h.exists_cause
  have hallowed' : last = false → s.ensureWritable = .ok () ∧ ∀ p,
      s.sandbox.resolveEntry w.tree path = .ok p →
        s.policy.authorize p.relative .delete = .ok () :=
    fun hlast => ⟨by simp [ensureWritable, (hallowed hlast).1], (hallowed hlast).2⟩
  obtain ⟨shown, hperform⟩ := perform_of_missing ha hq h hallowed' hcause
  obtain ⟨hnotFound, hio⟩ := WorkspaceError.kind_ofSystem shown cause
  have hentry : cause = .noEntry ↔ ¬ w.tree.Obstructed last [] names := by
    rw [← hobstructed]
    rcases hcauses with rfl | rfl <;> simp
  refine ⟨_, hperform, hnotFound.trans hentry, hio.trans ?_⟩
  rw [ne_eq, hentry, not_not]

/-! ## A file in the way -/

/-- A file and nothing else. -/
def lone : FileTree where
  entries := [(["ws"], .directory), (["ws", "a"], .file "x".toUTF8 0o644)]
  distinct := by decide

def loneService : Service where
  settings := { workspace := { root := "/ws" } }
  sandbox := { root := ["ws"] }
  policy := {}
  pool := { size := 4 }

theorem anchored_lone : loneService.sandbox.Anchored lone :=
  ⟨Closed.canonical (by decide) (by decide) ⟨.directory, rfl, by simp⟩, rfl⟩

theorem find_lone : lone.find true ["ws", "b", "c"] = .error .noEntry ∧
    lone.find true ["ws", "a", "b"] = .error .notDirectory ∧
    lone.find false ["ws", "a", "b"] = .error .notDirectory :=
  ⟨by cbv, by cbv, by cbv⟩

theorem resolve_lone : loneService.sandbox.resolve lone "b/c" =
      .ok { absolute := ["ws", "b", "c"], relative := ["b", "c"] } ∧
    loneService.sandbox.resolve lone "a/b" = .error (.io "a/b" .notDirectory) ∧
    loneService.sandbox.resolveEntry lone "a/b" =
      .ok { absolute := ["ws", "a", "b"], relative := ["a", "b"] } := by
  have hl : Path.locate loneService.sandbox.root "b/c" = some ["ws", "b", "c"] := by decide
  have hl' : Path.locate loneService.sandbox.root "a/b" = some ["ws", "a", "b"] := by decide
  refine ⟨?_, ?_, ?_⟩
  · rw [resolve_of_locate hl]
    cbv
  · rw [resolve_of_locate hl']
    cbv
  · rw [resolveEntry, hl']
    cbv

theorem checkPath_lone : checkPath ["ws", "b", "c"] = .ok () ∧ checkPath ["ws", "a", "b"] = .ok () :=
  ⟨by cbv, by cbv⟩

theorem missing_lone : loneService.sandbox.Missing lone true "b/c" ["ws", "b", "c"] where
  located := by decide
  inside shown := by simp [look, resolve_lone.1]
  missing e := by simp [find_lone.1]
  nulFree := contains_nul_of_checkPath checkPath_lone.1
  short := by simp [find_lone.1]
  unlooped := by simp [find_lone.1]
  placed p hp := by
    obtain rfl := Except.ok.inj (resolve_lone.1.symm.trans hp)
    exact checkPath_lone.1

theorem missing_entry_lone : loneService.sandbox.Missing lone false "a/b" ["ws", "a", "b"] where
  located := by decide
  inside shown := by simp [look, resolve_lone.2.2]
  missing e := by simp [find_lone.2.2]
  nulFree := contains_nul_of_checkPath checkPath_lone.2
  short := by simp [find_lone.2.2]
  unlooped := by simp [find_lone.2.2]
  placed p hp := by
    obtain rfl := Except.ok.inj (resolve_lone.2.2.symm.trans hp)
    exact checkPath_lone.2

/-- A name that is missing is not found, and a file that is used like a directory is an error. -/
theorem missing_notFound_iff_lone :
    (∃ e, loneService.perform { tree := lone } (.readLines { path := "b/c", first := some 1 }) =
      (.error e, { tree := lone }) ∧ e.kind = .notFound) ∧
    ∃ e, loneService.perform { tree := lone } (.delete { path := "a/b" }) =
      (.error e, { tree := lone }) ∧ e.kind = .io := by
  constructor
  · have hrange : IsRange (some 1) none := by simp [isRange_iff]
    obtain ⟨e, hperform, hkind, -⟩ := missing_notFound_iff (w := { tree := lone }) anchored_lone
      (.readLines "b/c" hrange) missing_lone (by simp)
    obtain ⟨cause, hcause, -, hobstructed⟩ := missing_lone.exists_cause
    obtain rfl := Except.error.inj (find_lone.1.symm.trans hcause)
    exact ⟨e, hperform, hkind.mpr fun h => absurd (hobstructed.mpr h) (by simp)⟩
  · obtain ⟨e, hperform, -, hkind⟩ := missing_notFound_iff (w := { tree := lone }) anchored_lone
      (.delete "a/b" false) missing_entry_lone fun _ => ⟨rfl, fun p _ => rfl⟩
    obtain ⟨cause, hcause, -, hobstructed⟩ := missing_entry_lone.exists_cause
    obtain rfl := Except.error.inj (find_lone.2.2.symm.trans hcause)
    exact ⟨e, hperform, hkind.mpr (hobstructed.mp rfl)⟩

/-- A path through a file names nothing, and is not told as not found. -/
theorem perform_lone_io :
    loneService.sandbox.Missing lone true "a/b" ["ws", "a", "b"] ∧
    loneService.perform { tree := lone } (.readFile { path := "a/b" }) =
      (.error (.io "a/b" .notDirectory), { tree := lone }) ∧
    (WorkspaceError.io "a/b" .notDirectory).kind ≠ .notFound := by
  refine ⟨?_, perform_of_resolve_error (.readFile "a/b" false) resolve_lone.2.1, by decide⟩
  exact {
    located := by decide
    inside := fun shown => by simp [look, resolve_lone.2.1]
    missing := fun e => by simp [find_lone.2.1]
    nulFree := contains_nul_of_checkPath checkPath_lone.2
    short := by simp [find_lone.2.1]
    unlooped := by simp [find_lone.2.1]
    placed := fun p hp => by cases resolve_lone.2.1.symm.trans hp }

end Service

end Worksite
