import Worksite.Proofs.Service.Start

/-!
Authorization: a file or a link that a request changes is one for which the policy allows the
operation, or the backup that a write makes of its target.
-/
namespace Worksite.Service

open FileTree Writing

variable {s : Service} {t t' : FileTree} {here x q : Location} {settings : Settings}
  {policy : WritePolicy} {i : IndexSnapshot}

/-- Why a file or a link below the root may have changed. -/
inductive Accounted (s : Service) (t t' : FileTree) (q : Location) : WriteOperation → Prop where
  | authorized {operation : WriteOperation}
      (allowed : s.policy.authorize q operation = .ok ()) : Accounted s t t' q operation
  /-- The file that was at the target of a write is kept beside it. -/
  | backup {target : Location} {bytes : ByteArray} {mode : Nat}
      (kept : s.policy.backupOnWrite) (beside : q = backupOf target)
      (allowed : s.policy.authorize target .write = .ok ())
      (before : t.entry? (s.sandbox.root ++ target) = some (.file bytes mode))
      (after : t'.entry? (s.sandbox.root ++ q) = some (.file bytes mode)) :
      Accounted s t t' q .write

/-- A changed entry that is no directory is accounted for. -/
theorem Change.accounted {operation : WriteOperation} (h : s.Change t t' q operation)
    (hplain : ∃ e, e ≠ .directory ∧
      (t.entry? (s.sandbox.root ++ q) = some e ∨ t'.entry? (s.sandbox.root ++ q) = some e)) :
    s.Accounted t t' q operation := by
  cases h with
  | made way allowed before after =>
    obtain ⟨e, he, hplain⟩ := hplain
    simp only [before, after, reduceCtorEq, Option.some.injEq, false_or] at hplain
    exact absurd hplain.symm he
  | written allowed before after => exact .authorized allowed
  | backup kept beside allowed before source after =>
    exact .backup kept beside allowed source after
  | removed allowed before => exact .authorized allowed

/-- Every file or link that a request changes, in any state that a service can come to, is
accounted for. -/
theorem changes_accounted (requests : List Request) (q : Request) {w : Workspace} (hc : t.Closed)
    (hh : t.Canonical here) (h : ofPolicy settings policy t here = .ok s)
    (hw : w = s.run { tree := t, index := i } requests)
    (hx : entry? (s.perform w q).2.tree x ≠ w.tree.entry? x)
    (hplain : ∃ e, e ≠ .directory ∧
      (w.tree.entry? x = some e ∨ entry? (s.perform w q).2.tree x = some e)) :
    ∃ operation r, mutation q = some operation ∧ x = s.sandbox.root ++ r ∧
      s.Accounted w.tree (s.perform w q).2.tree r operation := by
  obtain ⟨ha, hc⟩ := run_sound (i := i) requests hc hh h
  rw [← hw] at ha hc
  have heffect := effect_perform ha hc q
  have hinside : s.Inside x := by
    by_contra hno
    exact hx (heffect.entry?_of_not_inside ha hno)
  obtain ⟨r, rfl⟩ := hinside.1
  obtain ⟨operation, ho, hchange⟩ := heffect.change hx
  exact ⟨operation, r, ho, rfl, hchange.accounted hplain⟩

/-! ## A backup outside the allowed prefixes -/

/-- A file beside what would be its backup. -/
def twoFiles : FileTree where
  entries := [(["ws"], .directory), (["ws", "a"], .file "new".toUTF8 0o644),
    (["ws", "a.bak"], .file "old".toUTF8 0o644)]
  distinct := by decide

/-- A service that keeps backups and allows changes of the first file only. -/
def keepingService : Service where
  settings := { workspace := { root := "/ws", policyFile := "p" } }
  sandbox := { root := ["ws"] }
  policy := { allowed := [["a"]], denied := [["p"]], backupOnWrite := true }
  pool := { size := 4 }

theorem ofPolicy_twoFiles : ofPolicy keepingService.settings
    { allowed := [["a"]], backupOnWrite := true } twoFiles [] = .ok keepingService := by
  have hp : keepingService.sandbox.resolve twoFiles "p" =
      .ok { absolute := ["ws", "p"], relative := ["p"] } := by
    have hl : Path.locate keepingService.sandbox.root "p" = some ["ws", "p"] := by decide
    rw [Sandbox.resolve_of_locate hl]
    cbv
  exact ofPolicy_of_resolve (by cbv) rfl hp (by decide) rfl

theorem planWrite_twoFiles : keepingService.planWrite twoFiles { path := "a", content := "x" } =
    .ok ({ absolute := ["ws", "a"], relative := ["a"] }, "x".toUTF8) := by
  have hp : keepingService.sandbox.resolve twoFiles "a" =
      .ok { absolute := ["ws", "a"], relative := ["a"] } := by
    have hl : Path.locate keepingService.sandbox.root "a" = some ["ws", "a"] := by decide
    rw [Sandbox.resolve_of_locate hl]
    cbv
  simp only [planWrite, hp]
  rfl

/-- The write keeps the old bytes, over what the second file held. -/
theorem write_twoFiles :
    Place.write { absolute := ["ws", "a"], relative := ["a"] } twoFiles "x".toUTF8 true true =
      (.ok { ok := true, path := "a", bytesWritten := 1, backup := some "a.bak" },
        (twoFiles.put ["ws", "a.bak"] (.file "new".toUTF8 0o644)).put ["ws", "a"]
          (.file "x".toUTF8 0o644)) := by
  cbv

theorem perform_twoFiles : keepingService.perform { tree := twoFiles }
      (.writeFile { path := "a", content := "x" }) =
    (.ok (.written { ok := true, path := "a", bytesWritten := 1, backup := some "a.bak" }),
      { tree := (twoFiles.put ["ws", "a.bak"] (.file "new".toUTF8 0o644)).put ["ws", "a"]
          (.file "x".toUTF8 0o644) }) := by
  simp only [perform, writeFile, planWrite_twoFiles]
  rw [show keepingService.policy.backupOnWrite = true from rfl, write_twoFiles]
  rfl

/-- A write of the one file that is allowed also replaces its backup, outside every allowed
prefix. -/
theorem backup_outside_allowed :
    let request := Request.writeFile { path := "a", content := "x" }
    ofPolicy keepingService.settings { allowed := [["a"]], backupOnWrite := true } twoFiles [] =
        .ok keepingService ∧
      (keepingService.perform { tree := twoFiles } request).1.isOk ∧
      twoFiles.entry? ["ws", "a.bak"] = some (.file "old".toUTF8 0o644) ∧
      entry? (keepingService.perform { tree := twoFiles } request).2.tree ["ws", "a.bak"] =
        some (.file "new".toUTF8 0o644) ∧
      keepingService.policy.authorize ["a.bak"] .write =
        .error (.outsideAllowed .write ["a.bak"]) := by
  refine ⟨ofPolicy_twoFiles, ?_, rfl, ?_, by decide⟩
  · rw [perform_twoFiles]
    rfl
  · rw [perform_twoFiles]
    rfl

theorem changes_accounted_twoFiles :
    ∃ operation r, some WriteOperation.write = some operation ∧ ["ws", "a"] = ["ws"] ++ r ∧
      keepingService.Accounted twoFiles
        (keepingService.perform { tree := twoFiles }
          (.writeFile { path := "a", content := "x" })).2.tree r operation := by
  have hafter : entry? (keepingService.perform { tree := twoFiles }
      (.writeFile { path := "a", content := "x" })).2.tree ["ws", "a"] =
        some (.file "x".toUTF8 0o644) := by
    rw [perform_twoFiles]
    rfl
  refine changes_accounted [] (.writeFile { path := "a", content := "x" }) (by decide)
    (canonical_nil twoFiles) ofPolicy_twoFiles rfl (fun hsame => ?_) ⟨_, by simp, .inr hafter⟩
  have hbytes : some (Entry.file "new".toUTF8 0o644) = some (.file "x".toUTF8 0o644) :=
    hsame.symm.trans hafter
  exact absurd (Entry.file.inj (Option.some.inj hbytes)).1 (by decide)

end Worksite.Service
