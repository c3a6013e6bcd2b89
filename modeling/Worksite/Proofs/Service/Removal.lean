import Worksite.Proofs.Sandbox.Removal
import Worksite.Proofs.Service.Effect

/-!
What a delete removes: the entry that its path names, with all below it, and nothing else. The same
path again finds nothing, if it may still be deleted where it leads then.
-/
namespace Worksite

open FileTree Sandbox

variable {s : Service} {w w' : Workspace} {t t' : FileTree} {p : Place} {recursive : Bool}
  {answer : Response} {e : WorkspaceError}

/-- What is not found cannot be deleted. -/
theorem Place.delete_of_missing (recursive : Bool) (hroot : p.relative ≠ [])
    (hf : checkPath p.absolute = .ok () → t.find false p.absolute = .error .noEntry) :
    ∃ e, p.delete t recursive = .error e ∧
      (e.kind = .notFound ↔ checkPath p.absolute = .ok ()) := by
  unfold Place.delete
  rw [if_neg (by simpa [isRoot] using hroot)]
  cases hp : checkPath p.absolute with
  | ok =>
    rw [hf hp]
    exact ⟨_, rfl, by simp [systemError, WorkspaceError.ofSystem, WorkspaceError.kind]⟩
  | error cause =>
    have hfind : t.find false p.absolute = .error cause := by rw [find, hp, error_bind]
    rw [hfind]
    refine ⟨_, rfl, ?_⟩
    have hne : cause ≠ .noEntry := fun h => checkPath_ne_noEntry _ (h ▸ hp)
    cases cause <;> simp_all [systemError, WorkspaceError.ofSystem, WorkspaceError.kind]

namespace Service

theorem perform_delete_eq_error {q : Request.Delete} (h : s.delete w.tree q = .error e) :
    s.perform w (.delete q) = (.error e, w) := by
  simp only [perform, h]

theorem kind_of_authorize {operation : WriteOperation} (h : s.authorize p operation = .error e) :
    e.kind = .policyDenied := by
  unfold authorize at h
  split_ifs at h
  · rw [← Except.error.inj h]
    rfl
  · cases ha : s.policy.authorize p.relative operation with
    | ok => simp [ha, Except.mapError] at h
    | error d =>
      rw [ha] at h
      rw [← Except.error.inj h]
      rfl

/-- A delete over a tree in which the entry of its path is gone fails. -/
theorem delete_removed {q : Request.Delete} {l : Location} (ha : s.sandbox.Anchored t)
    (hr : s.ensureWritable = .ok ()) (hp : s.sandbox.resolveEntry t q.path = .ok p)
    (hroot : p.relative ≠ []) (hseat : t.seat p.absolute = .ok l)
    (hremoved : t.Removed p.absolute t') :
    ∃ e, s.delete t' q = .error e ∧ (e.kind = .notFound ↔
      ∃ p', s.sandbox.resolveEntry t' q.path = .ok p' ∧ s.authorize p' .delete = .ok () ∧
        checkPath p'.absolute = .ok ()) := by
  unfold delete
  rw [hr, ok_bind]
  rcases resolveEntry_removed ha hp hroot hseat hremoved with
    ⟨shown, hescape⟩ | ⟨p', hp', hroot', hf⟩
  · rw [hescape, error_bind]
    refine ⟨_, rfl, ?_⟩
    simp [WorkspaceError.kind]
  · rw [hp', ok_bind]
    cases hauth : s.authorize p' .delete with
    | error e =>
      refine ⟨e, rfl, ?_⟩
      simp [kind_of_authorize hauth, hauth]
    | ok =>
      obtain ⟨e, hdelete, hkind⟩ := p'.delete_of_missing q.recursive hroot' (hf false)
      rw [ok_bind, hdelete, error_bind]
      refine ⟨e, rfl, ?_⟩
      simp [hkind, hauth]

/-- What a delete that succeeds comes to. Of all entries the one that its path names is gone, a link
itself and not what it leads to, with all below it. -/
structure Deletes (s : Service) (w : Workspace) (q : Request.Delete) (answer : Response)
    (w' : Workspace) (p : Place) : Prop where
  /-- The last name of the path is kept, and the others are followed. -/
  named : ∃ (above : Location) (name : String),
    Path.locate s.sandbox.root q.path = some (above ++ [name]) ∧
      w.tree.follow true maxLinks [] above = .ok p.absolute.parent ∧
      p.absolute = p.absolute.parent ++ [name]
  below : p.absolute = s.sandbox.root ++ p.relative ∧ p.relative ≠ []
  told : answer = .deleted { ok := true, path := p.relative.display }
  index : w'.index = w.index
  removed : w.tree.Removed p.absolute w'.tree
  /-- What is no directory goes alone. -/
  alone : ¬ w.tree.isDirectory p.absolute →
    ∀ x, x ≠ p.absolute → w'.tree.entry? x = w.tree.entry? x
  /-- The same path again changes nothing, and is told not to be found if it may be deleted where it
  leads by then. -/
  again : ∀ recursive, ∃ e,
    s.perform w' (.delete { path := q.path, recursive }) = (.error e, w') ∧
      (e.kind = .notFound ↔ ∃ p', s.sandbox.resolveEntry w'.tree q.path = .ok p' ∧
        s.authorize p' .delete = .ok () ∧ checkPath p'.absolute = .ok ()) ∧
      (s.sandbox.resolveEntry w'.tree q.path = .ok p → e.kind = .notFound)

theorem deletes_of_perform (ha : s.sandbox.Anchored w.tree) (hc : w.tree.Closed)
    {q : Request.Delete} (h : s.perform w (.delete q) = (.ok answer, w')) :
    ∃ p, s.Deletes w q answer w' p := by
  obtain ⟨a, t', hok, rfl, rfl⟩ := perform_delete_eq_ok h
  obtain ⟨p, hr, hp, hauth, hd, rfl⟩ := delete_iff.mp hok
  obtain ⟨hbelow, -, hs⟩ := resolveEntry_eq_ok ha hp
  obtain ⟨hroot, hremoved⟩ := Place.delete_eq_ok hbelow hc hs hd
  obtain ⟨l, hseat⟩ := Place.seat_of_delete hd
  obtain ⟨-, hcan, -, hchecked, -⟩ := seat_eq_ok hs hseat
  refine ⟨p, follow_of_resolveEntry ha hp hroot hcan, ⟨hbelow, hroot⟩, rfl, rfl, hremoved,
    fun hdir x hx => ?_, fun recursive => ?_⟩
  · -- nothing stands below what is no directory
    by_cases hpre : p.absolute <+: x
    · exact (hremoved.gone x hpre).trans (hc.absent_below hdir hpre hx.symm).symm
    · exact hremoved.kept x hpre
  · obtain ⟨e, hdelete, hkind⟩ := delete_removed (q := { path := q.path, recursive }) ha hr hp
      hroot hseat hremoved
    exact ⟨e, perform_delete_eq_error hdelete, hkind,
      fun hsame => hkind.mpr ⟨p, hsame, hauth, hchecked⟩⟩

theorem proper_of_authorize (h : s.authorize p .delete = .ok ()) : p.relative ≠ [] := by
  intro hnil
  simp [authorize, Place.isRoot, hnil] at h

/-- A directory that holds anything is left as it is, unless a delete asks for all of it. -/
theorem delete_refuses_children (ha : s.sandbox.Anchored w.tree) (hc : w.tree.Closed)
    {q : Request.Delete} (hrec : q.recursive = false) (hr : s.ensureWritable = .ok ())
    (hp : s.sandbox.resolveEntry w.tree q.path = .ok p) (hauth : s.authorize p .delete = .ok ())
    (hdir : w.tree.isDirectory p.absolute)
    (hchild : ∃ x, w.tree.entry? (p.absolute ++ [x]) ≠ none) :
    ∃ e, s.perform w (.delete q) = (.error e, w) ∧
      (w.tree.find false p.absolute = .ok .directory → e = .invalidArgument
        (p.relative.display ++ " is not empty; pass recursive to delete it")) := by
  obtain ⟨x, hx⟩ := hchild
  obtain ⟨hbelow, hnames, hs⟩ := resolveEntry_eq_ok ha hp
  have hroot := proper_of_authorize hauth
  have hne : p.absolute ≠ [] := Place.absolute_ne_nil hbelow hroot
  have hlast : p.absolute = p.absolute.dropLast ++ [p.absolute.getLast hne] :=
    (List.dropLast_append_getLast hne).symm
  have hname := hnames _ (List.getLast_mem hne)
  have hentry := isDirectory_iff.mp hdir
  have hd : w.tree.isDirectory p.absolute.dropLast := closed_iff.mp hc _ hne (by simp [hentry])
  have hchildren (hf : w.tree.find false p.absolute = .ok .directory) :=
    Place.delete_with_children hlast hroot hs hd hname hf hdir hx
  obtain ⟨e, he⟩ : ∃ e, p.delete w.tree false = .error e := by
    cases hdelete : p.delete w.tree false with
    | error e => exact ⟨e, rfl⟩
    | ok t' =>
      -- what is deleted the system can look at
      obtain ⟨l, hseat⟩ := Place.seat_of_delete hdelete
      obtain ⟨-, hcan, -, hchecked, hlen⟩ := seat_eq_ok hs hseat
      have hlen' := hlen _ (List.getLast?_eq_some_getLast hne)
      have hfollow := follow_entry (n := maxLinks) hcan hd hname hlen' (hlast ▸ hentry)
      rw [← hlast] at hfollow
      have hfind := find_eq_ok.mpr ⟨hchecked, _, hfollow, hentry⟩
      cases hdelete.symm.trans (hchildren hfind)
  refine ⟨e, perform_delete_eq_error ?_, fun hf => ?_⟩
  · simp only [delete, hr, hp, hauth, hrec, he, ok_bind, error_bind]
  · exact Except.error.inj (he.symm.trans (hchildren hf))

/-- A delete removes the entry that its path names with all below it, and nothing else; a directory
that holds anything is not deleted unless asked for. -/
theorem delete_removes_named (ha : s.sandbox.Anchored w.tree) (hc : w.tree.Closed)
    (q : Request.Delete) :
    (∀ answer w', s.perform w (.delete q) = (.ok answer, w') → ∃ p, s.Deletes w q answer w' p) ∧
      ∀ p, q.recursive = false → s.ensureWritable = .ok () →
        s.sandbox.resolveEntry w.tree q.path = .ok p → s.authorize p .delete = .ok () →
        w.tree.isDirectory p.absolute → (∃ x, w.tree.entry? (p.absolute ++ [x]) ≠ none) →
        ∃ e, s.perform w (.delete q) = (.error e, w) ∧
          (w.tree.find false p.absolute = .ok .directory → e = .invalidArgument
            (p.relative.display ++ " is not empty; pass recursive to delete it")) := by
  constructor
  · intro answer w' h
    exact deletes_of_perform ha hc h
  · intro p hrec hr hp hauth hdir hchild
    exact delete_refuses_children ha hc hrec hr hp hauth hdir hchild

/-! ## A link that leads out of what is deleted -/

/-- A directory with a link to the root in it, and a link over that one. -/
def knotted : FileTree where
  entries := [(["ws"], .directory), (["ws", "d"], .directory), (["ws", "d", "m"], .link ".."),
    (["ws", "l"], .link "d/m")]
  distinct := by decide

def knottedService : Service where
  settings := { workspace := { root := "/ws" } }
  sandbox := { root := ["ws"] }
  policy := { denied := [["l"]] }
  pool := { size := 4 }

theorem anchored_knotted : knottedService.sandbox.Anchored knotted :=
  ⟨Closed.canonical (by decide) (by decide) ⟨.directory, rfl, by simp⟩, rfl⟩

theorem locate_knotted : Path.locate knottedService.sandbox.root "d" = some ["ws", "d"] := by
  decide

theorem resolveEntry_knotted : knottedService.sandbox.resolveEntry knotted "d" =
    .ok { absolute := ["ws", "d"], relative := ["d"] } := by
  rw [resolveEntry, locate_knotted]
  cbv

theorem perform_knotted : knottedService.perform { tree := knotted }
      (.delete { path := "d", recursive := true }) =
    (.ok (.deleted { ok := true, path := "d" }), { tree := knotted.eraseTree ["ws", "d"] }) := by
  simp only [perform, delete, resolveEntry_knotted]
  cbv

/-- The link in the directory goes with it, and the one over it stays. -/
theorem delete_removes_named_knotted :
    knottedService.sandbox.Anchored knotted ∧ knotted.Closed ∧
      (∃ w', knottedService.perform { tree := knotted }
            (.delete { path := "d", recursive := true }) =
          (.ok (.deleted { ok := true, path := "d" }), w') ∧
        knotted.Removed ["ws", "d"] w'.tree ∧ w'.tree.entry? ["ws", "d", "m"] = none ∧
        w'.tree.entry? ["ws", "l"] = some (.link "d/m") ∧
        ∃ e, knottedService.perform w' (.delete { path := "d" }) = (.error e, w') ∧
          e.kind = .notFound) ∧
      knottedService.perform { tree := knotted } (.delete { path := "d" }) =
        (.error (.invalidArgument "d is not empty; pass recursive to delete it"),
          { tree := knotted }) := by
  have hc : knotted.Closed := by decide
  obtain ⟨hremoves, -⟩ := delete_removes_named (w := { tree := knotted }) anchored_knotted hc
    { path := "d", recursive := true }
  obtain ⟨-, hrefuses⟩ := delete_removes_named (w := { tree := knotted }) anchored_knotted hc
    { path := "d" }
  have hauth : knottedService.authorize { absolute := ["ws", "d"], relative := ["d"] } .delete =
      .ok () := by decide
  refine ⟨anchored_knotted, hc, ⟨_, perform_knotted, ?_⟩, ?_⟩
  · obtain ⟨p, hp⟩ := hremoves _ _ perform_knotted
    have hplace : p.absolute = ["ws", "d"] := by
      obtain ⟨above, name, hl, hf, habsolute⟩ := hp.named
      have hsplit : ["ws"] ++ ["d"] = above ++ [name] :=
        Option.some.inj (locate_knotted.symm.trans hl)
      obtain ⟨rfl, hname⟩ := List.append_inj' hsplit rfl
      have hparent := Except.ok.inj (hf.symm.trans (follow_canonical anchored_knotted.canonical))
      rw [habsolute, hparent, ← hname]
      rfl
    have hremoved := hp.removed
    rw [hplace] at hremoved
    refine ⟨hremoved, hremoved.gone _ (by decide), hremoved.kept _ (by decide), ?_⟩
    obtain ⟨e, hagain, hkind, -⟩ := hp.again false
    refine ⟨e, hagain, hkind.mpr ⟨_, ?_, hauth, by cbv⟩⟩
    rw [resolveEntry, locate_knotted]
    cbv
  · obtain ⟨e, hrefused, he⟩ := hrefuses _ rfl rfl resolveEntry_knotted hauth rfl ⟨"m", by decide⟩
    rw [hrefused, he (by cbv)]
    rfl

/-- Over the link the directory can be deleted, and then the link leads nowhere, so that the same
path names what may not be deleted. -/
theorem delete_again_denied_knotted :
    ∃ answer w', knottedService.perform { tree := knotted }
          (.delete { path := "l/d", recursive := true }) = (.ok answer, w') ∧
      ∃ e, knottedService.perform w' (.delete { path := "l/d", recursive := true }) =
          (.error e, w') ∧
        e.kind = .policyDenied ∧ e.kind ≠ .notFound := by
  have hl : Path.locate knottedService.sandbox.root "l/d" = some ["ws", "l", "d"] := by decide
  have hp : knottedService.sandbox.resolveEntry knotted "l/d" =
      .ok { absolute := ["ws", "d"], relative := ["d"] } := by
    rw [resolveEntry, hl]
    cbv
  have hdelete : knottedService.perform { tree := knotted }
      (.delete { path := "l/d", recursive := true }) =
        (.ok (.deleted { ok := true, path := "d" }),
          { tree := knotted.eraseTree ["ws", "d"] }) := by
    simp only [perform, delete, hp]
    cbv
  have hp' : knottedService.sandbox.resolveEntry (knotted.eraseTree ["ws", "d"]) "l/d" =
      .ok { absolute := ["ws", "l", "d"], relative := ["l", "d"] } := by
    rw [resolveEntry, hl]
    cbv
  have hagain : ∃ e, knottedService.delete (knotted.eraseTree ["ws", "d"])
      { path := "l/d", recursive := true } = .error e ∧ e.kind = .policyDenied := by
    cases hauth : knottedService.authorize
        { absolute := ["ws", "l", "d"], relative := ["l", "d"] } .delete with
    | ok => exact absurd (authorize_eq_ok hauth) (by decide)
    | error e =>
      refine ⟨e, ?_, kind_of_authorize hauth⟩
      simp only [delete, hp', hauth, ok_bind, error_bind]
      rfl
  obtain ⟨e, he, hkind⟩ := hagain
  exact ⟨_, _, hdelete, e, perform_delete_eq_error he, hkind, by simp [hkind]⟩

end Service

end Worksite
