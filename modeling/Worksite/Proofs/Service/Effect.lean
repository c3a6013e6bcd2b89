import Worksite.Proofs.Place.Deleting
import Worksite.Proofs.Place.Writing
import Worksite.Proofs.Policy
import Worksite.Service

/-!
What one request can do to the file tree, and what every run of requests keeps.
-/
namespace Worksite.Service

open FileTree Writing Sandbox

variable {s : Service} {t t' : FileTree} {w w' : Workspace} {p : Place} {l x : Location}
  {bytes : ByteArray} {operation : WriteOperation} {o : Option WriteOperation}

/-- A place strictly below the root, for which the policy allows an operation. -/
structure Allowed (s : Service) (operation : WriteOperation) (p : Place) : Prop where
  writable : s.settings.workspace.readOnly = false
  below : p.absolute = s.sandbox.root ++ p.relative
  proper : p.relative ≠ []
  authorized : s.policy.authorize p.relative operation = .ok ()

/-- The operation by which a request may change files. -/
def mutation : Request → Option WriteOperation
  | .writeFile _ => some .write
  | .delete _ => some .delete
  | _ => none

/-- What an operation may make of a tree. -/
inductive Effect (s : Service) (t : FileTree) : Option WriteOperation → FileTree → Prop where
  | unchanged (o : Option WriteOperation) : Effect s t o t
  /-- A write that fails may leave the directories it made. -/
  | parents {p : Place} {t' : FileTree} (allowed : s.Allowed .write p)
      (grows : t.Grows p.absolute.parent t') : Effect s t (some .write) t'
  | written {p : Place} {t₁ : FileTree} (content : ByteArray) (allowed : s.Allowed .write p)
      (grows : t.Grows p.absolute.parent t₁) (directory : t₁.isDirectory p.absolute.parent)
      (file : ¬ t₁.isDirectory p.absolute)
      (backup : s.policy.backupOnWrite →
        (∃ bytes mode, t₁.entry? p.absolute = some (.file bytes mode)) →
          ¬ t₁.isDirectory (backupOf p.absolute)) :
      Effect s t (some .write) ((backedUp t₁ s.policy.backupOnWrite p.absolute).put p.absolute
        (.file content (modeAt t₁ p.absolute)))
  | removed {p : Place} {t' : FileTree} (allowed : s.Allowed .delete p)
      (removed : t.Removed p.absolute t') : Effect s t (some .delete) t'

theorem authorize_eq_ok (h : s.authorize p operation = .ok ()) :
    s.policy.authorize p.relative operation = .ok () := by
  unfold authorize at h
  split_ifs at h
  exact mapError_eq_ok.mp h

theorem ensureWritable_eq_ok (h : s.ensureWritable = .ok ()) :
    s.settings.workspace.readOnly = false := by
  unfold ensureWritable at h
  split_ifs at h with hr
  simpa using hr

theorem ensureWritable_of_not_readOnly (h : s.settings.workspace.readOnly = false) :
    s.ensureWritable = .ok () := by
  simp [ensureWritable, h]

theorem planWrite_eq_ok {q : Request.WriteFile} (h : s.planWrite t q = .ok (p, bytes)) :
    s.settings.workspace.readOnly = false ∧ s.sandbox.resolve t q.path = .ok p ∧
      s.policy.authorize p.relative .write = .ok () := by
  obtain ⟨⟨⟩, hr, h⟩ := bind_eq_ok.mp h
  obtain ⟨p', hp, h⟩ := bind_eq_ok.mp h
  obtain ⟨⟨⟩, ha, h⟩ := bind_eq_ok.mp h
  obtain ⟨bytes', -, h⟩ := bind_eq_ok.mp h
  obtain ⟨rfl, -⟩ := Prod.mk.inj (Except.ok.inj h)
  exact ⟨ensureWritable_eq_ok hr, hp, authorize_eq_ok ha⟩

theorem delete_iff {q : Request.Delete} {a : Response.Deleted} : s.delete t q = .ok (a, t') ↔
    ∃ p, s.ensureWritable = .ok () ∧ s.sandbox.resolveEntry t q.path = .ok p ∧
      s.authorize p .delete = .ok () ∧ p.delete t q.recursive = .ok t' ∧
      a = { ok := true, path := p.relative.display } := by
  constructor
  · intro h
    obtain ⟨⟨⟩, hr, h⟩ := bind_eq_ok.mp h
    obtain ⟨p, hp, h⟩ := bind_eq_ok.mp h
    obtain ⟨⟨⟩, ha, h⟩ := bind_eq_ok.mp h
    obtain ⟨t₁, hd, h⟩ := bind_eq_ok.mp h
    obtain ⟨rfl, rfl⟩ := Prod.mk.inj (Except.ok.inj h)
    exact ⟨p, hr, hp, ha, hd, rfl⟩
  · rintro ⟨p, hr, hp, ha, hd, rfl⟩
    simp only [delete, hr, hp, ha, hd, ok_bind]
    rfl

theorem perform_delete_eq_ok {q : Request.Delete} {a : Response}
    (h : s.perform w (.delete q) = (.ok a, w')) : ∃ b t', s.delete w.tree q = .ok (b, t') ∧
      a = .deleted b ∧ w' = { w with tree := t' } := by
  simp only [perform] at h
  split at h
  · next b t' hd =>
    obtain ⟨ha, rfl⟩ := Prod.mk.inj h
    exact ⟨b, t', hd, (Except.ok.inj ha).symm, rfl⟩
  · cases congrArg Prod.fst h

theorem delete_eq_ok {q : Request.Delete} {a : Response.Deleted}
    (h : s.delete t q = .ok (a, t')) : ∃ p, s.settings.workspace.readOnly = false ∧
      s.sandbox.resolveEntry t q.path = .ok p ∧ s.policy.authorize p.relative .delete = .ok () ∧
      p.delete t q.recursive = .ok t' := by
  obtain ⟨p, hr, hp, ha, hd, -⟩ := delete_iff.mp h
  exact ⟨p, ensureWritable_eq_ok hr, hp, authorize_eq_ok ha, hd⟩

theorem write_root_eq_error {content : ByteArray} {createParents backup : Bool}
    (h : p.relative = []) : (p.write t content createParents backup).2 = t := by
  simp [Place.write, Place.isRoot, h]

theorem effect_writeFile (ha : s.sandbox.Anchored t) (hc : t.Closed) (q : Request.WriteFile) :
    s.Effect t (some .write) (s.writeFile t q).2 := by
  unfold writeFile
  split
  · exact .unchanged _
  · next p bytes hplan =>
    obtain ⟨hr, hp, hauth⟩ := planWrite_eq_ok hplan
    obtain ⟨hbelow, hreached⟩ := resolve_eq_ok ha hp
    by_cases hproper : p.relative = []
    · rw [write_root_eq_error hproper]
      exact .unchanged _
    · have hallowed : s.Allowed .write p := ⟨hr, hbelow, hproper, hauth⟩
      rcases hw : p.write t bytes q.createParents s.policy.backupOnWrite with ⟨e | a, t'⟩
      · rcases Place.write_eq_error hbelow hc hreached hw with rfl | ⟨-, hg, -⟩
        · exact .unchanged _
        · exact .parents hallowed hg
      · obtain ⟨t₁, hg, -, -, hd, hfile, hbak, rfl⟩ := Place.write_eq_ok hbelow hc hreached hw
        exact .written bytes hallowed hg hd hfile hbak

/-- What a request can do to the tree. -/
theorem effect_perform (ha : s.sandbox.Anchored w.tree) (hc : w.tree.Closed) (q : Request) :
    s.Effect w.tree (mutation q) (s.perform w q).2.tree := by
  cases q with
  | writeFile q => exact effect_writeFile ha hc q
  | delete q =>
    simp only [perform]
    split
    · next a t' hd =>
      obtain ⟨p, hr, hp, hauth, hd⟩ := delete_eq_ok hd
      obtain ⟨hbelow, -, hs⟩ := resolveEntry_eq_ok ha hp
      obtain ⟨hproper, hremoved⟩ := Place.delete_eq_ok hbelow hc hs hd
      exact .removed ⟨hr, hbelow, hproper, hauth⟩ hremoved
    · exact .unchanged _
  | indexSymbols q | graphDependencies q =>
    simp only [perform]
    split <;> exact .unchanged _
  | _ => exact .unchanged _

/-! ## What every request keeps -/

/-- Strictly below the root of the sandbox. -/
def Inside (s : Service) (x : Location) : Prop := s.sandbox.root <+: x ∧ x ≠ s.sandbox.root

theorem inside_append {q : Location} (hq : q ≠ []) : s.Inside (s.sandbox.root ++ q) :=
  ⟨List.prefix_append _ _, by simpa using hq⟩

theorem Allowed.inside (h : s.Allowed operation p) (hx : p.absolute <+: x) : s.Inside x := by
  obtain ⟨m, rfl⟩ := hx
  rw [h.below, List.append_assoc]
  exact inside_append (by simp [h.proper])

theorem Allowed.inside_backup (h : s.Allowed operation p) : s.Inside (backupOf p.absolute) := by
  rw [h.below, backupOf_append h.proper]
  exact inside_append (backupOf_ne_nil h.proper)

theorem Allowed.absolute_ne_nil (h : s.Allowed operation p) : p.absolute ≠ [] := by
  simp [h.below, h.proper]

/-- The directories that are made are strictly below the root. -/
theorem Allowed.entry?_grows (h : s.Allowed operation p) (ha : s.sandbox.Anchored t)
    (hg : t.Grows p.absolute.parent t') (hx : ¬ s.Inside x) : t'.entry? x = t.entry? x := by
  rcases hg.entry? x with hsame | ⟨hpre, habsent, -⟩
  · exact hsame
  · exfalso
    have hxp : x <+: s.sandbox.root ++ p.relative := by
      rw [← h.below]
      exact hpre.trans (List.dropLast_prefix _)
    have hroot : ¬ x <+: s.sandbox.root := fun hxr => by
      obtain ⟨e, he, -⟩ := (ha.canonical.of_prefix hxr).here
      simp [habsent] at he
    rcases List.prefix_or_prefix_of_prefix hxp (List.prefix_append _ _) with hxr | hrx
    · exact hroot hxr
    · exact hx ⟨hrx, fun heq => hroot (heq ▸ List.prefix_refl _)⟩

/-- What is not strictly below the root stays as it is. -/
theorem Effect.entry?_of_not_inside (h : s.Effect t o t') (ha : s.sandbox.Anchored t)
    (hx : ¬ s.Inside x) : t'.entry? x = t.entry? x := by
  cases h with
  | unchanged => rfl
  | parents allowed grows => exact allowed.entry?_grows ha grows hx
  | written content allowed grows directory file backup =>
    have hne : x ≠ _ := fun heq => hx (heq ▸ allowed.inside (List.prefix_refl _))
    have hbak : x ≠ _ := fun heq => hx (heq ▸ allowed.inside_backup)
    rw [entry?_put_of_ne hne, entry?_backedUp_of_ne _ hbak, allowed.entry?_grows ha grows hx]
  | removed allowed removed => exact removed.kept x fun hpre => hx (allowed.inside hpre)

theorem Effect.closed (h : s.Effect t o t') (hc : t.Closed) : t'.Closed := by
  cases h with
  | unchanged => exact hc
  | parents allowed grows => exact grows.closed hc
  | @written p t₁ content allowed grows directory file backup =>
    have hl := allowed.absolute_ne_nil
    refine (Closed.backedUp (grows.closed hc) hl directory backup).put ?_ ?_
    · rw [isDirectory_iff, entry?_backedUp_of_ne _ (backupOf_ne_dropLast hl).symm]
      exact isDirectory_iff.mp directory
    · rwa [isDirectory_iff, entry?_backedUp_of_ne _ (backupOf_ne hl).symm, ← isDirectory_iff]
  | removed allowed removed => exact removed.closed

theorem Effect.anchored (h : s.Effect t o t') (ha : s.sandbox.Anchored t) :
    s.sandbox.Anchored t' := by
  -- nothing at or above the root is inside
  have hsame : ∀ q, q <+: s.sandbox.root → t'.entry? q = t.entry? q := by
    intro q hq
    apply h.entry?_of_not_inside ha
    intro hin
    exact hin.2 (hq.eq_of_length_le hin.1.length_le)
  refine ⟨ha.canonical.congr hsame, ?_⟩
  rw [isDirectory_iff, hsame _ (List.prefix_refl _)]
  exact isDirectory_iff.mp ha.directory

/-! ## How an entry below the root changes -/

/-- How the entry at `q` below the root came to change. -/
inductive Change (s : Service) (t t' : FileTree) (q : Location) : WriteOperation → Prop where
  /-- A directory that was missing on the way to the target of a write. -/
  | made {target : Location} (way : q <+: target)
      (allowed : s.policy.authorize target .write = .ok ())
      (before : t.entry? (s.sandbox.root ++ q) = none)
      (after : t'.entry? (s.sandbox.root ++ q) = some .directory) : Change s t t' q .write
  | written {bytes : ByteArray} {mode : Nat} (allowed : s.policy.authorize q .write = .ok ())
      (before : ¬ t.isDirectory (s.sandbox.root ++ q))
      (after : t'.entry? (s.sandbox.root ++ q) = some (.file bytes mode)) : Change s t t' q .write
  /-- The file that was at the target of a write is kept beside it. -/
  | backup {target : Location} {bytes : ByteArray} {mode : Nat}
      (kept : s.policy.backupOnWrite) (beside : q = backupOf target)
      (allowed : s.policy.authorize target .write = .ok ())
      (before : ¬ t.isDirectory (s.sandbox.root ++ q))
      (source : t.entry? (s.sandbox.root ++ target) = some (.file bytes mode))
      (after : t'.entry? (s.sandbox.root ++ q) = some (.file bytes mode)) : Change s t t' q .write
  | removed (allowed : s.policy.authorize q .delete = .ok ())
      (before : t.entry? (s.sandbox.root ++ q) ≠ none) : Change s t t' q .delete

/-- A location on the way to what is made is a directory before only if it is one after. -/
theorem not_isDirectory_of_grows {l : Location} (hg : t.Grows l t') (h : ¬ t'.isDirectory x) :
    ¬ t.isDirectory x :=
  fun hd => h (hg.isDirectory hd)

section Written

variable {t₁ : FileTree} {q : Location} {mode : Nat}
variable (allowed : s.Allowed .write p) (grows : t.Grows p.absolute.parent t₁)
include allowed grows

/-- A location that grew did so on the way to the target. -/
theorem change_on_way
    (hsame : t'.entry? (s.sandbox.root ++ q) = t₁.entry? (s.sandbox.root ++ q))
    (hx : t'.entry? (s.sandbox.root ++ q) ≠ t.entry? (s.sandbox.root ++ q)) :
    s.Change t t' q .write := by
  rcases grows.entry? (s.sandbox.root ++ q) with hkept | ⟨hpre, hbefore, hafter⟩
  · exact absurd (hsame.trans hkept) hx
  · have hway : s.sandbox.root ++ q <+: s.sandbox.root ++ p.relative :=
      allowed.below ▸ hpre.trans (List.dropLast_prefix _)
    exact .made ((List.prefix_append_right_inj _).mp hway) allowed.authorized hbefore
      (hsame.trans hafter)

theorem change_at_target (hxp : s.sandbox.root ++ q = p.absolute)
    (file : ¬ t₁.isDirectory p.absolute)
    (hafter : t'.entry? p.absolute = some (.file bytes mode)) : s.Change t t' q .write := by
  have hq : q = p.relative := List.append_cancel_left (hxp.trans allowed.below)
  refine .written (hq ▸ allowed.authorized) ?_ (hxp ▸ hafter)
  rw [hxp]
  exact not_isDirectory_of_grows grows file

theorem change_at_backup (hxb : s.sandbox.root ++ q = backupOf p.absolute)
    (hkept : s.policy.backupOnWrite) (hf : t₁.entry? p.absolute = some (.file bytes mode))
    (hplain : ¬ t₁.isDirectory (backupOf p.absolute))
    (hafter : t'.entry? (backupOf p.absolute) = some (.file bytes mode)) :
    s.Change t t' q .write := by
  -- no directory was made at the target, so its file was there before
  have hsource : t.entry? p.absolute = some (.file bytes mode) := by
    rcases grows.entry? p.absolute with hsame | ⟨-, -, hdir⟩
    · exact hsame ▸ hf
    · simp [hf] at hdir
  have hq : q = backupOf p.relative := by
    rw [allowed.below, backupOf_append allowed.proper] at hxb
    exact List.append_cancel_left hxb
  refine .backup hkept hq allowed.authorized ?_ (allowed.below ▸ hsource) (hxb ▸ hafter)
  rw [hxb]
  exact not_isDirectory_of_grows grows hplain

end Written

/-- Every entry below the root that an effect changes is accounted for. -/
theorem Effect.change {q : Location} (h : s.Effect t o t')
    (hx : t'.entry? (s.sandbox.root ++ q) ≠ t.entry? (s.sandbox.root ++ q)) :
    ∃ operation, o = some operation ∧ s.Change t t' q operation := by
  cases h with
  | unchanged => exact absurd rfl hx
  | parents allowed grows => exact ⟨.write, rfl, change_on_way allowed grows rfl hx⟩
  | @written p t₁ content allowed grows directory file backup =>
    refine ⟨.write, rfl, ?_⟩
    by_cases hxp : s.sandbox.root ++ q = p.absolute
    · exact change_at_target allowed grows hxp file (entry?_put_self allowed.absolute_ne_nil)
    · have hback := entry?_put_of_ne (t := backedUp t₁ s.policy.backupOnWrite p.absolute)
        (e := .file content (modeAt t₁ p.absolute)) hxp
      by_cases hxb : s.sandbox.root ++ q = backupOf p.absolute
      · -- the backup, if one was made
        rcases backedUp_cases t₁ s.policy.backupOnWrite p.absolute with
          heq | ⟨hkept, bytes, mode, hf, heq⟩
        · exact change_on_way allowed grows (hback.trans (by rw [heq])) hx
        · refine change_at_backup allowed grows hxb hkept hf (backup hkept ⟨bytes, mode, hf⟩) ?_
          rw [← hxb, hback, heq, hxb, entry?_put_self (backupOf_ne_nil allowed.absolute_ne_nil)]
      · rw [entry?_backedUp_of_ne _ hxb] at hback
        exact change_on_way allowed grows hback hx
  | @removed p t' allowed removed =>
    have hpre : p.absolute <+: s.sandbox.root ++ q := by
      by_contra hno
      exact hx (removed.kept _ hno)
    have hgone := removed.gone _ hpre
    rw [allowed.below] at hpre
    refine ⟨.delete, rfl, .removed ?_ fun hnone => hx (hgone.trans hnone.symm)⟩
    exact WritePolicy.authorize_delete_below allowed.authorized
      ((List.prefix_append_right_inj _).mp hpre)

/-! ## Runs -/

/-- The state after requests, one after the other. -/
def run (s : Service) (w : Workspace) (requests : List Request) : Workspace :=
  requests.foldl (fun w q => (s.perform w q).2) w

/-- What every effect in a sound tree keeps holds after every run. -/
theorem run_induction {P : FileTree → Prop} (requests : List Request)
    (ha : s.sandbox.Anchored w.tree) (hc : w.tree.Closed) (h : P w.tree)
    (hstep : ∀ t o t', s.sandbox.Anchored t → t.Closed → P t → s.Effect t o t' → P t') :
    s.sandbox.Anchored (s.run w requests).tree ∧ (s.run w requests).tree.Closed ∧
      P (s.run w requests).tree := by
  induction requests generalizing w with
  | nil => exact ⟨ha, hc, h⟩
  | cons q requests ih =>
    have he := effect_perform ha hc q
    exact ih (he.anchored ha) (he.closed hc) (hstep _ _ _ ha hc h he)

end Worksite.Service
