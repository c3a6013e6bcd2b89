import Worksite.Proofs.Place.Interruption

/-!
One step of a write over a file that it keeps, while another write of the file is under way. It
changes the passing file of the write, the target or its backup, so that whatever the other one has
in hand stays as it is.
-/
namespace Worksite

open FileTree

variable {w w' v : Writing} {u u' : FileTree} {d l x : Location} {name s : String}
  {step : Writing.Step} {rest : List Writing.Step} {bytes held copied : ByteArray} {mode : Nat}

/-- A file that is renamed in a directory is gone from its old place. -/
theorem FileTree.rename_eq_ok {e : Entry} (hc : u.Canonical d) (hd : u.isDirectory d)
    (he : u.entry? (d ++ [name]) = some e) (h : u.rename (d ++ [name]) (d ++ [s]) = .ok u') :
    u' = (u.erase (d ++ [name])).put (d ++ [s]) e := by
  unfold rename at h
  obtain ⟨p, hp, h⟩ := bind_eq_ok.mp h
  obtain ⟨q, hq, h⟩ := bind_eq_ok.mp h
  obtain ⟨rfl, -, -⟩ := seat_concat_eq_ok hc hd hp
  obtain ⟨rfl, -, -⟩ := seat_concat_eq_ok hc hd hq
  rw [he] at h
  split at h
  · cases h
  · cases h
  · next hsome _ =>
    obtain rfl := Option.some.inj hsome
    exact (Except.ok.inj h).symm

namespace Writing

/-! ## One step of a write -/

/-- A write that keeps the file that it replaces, over a file that the system can look at. -/
structure Over (w : Writing) (u : FileTree) (name : String) (held : ByteArray) (mode : Nat) :
    Prop where
  target : w.target.absolute = w.directory ++ [name]
  keeping : w.backup
  checked : checkPath w.target.absolute = .ok ()
  canonical : u.Canonical w.target.absolute
  entry : u.entry? w.target.absolute = some (.file held mode)

theorem Over.parent (h : w.Over u name held mode) :
    u.Canonical w.directory ∧ u.isDirectory w.directory :=
  canonical_directory h.canonical h.target

theorem Over.find (h : w.Over u name held mode) :
    u.find true w.target.absolute = .ok (.file held mode) :=
  h.canonical.find h.checked h.entry

/-- The passing file of a write, which is not its target. -/
structure Passes (w : Writing) (u : FileTree) (bytes : ByteArray) (mode : Nat) : Prop where
  passing : ∃ n, w.passing = some (w.directory ++ [passingName n])
  apart : w.passing ≠ some w.target.absolute
  entry : ∀ x, w.passing = some x → u.entry? x = some (.file bytes mode)

/-- What a write has in hand before the steps that it has left. -/
def InHand (w : Writing) (u : FileTree) (copied : ByteArray) (mode : Nat) : List Step → Prop
  | .makeParents :: _ | .inspect :: _ | [] => w.passing = none
  | .openBackup :: _ | .openNew :: _ => w.mode = some mode ∧ w.passing = none
  | .copy :: _ | .fill :: _ => w.mode = some mode ∧ ∃ bytes m, w.Passes u bytes m
  | .placeBackup :: _ => w.mode = some mode ∧ w.Passes u copied mode
  | .place :: _ => w.mode = some mode ∧ w.Passes u w.content mode

/-- What a step of a write comes to: what it has in hand then, what is at the target and at its
backup, and that all else but its passing file is as it was. -/
structure Moved (w : Writing) (u : FileTree) (held copied : ByteArray) (mode : Nat) (s : Step)
    (rest : List Step) (w' : Writing) (u' : FileTree) : Prop where
  same : w'.target = w.target ∧ w'.content = w.content ∧ w'.backup = w.backup
  inHand : w'.InHand u' (if s = .copy then held else copied) mode rest
  target : u'.entry? w.target.absolute =
    some (.file (if s = .place then w.content else held) mode)
  backup : u'.entry? (backupOf w.target.absolute) =
    if s = .placeBackup then some (.file copied mode) else u.entry? (backupOf w.target.absolute)
  passing : ∀ x, w'.passing = some x → w.passing = some x ∨ u.entry? x = none
  elsewhere : ∀ x, x ≠ w.target.absolute → x ≠ backupOf w.target.absolute →
    w.passing ≠ some x → w'.passing ≠ some x → u'.entry? x = u.entry? x

/-- A step that changes no file. -/
theorem moved_idle (h : w.Over u name held mode)
    (hs : step ≠ .copy ∧ step ≠ .placeBackup ∧ step ≠ .place)
    (hw : w'.target = w.target ∧ w'.content = w.content ∧ w'.backup = w.backup ∧
      w'.passing = w.passing)
    (hc : w'.InHand u copied mode rest) : Moved w u held copied mode step rest w' u := by
  obtain ⟨htarget, hcontent, hbackup, hpassing⟩ := hw
  refine ⟨⟨htarget, hcontent, hbackup⟩, ?_, ?_, ?_, ?_, fun _ _ _ _ _ => rfl⟩
  · rw [if_neg hs.1]
    exact hc
  · rw [if_neg hs.2.2]
    exact h.entry
  · rw [if_neg hs.2.1]
  · intro x hx
    exact .inl (hpassing ▸ hx)

/-- What is put at a passing file changes neither the target nor its backup. -/
theorem Over.put_passing (h : w.Over u name held mode) {n : Nat}
    (hl : l = w.directory ++ [passingName n]) (hne : l ≠ w.target.absolute) (e : Entry) :
    entry? (u.put l e) w.target.absolute = some (.file held mode) ∧
      entry? (u.put l e) (backupOf w.target.absolute) =
        u.entry? (backupOf w.target.absolute) := by
  constructor
  · rw [entry?_put_of_ne hne.symm, h.entry]
  · apply entry?_put_of_ne
    rw [h.target, backupOf_concat, hl]
    exact (passing_ne_backup _ n name).symm

/-- A new passing file. -/
theorem moved_open (h : w.Over u name held mode)
    (hs : step ≠ .copy ∧ step ≠ .placeBackup ∧ step ≠ .place) (hm : w.mode = some mode)
    (hrest : rest.head? = some .copy ∨ rest.head? = some .fill)
    (hstep : w.openPassing u = (.ok w', u')) : Moved w u held copied mode step rest w' u' := by
  obtain ⟨hc, hd⟩ := h.parent
  obtain ⟨n, hn, habsent, -⟩ := freshName_spec u w.directory
  have hne : w.directory ++ [passingName n] ≠ w.target.absolute := by
    intro heq
    rw [heq, h.entry] at habsent
    cases habsent
  rw [openPassing_eq hc hd, hn] at hstep
  split at hstep
  · obtain ⟨hw, rfl⟩ := Prod.mk.inj hstep
    obtain rfl := Except.ok.inj hw
    obtain ⟨htarget, hbackup⟩ := h.put_passing rfl hne (.file .empty 0o600)
    have hpasses : ({ w with passing := some (w.directory ++ [passingName n]) } : Writing).Passes
        (u.put (w.directory ++ [passingName n]) (.file .empty 0o600)) .empty 0o600 := by
      refine ⟨⟨n, rfl⟩, fun heq => hne (Option.some.inj heq), fun x hx => ?_⟩
      obtain rfl := Option.some.inj hx
      exact entry?_put_self (by simp)
    refine ⟨⟨rfl, rfl, rfl⟩, ?_, ?_, ?_, ?_, ?_⟩
    · cases rest with
      | nil => rcases hrest with hrest | hrest <;> cases hrest
      | cons s rest =>
        rcases hrest with hrest | hrest
        all_goals
          obtain rfl := Option.some.inj hrest
          exact ⟨hm, _, _, hpasses⟩
    · rw [if_neg hs.2.2, htarget]
    · rw [if_neg hs.2.1, hbackup]
    · intro x hx
      obtain rfl := Option.some.inj hx
      exact .inr habsent
    · intro x _ _ _ hx
      exact entry?_put_of_ne fun heq => hx (congrArg some heq.symm)
  · cases congrArg Prod.fst hstep

/-- A passing file that is filled. -/
theorem moved_fill (h : w.Over u name held mode) (hs : step ≠ .placeBackup ∧ step ≠ .place)
    (hm : w.mode = some mode) (hp : ∃ bytes m, w.Passes u bytes m)
    (hrest : w.Passes (w.fillPassing u bytes) bytes mode →
      w.InHand (w.fillPassing u bytes) (if step = .copy then held else copied) mode rest) :
    Moved w u held copied mode step rest w (w.fillPassing u bytes) := by
  obtain ⟨_, _, ⟨n, hpassing⟩, hne, -⟩ := hp
  have hne' : w.directory ++ [passingName n] ≠ w.target.absolute :=
    fun heq => hne (hpassing.trans (congrArg some heq))
  have hfill : w.fillPassing u bytes =
      u.put (w.directory ++ [passingName n]) (.file bytes mode) := by
    rw [fillPassing, hpassing, hm, Option.getD_some]
  obtain ⟨htarget, hbackup⟩ := h.put_passing rfl hne' (.file bytes mode)
  refine ⟨⟨rfl, rfl, rfl⟩, hrest ⟨⟨n, hpassing⟩, hne, fun x hx => ?_⟩, ?_, ?_, ?_, ?_⟩
  · obtain rfl := Option.some.inj (hpassing.symm.trans hx)
    rw [hfill]
    exact entry?_put_self (by simp)
  · rw [if_neg hs.2, hfill, htarget]
  · rw [if_neg hs.1, hfill, hbackup]
  · intro x hx
    exact .inl hx
  · intro x _ _ hx _
    rw [hfill]
    exact entry?_put_of_ne fun heq => hx (hpassing.trans (congrArg some heq.symm))

/-- A passing file that is renamed beside its target, or over it. -/
theorem settle_eq_ok (h : w.Over u name held mode) (hp : w.Passes u bytes mode)
    (hstep : w.settle u (w.directory ++ [s]) = (.ok w', u')) :
    w' = { w with passing := none } ∧
      u'.entry? (w.directory ++ [s]) = some (.file bytes mode) ∧
      ∀ x, x ≠ w.directory ++ [s] → w.passing ≠ some x → u'.entry? x = u.entry? x := by
  obtain ⟨hc, hd⟩ := h.parent
  obtain ⟨n, hpassing⟩ := hp.passing
  rw [settle, hpassing] at hstep
  obtain ⟨hw, hrename⟩ := proceed_ok hstep
  obtain rfl := rename_eq_ok hc hd (hp.entry _ hpassing) hrename
  refine ⟨hw, entry?_put_self (by simp), fun x hx hne => ?_⟩
  have hne' : x ≠ w.directory ++ [passingName n] :=
    fun heq => hne (hpassing.trans (congrArg some heq.symm))
  rw [entry?_put_of_ne hx, entry?_erase_of_ne hne']

theorem keeps_of (h : w.Over u name held mode) (hm : w.mode = some mode) : w.keeps := by
  rw [keeps, hm, h.keeping]
  rfl

/-- The steps behind one that is the next of those that are left. -/
theorem rest_of_left (h : step :: rest <:+ steps) :
    rest = steps.drop (steps.idxOf step + 1) := by
  cases step <;> simpa [steps, List.suffix_cons_iff] using h

theorem Over.makeParents_eq (h : w.Over u name held mode) : w.makeParents u = (.ok w, u) := by
  obtain ⟨hc, hd⟩ := h.parent
  have hchecked : checkPath w.directory = .ok () :=
    checkPath_above h.checked (List.dropLast_prefix _)
  exact if_pos (hc.straight.leadsToDirectory_iff.mpr ⟨hchecked, hc, hd⟩)

theorem Over.inspect_eq (h : w.Over u name held mode) :
    w.inspect u = (.ok { w with mode := some mode }, u) := by
  rw [inspect, h.find]

theorem Over.copy_eq (h : w.Over u name held mode) :
    w.copy u = (.ok w, w.fillPassing u held) := by
  rw [copy, h.find]
  rfl

/-- A backup that is put in its place. -/
theorem moved_placeBackup (h : w.Over u name held mode) (hm : w.mode = some mode)
    (hp : w.Passes u copied mode) (hstep : w.placeBackup u = (.ok w', u')) :
    Moved w u held copied mode .placeBackup (.openNew :: rest) w' u' := by
  have hdir : w.target.absolute = w.directory ++ [name] := h.target
  rw [placeBackup, hdir, backupOf_concat] at hstep
  split at hstep
  · next settled hsettle =>
    obtain ⟨rfl, hput, hframe⟩ := settle_eq_ok h hp hsettle
    obtain ⟨hw, rfl⟩ := Prod.mk.inj hstep
    obtain rfl := Except.ok.inj hw
    refine ⟨⟨rfl, rfl, rfl⟩, ⟨hm, rfl⟩, ?_, ?_, fun x hx => ?_, ?_⟩
    · rw [hdir, hframe _ (concat_ne_backup _ _) (hdir ▸ hp.apart), ← hdir]
      exact h.entry
    · rw [hdir, backupOf_concat]
      exact hput
    · cases hx
    · intro x _ hx hpassing _
      rw [hdir, backupOf_concat] at hx
      exact hframe x hx hpassing
  · next hfailed => exact absurd hstep (hfailed _ _)

/-- The new bytes that are put in their place. -/
theorem moved_place (h : w.Over u name held mode) (hp : w.Passes u w.content mode)
    (hstep : w.settle u w.target.absolute = (.ok w', u')) :
    Moved w u held copied mode .place [] w' u' := by
  have hdir : w.target.absolute = w.directory ++ [name] := h.target
  rw [hdir] at hstep
  obtain ⟨rfl, hput, hframe⟩ := settle_eq_ok h hp hstep
  refine ⟨⟨rfl, rfl, rfl⟩, rfl, hdir ▸ hput, ?_, fun x hx => ?_, ?_⟩
  · rw [hdir, backupOf_concat]
    refine hframe _ (concat_ne_backup _ _).symm fun hpassing => ?_
    obtain ⟨n, hn⟩ := hp.passing
    exact passing_ne_backup _ n name (Option.some.inj (hn.symm.trans hpassing))
  · cases hx
  · intro x hx _ hpassing _
    exact hframe x (hdir ▸ hx) hpassing

/-- Each step of a write that has its way over the file. -/
theorem moved_step (h : w.Over u name held mode) (hleft : step :: rest <:+ steps)
    (hc : w.InHand u copied mode (step :: rest)) (hstep : w.step u step = (.ok w', u')) :
    Moved w u held copied mode step rest w' u' := by
  obtain rfl := rest_of_left hleft
  cases step with
  | makeParents =>
    rw [Writing.step, h.makeParents_eq] at hstep
    cases hstep
    exact moved_idle h (by simp) ⟨rfl, rfl, rfl, rfl⟩ hc
  | inspect =>
    rw [Writing.step, h.inspect_eq] at hstep
    cases hstep
    exact moved_idle h (by simp) ⟨rfl, rfl, rfl, rfl⟩ ⟨rfl, hc⟩
  | openBackup =>
    rw [Writing.step, if_pos (keeps_of h hc.1)] at hstep
    exact moved_open h (by simp) hc.1 (.inl rfl) hstep
  | copy =>
    obtain ⟨hm, hpasses⟩ := hc
    rw [Writing.step, if_pos (keeps_of h hm), h.copy_eq] at hstep
    cases hstep
    exact moved_fill h (by simp) hm hpasses fun hfilled => ⟨hm, hfilled⟩
  | placeBackup =>
    rw [Writing.step, if_pos (keeps_of h hc.1)] at hstep
    exact moved_placeBackup h hc.1 hc.2 hstep
  | openNew => exact moved_open h (by simp) hc.1 (.inr rfl) hstep
  | fill =>
    cases hstep
    exact moved_fill h (by simp) hc.1 hc.2 fun hfilled => ⟨hc.1, hfilled⟩
  | place => exact moved_place h hc.2 hstep

/-! ## The other write -/

theorem InHand.passing {left : List Step} (h : w.InHand u copied mode left) :
    w.passing = none ∨ ∃ bytes m, w.Passes u bytes m := by
  cases left with
  | nil => exact .inl h
  | cons s _ =>
    cases s with
    | makeParents | inspect => exact .inl h
    | openBackup | openNew => exact .inl h.2
    | copy | fill => exact .inr h.2
    | placeBackup | place => exact .inr ⟨_, _, h.2⟩

section Moved

variable (h : w.Over u name held mode) (hm : Moved w u held copied mode step rest w' u')
include h hm

/-- Whoever writes over the file finds what the step has left there. -/
theorem Moved.over (hp : w.passing = none ∨ ∃ bytes m, w.Passes u bytes m)
    (hv : v.target = w.target) (hb : v.backup) :
    v.Over u' name (if step = .place then w.content else held) mode := by
  have habsolute : v.target.absolute = w.target.absolute := by rw [hv]
  have hdir : v.directory = w.directory := by rw [directory, directory, hv]
  refine ⟨?_, hb, ?_, ⟨?_, fun q hq hne => ?_, ?_⟩, ?_⟩
  · rw [habsolute, hdir, h.target]
  · rw [habsolute, h.checked]
  · rw [habsolute]
    exact h.canonical.names
  · -- a directory above the file is none of the places that change
    rw [habsolute] at hq hne
    have hd := isDirectory_iff.mp (h.canonical.above q hq hne)
    have hmine : w.passing ≠ some q := by
      intro hx
      rcases hp with hnone | ⟨_, _, hpasses⟩
      · cases hnone.symm.trans hx
      · cases (hpasses.entry q hx).symm.trans hd
    have hnew : w'.passing ≠ some q := by
      intro hx
      rcases hm.passing q hx with hx | habsent
      · exact hmine hx
      · cases habsent.symm.trans hd
    have hbackup : q ≠ backupOf w.target.absolute := by
      rintro rfl
      have hlen := hq.length_le
      rw [h.target, backupOf_concat] at hlen hq
      exact concat_ne_backup _ _ (hq.eq_of_length (by simp)).symm
    rw [isDirectory_iff, hm.elsewhere q hne hbackup hmine hnew, hd]
  · rw [habsolute]
    exact ⟨_, hm.target, by simp⟩
  · rw [habsolute, hm.target]

omit h in
/-- What is put aside is found by none but the write that has put it there. -/
theorem Moved.apart (hapart : ∀ x, v.passing = some x → w.passing ≠ some x)
    (hp : v.passing = none ∨ ∃ bytes m, v.Passes u bytes m) :
    ∀ x, v.passing = some x → w'.passing ≠ some x := by
  intro x hx hx'
  rcases hm.passing x hx' with hmine | habsent
  · exact hapart x hx hmine
  · rcases hp with hnone | ⟨_, _, hpasses⟩
    · cases hnone.symm.trans hx
    · cases (hpasses.entry x hx).symm.trans habsent

theorem Moved.passes {m : Nat} (hv : v.target = w.target)
    (hapart : ∀ x, v.passing = some x → w.passing ≠ some x) (hp : v.Passes u bytes m) :
    v.Passes u' bytes m := by
  refine ⟨hp.passing, hp.apart, fun x hx => ?_⟩
  have hdir : v.directory = w.directory := by rw [directory, directory, hv]
  rw [hm.elsewhere x ?_ ?_ (hapart x hx) (hm.apart hapart (.inr ⟨_, _, hp⟩) x hx), hp.entry x hx]
  · rintro rfl
    exact hp.apart (hv ▸ hx)
  · rintro rfl
    obtain ⟨n, hn⟩ := hp.passing
    have heq := Option.some.inj (hn.symm.trans hx)
    rw [hdir, h.target, backupOf_concat] at heq
    exact passing_ne_backup _ n name heq

theorem Moved.inHand_other {left : List Step} {c : ByteArray} (hv : v.target = w.target)
    (hapart : ∀ x, v.passing = some x → w.passing ≠ some x) (hc : v.InHand u c mode left) :
    v.InHand u' c mode left := by
  cases left with
  | nil => exact hc
  | cons s _ =>
    cases s with
    | makeParents | inspect | openBackup | openNew => exact hc
    | copy | fill =>
      obtain ⟨hmode, bytes, m, hp⟩ := hc
      exact ⟨hmode, bytes, m, hm.passes h hv hapart hp⟩
    | placeBackup | place => exact ⟨hc.1, hm.passes h hv hapart hc.2⟩

end Moved

end Writing

end Worksite
