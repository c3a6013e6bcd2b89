import Worksite.Proofs.Place.Steps

/-!
A write as a whole: parents may be made, a file may be backed up, and the file is put in place. A
write that fails leaves no more than the parents it made.
-/
namespace Worksite.Writing

open FileTree

variable {w : Writing} {t t' t₁ : FileTree} {l x : Location} {name : String} {bytes : ByteArray}

/-- The mode of a new file: that of the file that stood there. -/
def modeAt (t : FileTree) (l : Location) : Nat :=
  match t.entry? l with
  | some (.file _ mode) => mode
  | some (.socket _) => 0o755
  | _ => 0o600

/-- The tree with the backup of the file at `l`, if one is kept. -/
def backedUp (t : FileTree) (backup : Bool) (l : Location) : FileTree :=
  match t.entry? l with
  | some (.file bytes mode) => if backup then t.put (backupOf l) (.file bytes mode) else t
  | _ => t

/-- The names of the backup of the file at a place, if one is kept. -/
def keptAt (t : FileTree) (backup : Bool) (p : Place) : Option Location :=
  match t.entry? p.absolute with
  | some (.file _ _) => if backup then some (backupOf p.relative) else none
  | _ => none

/-- A backup changes nothing, or puts the file beside itself. -/
theorem backedUp_cases (t : FileTree) (backup : Bool) (l : Location) :
    backedUp t backup l = t ∨ backup ∧ ∃ bytes mode, t.entry? l = some (.file bytes mode) ∧
      backedUp t backup l = t.put (backupOf l) (.file bytes mode) := by
  unfold backedUp
  split
  · next bytes mode hf =>
    split_ifs with hb
    · exact .inr ⟨hb, bytes, mode, hf, rfl⟩
    · exact .inl rfl
  · exact .inl rfl

theorem entry?_backedUp_of_ne (backup : Bool) (hx : x ≠ backupOf l) :
    entry? (backedUp t backup l) x = t.entry? x := by
  rcases backedUp_cases t backup l with h | ⟨-, bytes, mode, -, h⟩
  · rw [h]
  · rw [h, entry?_put_of_ne hx]

theorem Closed.backedUp {backup : Bool} (hc : t.Closed) (hl : l ≠ [])
    (hd : t.isDirectory l.parent)
    (hb : backup → (∃ bytes mode, t.entry? l = some (.file bytes mode)) →
      ¬ t.isDirectory (backupOf l)) : (Writing.backedUp t backup l).Closed := by
  rcases backedUp_cases t backup l with h | ⟨hk, bytes, mode, hf, h⟩
  · rwa [h]
  · rw [h]
    refine hc.put ?_ (hb hk ⟨bytes, mode, hf⟩)
    rwa [dropLast_backupOf hl]

/-- A write whose parents are there. -/
structure Ready (w : Writing) (t : FileTree) (name : String) : Prop where
  canonical : t.Canonical w.directory
  directory : t.isDirectory w.directory
  checked : checkPath w.directory = .ok ()
  target : w.target.absolute = w.directory ++ [name]
  name : Path.IsName name
  straight : t.Straight w.target.absolute
  passing : w.passing = none

theorem Ready.of_mode (h : w.Ready t name) (mode : Option Nat) : Ready { w with mode } t name :=
  ⟨h.canonical, h.directory, h.checked, h.target, h.name, h.straight, h.passing⟩

/-- What a write comes to once its parents are there: the file and its backup are in place, or the
tree is as it was. -/
structure Settled (w : Writing) (t : FileTree) (name : String) (outcome : Outcome) : Prop where
  done : ∀ w', outcome.1 = .ok w' → ¬ t.isDirectory w.target.absolute ∧
    (w.backup → (∃ bytes mode, t.entry? w.target.absolute = some (.file bytes mode)) →
      ¬ t.isDirectory (backupOf w.target.absolute)) ∧
    outcome.2 = (backedUp t w.backup w.target.absolute).put w.target.absolute
      (.file w.content (modeAt t w.target.absolute))
  answered : ∀ w', outcome.1 = .ok w' → w'.target = w.target ∧ w'.content = w.content ∧
    w'.kept = (keptAt t w.backup w.target).or w.kept ∧ ∃ q, t.seat w.target.absolute = .ok q
  failed : ∀ e, outcome.1 = .error e → outcome.2 = t ∧
    (t.entry? w.target.absolute = none → name.contains '\x00' = false →
      e = w.target.systemError .nameTooLong)

theorem run_unkept (hc : t.Canonical w.directory) (hd : t.isDirectory w.directory)
    (hw : w.passing = none) (hl : w.target.absolute = w.directory ++ [name])
    (hk : w.keeps = false) :
    w.run t ([Step.openBackup, .copy, .placeBackup] ++ [Step.openNew, .fill, .place]) =
      w.proceed t (placed t w.directory name (.file w.content (w.mode.getD 0o600))) w := by
  rw [run_append, run_backup_of_keeps_not hk]
  exact run_new hc hd hw hl

theorem placed_eq_error {file : Entry} {cause : SystemError} (h : w.Ready t name)
    (ha : t.entry? w.target.absolute = none) (hn : name.contains '\x00' = false)
    (he : placed t w.directory name file = .error cause) : cause = .nameTooLong := by
  have hfresh : (t.freshName w.directory).contains '\x00' = false := by
    obtain ⟨n, hf, -⟩ := freshName_spec t w.directory
    rw [hf]
    exact contains_nul_passingName n
  have hdir : ¬ t.isDirectory (w.directory ++ [name]) := by
    rw [← h.target, isDirectory_iff, ha]
    simp
  unfold placed at he
  cases hp : t.seat (w.directory ++ [t.freshName w.directory]) with
  | error e =>
    rw [hp, error_bind] at he
    exact Except.error.inj he ▸ seat_concat_eq_error h.canonical h.directory h.checked hfresh hp
  | ok p =>
    cases hq : t.seat (w.directory ++ [name]) with
    | error e =>
      rw [hp, hq, ok_bind, error_bind] at he
      exact Except.error.inj he ▸ seat_concat_eq_error h.canonical h.directory h.checked hn hq
    | ok q =>
      rw [hp, hq, ok_bind, ok_bind, if_neg hdir] at he
      simp at he

/-- A write that has looked at its target and keeps no backup. -/
theorem settled_unkept (h : w.Ready t name) (hk : w.keeps = false)
    (hm : ∀ q, t.seat w.target.absolute = .ok q → ¬ t.isDirectory w.target.absolute →
      w.mode.getD 0o600 = modeAt t w.target.absolute)
    (hb : ∀ q, t.seat w.target.absolute = .ok q → w.backup →
      ∀ bytes mode, t.entry? w.target.absolute ≠ some (.file bytes mode)) :
    Settled w t name
      (w.run t ([Step.openBackup, .copy, .placeBackup] ++ [Step.openNew, .fill, .place])) := by
  rw [run_unkept h.canonical h.directory h.passing h.target hk]
  cases hp : placed t w.directory name (.file w.content (w.mode.getD 0o600)) with
  | error cause =>
    refine ⟨fun w' hw => by simp [proceed] at hw, fun w' hw => by simp [proceed] at hw,
      fun e he => ⟨rfl, fun ha hn => ?_⟩⟩
    obtain rfl := placed_eq_error h ha hn hp
    exact (Except.error.inj he).symm
  | ok t' =>
    obtain ⟨-, ⟨q, hq⟩, hd, rfl⟩ := placed_eq_ok.mp hp
    rw [← h.target] at hd hq
    refine ⟨fun w' _ => ⟨hd, ?_, ?_⟩, fun w' hw => ?_, fun e he => by simp [proceed] at he⟩
    · rintro hbak ⟨bytes, m, hf⟩
      exact absurd hf (hb q hq hbak bytes m)
    · have hkept : backedUp t w.backup w.target.absolute = t := by
        unfold backedUp
        split
        · next bytes m hf =>
          rw [if_neg fun hbak => hb q hq hbak bytes m hf]
        · rfl
      rw [hkept, ← hm q hq hd, h.target]
      rfl
    · have hnone : keptAt t w.backup w.target = none := by
        unfold keptAt
        split
        · next bytes m hf =>
          rw [if_neg fun hbak => hb q hq hbak bytes m hf]
        · rfl
      obtain rfl : w = w' := Except.ok.inj hw
      exact ⟨rfl, rfl, by rw [hnone, Option.none_or], q, hq⟩

/-- A write that has looked at its target, a file, and backs it up. -/
theorem settled_kept {mode : Nat} (h : w.Ready t name) (hc : t.Canonical w.target.absolute)
    (hp : checkPath w.target.absolute = .ok ())
    (he : t.entry? w.target.absolute = some (.file bytes mode)) (hm : w.mode = some mode)
    (hk : w.backup) : Settled w t name
      (w.run t ([Step.openBackup, .copy, .placeBackup] ++ [Step.openNew, .fill, .place])) := by
  have hdir : ¬ t.isDirectory w.target.absolute := by simp [isDirectory_iff, he]
  rw [run_append, run_backup hc hp he hm (by simp [keeps, hk, hm]) h.passing h.target]
  cases hpl : placed t w.directory (name ++ ".bak") (.file bytes mode) with
  | error cause =>
    -- without its backup the file is not replaced
    exact ⟨fun w' hw => by simp [proceed] at hw, fun w' hw => by simp [proceed] at hw,
      fun e _ => ⟨rfl, fun ha => by simp [he] at ha⟩⟩
  | ok t₂ =>
    -- what could be put in place before the backup can be after it
    have hseat : ∃ q, t.seat (w.directory ++ [name]) = .ok q := by
      have hlen := (hc.names name (by simp [h.target])).2
      rw [seat_concat h.canonical h.directory, ← h.target, hp, ok_bind, if_neg (by omega)]
      exact ⟨_, rfl⟩
    have hpl₂ := placed_after_backup (f := .file w.content (w.mode.getD 0o600)) h.canonical
      h.directory hseat (h.target ▸ hdir) hpl
    obtain ⟨-, -, hbak, rfl⟩ := placed_eq_ok.mp hpl
    have hnew := run_new (w := { w with kept := some (backupOf w.target.relative) })
      (h.canonical.put_below (name ++ ".bak") (.file bytes mode))
      (isDirectory_put_below h.directory _ _) h.passing h.target
    have hrun := hnew.trans (congrArg (proceed _ _ · _) hpl₂)
    have hkept : backedUp t w.backup w.target.absolute =
        t.put (w.directory ++ [name ++ ".bak"]) (.file bytes mode) := by
      simp only [backedUp, he, hk, ↓reduceIte]
      rw [h.target, backupOf_concat]
    have hmode : modeAt t w.target.absolute = w.mode.getD 0o600 := by
      rw [modeAt, he, hm, Option.getD_some]
    have hnamed : keptAt t w.backup w.target = some (backupOf w.target.relative) := by
      simp only [keptAt, he, hk, ↓reduceIte]
    simp only [proceed, hrun]
    refine ⟨fun w' _ => ⟨hdir, fun _ _ => by rwa [h.target, backupOf_concat], ?_⟩, fun w' hw => ?_,
      fun e he => by simp at he⟩
    · rw [hkept, hmode, h.target]
    · obtain rfl := Except.ok.inj hw
      exact ⟨rfl, rfl, by rw [hnamed, Option.some_or], h.target ▸ hseat⟩

/-- A write that has looked at its target, which cannot be backed up. -/
theorem settled_no_bytes {target : Entry} {cause : SystemError} (h : w.Ready t name)
    (hc : t.Canonical w.target.absolute) (hp : checkPath w.target.absolute = .ok ())
    (he : t.entry? w.target.absolute = some target) (hb : target.bytes = .error cause)
    (hk : w.keeps) : Settled w t name
      (w.run t ([Step.openBackup, .copy, .placeBackup] ++ [Step.openNew, .fill, .place])) := by
  rw [run_append, run_backup_of_no_bytes hc hp he hb hk h.passing h.target]
  cases t.seat (w.directory ++ [t.freshName w.directory]) <;>
    exact ⟨by simp, by simp, fun _ _ => ⟨rfl, by simp [he]⟩⟩

/-- Only a link is not found where it stands. -/
theorem Ready.link_of_not_found {cause : SystemError} {q : Location} {x : Entry}
    (h : w.Ready t name) (hf : t.find true w.target.absolute = .error cause)
    (hq : t.seat w.target.absolute = .ok q) (hx : t.entry? w.target.absolute = some x) :
    ∃ target, x = .link target := by
  by_contra hlink
  rw [h.target] at hf hq hx
  obtain ⟨-, hp, hlen⟩ := seat_concat_eq_ok h.canonical h.directory hq
  have hc : t.Canonical (w.directory ++ [name]) :=
    h.canonical.concat h.directory h.name hlen ⟨x, hx, fun target ht => hlink ⟨target, ht⟩⟩
  rw [hc.find hp hx] at hf
  simp at hf

/-- What a write comes to once its parents are there. -/
theorem settled_run (h : w.Ready t name) (hm : w.mode = none) :
    Settled w t name (w.run t
      (.inspect :: ([Step.openBackup, .copy, .placeBackup] ++ [Step.openNew, .fill, .place]))) := by
  rw [run_cons, step, inspect]
  cases hf : t.find true w.target.absolute with
  | error cause =>
    -- nothing is kept, as only a link that leads nowhere may stand there
    refine settled_unkept h (by simp [keeps, hm]) (fun q hq hd => ?_)
      (fun q hq _ bytes mode hx => ?_)
    · cases hx : t.entry? w.target.absolute with
      | none => rw [modeAt, hx, hm, Option.getD_none]
      | some x =>
        obtain ⟨target, rfl⟩ := h.link_of_not_found hf hq hx
        rw [modeAt, hx, hm, Option.getD_none]
    · obtain ⟨target, ht⟩ := h.link_of_not_found hf hq hx
      simp at ht
  | ok target =>
    obtain ⟨hp, hc, he⟩ := h.straight.find_eq_ok hf
    cases target with
    | directory =>
      exact ⟨by simp, by simp, fun e _ => ⟨by simp [discard, h.passing], by simp [he]⟩⟩
    | link x => exact absurd he (hc.entry?_ne_link x)
    | file bytes mode =>
      by_cases hk : w.backup
      · have hkept := settled_kept (h.of_mode (some mode)) hc hp he rfl hk
        exact ⟨hkept.done, hkept.answered, hkept.failed⟩
      · have hunkept := settled_unkept (h.of_mode (some mode)) (by simp [keeps, hk])
          (fun _ _ _ => by simp [modeAt, he]) (fun _ _ h' => absurd h' hk)
        exact ⟨hunkept.done, hunkept.answered, hunkept.failed⟩
    | socket n =>
      by_cases hk : w.backup
      · have hno := settled_no_bytes (h.of_mode (some 0o755)) hc hp he rfl (by simp [keeps, hk])
        exact ⟨hno.done, hno.answered, hno.failed⟩
      · have hunkept := settled_unkept (h.of_mode (some 0o755)) (by simp [keeps, hk])
          (fun _ _ _ => by simp [modeAt, he]) (fun _ _ h' => absurd h' hk)
        exact ⟨hunkept.done, hunkept.answered, hunkept.failed⟩

theorem run_steps (w : Writing) (t : FileTree) : w.run t steps =
    match w.makeParents t with
    | (.ok w, t) =>
      w.run t
        (.inspect :: ([Step.openBackup, .copy, .placeBackup] ++ [Step.openNew, .fill, .place]))
    | (.error e, t) => (.error e, w.discard t) := rfl

end Worksite.Writing

namespace Worksite.Place

open FileTree Writing Sandbox

variable {p : Place} {root : Location} {t t' : FileTree} {content : ByteArray}
  {createParents backup : Bool} {answer : Response.WriteOutcome} {e : WorkspaceError}

/-- A write that has made its parents is ready; what it made them for was not there. -/
theorem ready_of_makeParents {w w' : Writing} (hl : w.target.absolute ≠ []) (hc : t.Closed)
    (hr : Reached t w.target.absolute) (hw : w.passing = none)
    (h : w.makeParents t = (.ok w', t')) : ∃ name, w' = w ∧ w.Ready t' name ∧
      t.Grows w.directory t' ∧ (t' = t ∨ w.createParents ∧
        t'.entry? w.target.absolute = none ∧ name.contains '\x00' = false) := by
  have hpre : w.directory <+: w.target.absolute := List.dropLast_prefix _
  have hname : w.target.absolute = w.directory ++ [w.target.absolute.getLast hl] :=
    (List.dropLast_append_getLast hl).symm
  obtain ⟨hww, hg, hcan, hd, hp, hnew⟩ := makeParents_eq_ok hc (hr.straight.of_prefix hpre)
    (fun s hs => hr.names s (hpre.subset hs)) h
  refine ⟨w.target.absolute.getLast hl, hww, ⟨hcan, hd, hp, hname,
    hr.names _ (List.getLast_mem hl), hg.straight hc hr.straight hr.names hpre, hw⟩, hg, ?_⟩
  rcases hnew with ht | ⟨hcreate, hempty⟩
  · exact .inl ht
  · have habsent := hempty (w.target.absolute.getLast hl)
    rw [← hname] at habsent
    refine .inr ⟨hcreate, habsent, ?_⟩
    rcases hr.nulFree with hcan | hnul
    · obtain ⟨x, hx, -⟩ := (hg.canonical hcan).here
      simp [habsent] at hx
    · exact hnul _ (List.getLast?_eq_getLast_of_ne_nil hl)

/-- What a write comes to: its parents cannot be made, or they are there and the rest is settled. -/
theorem write_cases (content : ByteArray) (createParents backup : Bool) (hroot : p.relative ≠ [])
    (hl : p.absolute ≠ []) (hc : t.Closed) (hr : Reached t p.absolute) :
    let w : Writing := { target := p, content, createParents, backup }
    (∃ e t₁, w.makeParents t = (.error e, t₁) ∧
        p.write t content createParents backup = (.error e, t₁)) ∨
      ∃ name t₁ outcome, w.Ready t₁ name ∧ t.Grows p.absolute.parent t₁ ∧
        (t₁ = t ∨ createParents ∧ t₁.entry? p.absolute = none ∧ name.contains '\x00' = false) ∧
        w.Settled t₁ name outcome ∧
        p.write t content createParents backup = (outcome.1.map Writing.outcome, outcome.2) := by
  intro w
  have hroot' : p.isRoot = false := by simpa [isRoot] using hroot
  simp only [write, hroot', Bool.false_eq_true, ↓reduceIte, run_steps]
  rcases hm : w.makeParents t with ⟨e | w', t₁⟩
  · exact .inl ⟨e, t₁, rfl, rfl⟩
  · obtain ⟨name, rfl, hready, hg, hnew⟩ := ready_of_makeParents (w := w) hl hc hr rfl hm
    refine .inr ⟨name, t₁, _, hready, hg, hnew, settled_run hready rfl, ?_⟩
    dsimp only
    rcases w.run t₁ _ with ⟨e | w₂, t₂⟩
    · rfl
    · rfl

theorem absolute_ne_nil (hp : p.absolute = root ++ p.relative) (hroot : p.relative ≠ []) :
    p.absolute ≠ [] := by
  simp [hp, hroot]

/-- What a write that succeeds has changed. -/
theorem write_eq_ok (hp : p.absolute = root ++ p.relative) (hc : t.Closed)
    (hr : Reached t p.absolute) (h : p.write t content createParents backup = (.ok answer, t')) :
    ∃ t₁, t.Grows p.absolute.parent t₁ ∧ (t₁ = t ∨ createParents) ∧
      t₁.Canonical p.absolute.parent ∧ t₁.isDirectory p.absolute.parent ∧
      ¬ t₁.isDirectory p.absolute ∧
      (backup → (∃ bytes mode, t₁.entry? p.absolute = some (.file bytes mode)) →
        ¬ t₁.isDirectory (backupOf p.absolute)) ∧
      t' = (backedUp t₁ backup p.absolute).put p.absolute
        (.file content (modeAt t₁ p.absolute)) := by
  have hroot : p.relative ≠ [] := by
    intro hnil
    simp [write, isRoot, hnil] at h
  rcases write_cases content createParents backup hroot (absolute_ne_nil hp hroot) hc hr with
    ⟨e, t₁, -, hw⟩ | ⟨name, t₁, ⟨e | w, t₂⟩, hready, hg, hnew, hsettled, hw⟩
  · exact absurd (congrArg Prod.fst (h.symm.trans hw)) (by simp)
  · exact absurd (congrArg Prod.fst (h.symm.trans hw)) (by simp [Except.map])
  · obtain ⟨hd, hbak, ht⟩ := hsettled.done w rfl
    have htree : t' = t₂ := congrArg Prod.snd (h.symm.trans hw)
    exact ⟨t₁, hg, hnew.imp id And.left, hready.canonical, hready.directory, hd, hbak,
      htree.trans ht⟩

/-- A write that fails leaves the tree as it was, or with the parents made for a name that is too
long. -/
theorem write_eq_error (hp : p.absolute = root ++ p.relative) (hc : t.Closed)
    (hr : Reached t p.absolute) (h : p.write t content createParents backup = (.error e, t')) :
    t' = t ∨ createParents ∧ t.Grows p.absolute.parent t' ∧
      e = p.systemError .nameTooLong := by
  by_cases hroot : p.relative = []
  · left
    rw [write, if_pos (by simp [isRoot, hroot])] at h
    exact (congrArg Prod.snd h).symm
  rcases write_cases content createParents backup hroot (absolute_ne_nil hp hroot) hc hr with
    ⟨e', t₁, hm, hw⟩ | ⟨name, t₁, ⟨e' | w, t₂⟩, -, hg, hnew, hsettled, hw⟩
  · -- the parents could not be made
    have hpre : p.absolute.parent <+: p.absolute := List.dropLast_prefix _
    obtain ⟨he, rfl⟩ := Prod.mk.inj (h.symm.trans hw)
    obtain rfl := Except.error.inj he
    exact makeParents_eq_error (w := { target := p, content, createParents, backup }) hc
      (hr.straight.of_prefix hpre) (fun s hs => hr.names s (hpre.subset hs)) hm
  · -- they are there, for a name that is too long if they were made
    obtain ⟨he, rfl⟩ := Prod.mk.inj (h.symm.trans hw)
    obtain rfl := Except.error.inj he
    obtain ⟨ht, hlong⟩ := hsettled.failed e rfl
    obtain rfl : t' = t₁ := ht
    rcases hnew with rfl | ⟨hcreate, habsent, hnul⟩
    · exact .inl rfl
    · exact .inr ⟨hcreate, hg, hlong habsent hnul⟩
  · exact absurd (congrArg Prod.fst (h.symm.trans hw)) (by simp [Except.map])

theorem makeParents_of_clear {w : Writing} (hc : t.Closed) (hcreate : w.createParents)
    (hn : ∀ s ∈ w.directory, Path.IsName s ∧ s.utf8ByteSize ≤ maxName)
    (hd : checkPath w.directory = .ok ()) (h : t.Clear w.directory) :
    ∃ t₁, w.makeParents t = (.ok w, t₁) := by
  have hmade := makeDirectories_of_clear w.directory.reverse hc (by simpa using hn)
    (by simpa using hd) (by simpa using h)
  unfold makeParents
  simp only [hcreate, Bool.not_true, Bool.false_eq_true, ↓reduceIte]
  split_ifs
  · exact ⟨t, rfl⟩
  · rcases hm : t.makeDirectories w.directory.reverse with ⟨e | ⟨⟨⟩⟩, t₁⟩
    · simp [hm] at hmade
    · exact ⟨t₁, rfl⟩

/-- A write that may make the directory of its target, over a clear way, makes it, whatever else
becomes of the write. -/
theorem write_makes_directory {d : Location} {x : String} (hp : p.absolute = d ++ [x])
    (hroot : p.relative ≠ []) (hc : t.Closed)
    (hn : ∀ s ∈ d, Path.IsName s ∧ s.utf8ByteSize ≤ maxName) (hd : checkPath d = .ok ())
    (h : t.Clear d) (hr : Reached t p.absolute) :
    (p.write t content true backup).2.isDirectory d := by
  have hparent : p.absolute.parent = d := by
    rw [hp, Location.parent, List.dropLast_concat]
  rcases write_cases content true backup hroot (by simp [hp]) hc hr with
    ⟨e, t₁, hm, -⟩ | ⟨name, t₁, ⟨e | w, t₂⟩, hready, -, -, hsettled, hw⟩
  · obtain ⟨t₂, hm'⟩ := makeParents_of_clear
      (w := { target := p, content, createParents := true, backup }) hc rfl
      (by rwa [Writing.directory, hparent]) (by rwa [Writing.directory, hparent])
      (by rwa [Writing.directory, hparent])
    exact absurd (congrArg Prod.fst (hm.symm.trans hm')) (by simp)
  · have hdir : t₁.isDirectory p.absolute.parent := hready.directory
    obtain ⟨ht, -⟩ := hsettled.failed e rfl
    rw [hw, show t₂ = t₁ from ht, ← hparent]
    exact hdir
  · have hdir : t₁.isDirectory p.absolute.parent := hready.directory
    obtain ⟨-, -, ht⟩ := hsettled.done w rfl
    rw [hparent, isDirectory_iff] at hdir
    rw [hw, show t₂ = _ from ht, isDirectory_iff, entry?_put_of_ne (by simp [hp]),
      entry?_backedUp_of_ne _ (by simp [hp])]
    exact hdir

end Worksite.Place
