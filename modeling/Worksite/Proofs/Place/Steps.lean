import Worksite.Place.Write
import Worksite.Proofs.FileTree.Passing
import Worksite.Proofs.Sandbox.Resolve

/-!
What the steps of a write come to. Each file is put in place by one change of the tree, and the
passing file that carries it leaves no trace, whether it arrives or not.
-/
namespace Worksite.Writing

open FileTree

variable {w w' : Writing} {t t' : FileTree} {l d : Location} {name : String} {bytes : ByteArray}
  {e : WorkspaceError}

@[simp] theorem backupOf_concat (d : Location) (name : String) :
    backupOf (d ++ [name]) = d ++ [name ++ ".bak"] := by
  simp [backupOf, Location.parent]

theorem backupOf_append {a b : Location} (hb : b ≠ []) : backupOf (a ++ b) = a ++ backupOf b := by
  rw [← List.dropLast_append_getLast hb, ← List.append_assoc, backupOf_concat, backupOf_concat,
    List.append_assoc]

theorem dropLast_backupOf (hl : l ≠ []) : (backupOf l).dropLast = l.dropLast := by
  rw [← List.dropLast_append_getLast hl, backupOf_concat, List.dropLast_concat,
    List.dropLast_concat]

theorem backupOf_ne_nil (hl : l ≠ []) : backupOf l ≠ [] := by
  rw [← List.dropLast_append_getLast hl, backupOf_concat]
  simp

theorem concat_ne_backup (d : Location) (name : String) : d ++ [name] ≠ d ++ [name ++ ".bak"] := by
  intro h
  have hlen := congrArg String.length (List.cons.inj (List.append_cancel_left h)).1
  simp [String.length_append] at hlen

theorem backupOf_ne (hl : l ≠ []) : backupOf l ≠ l := by
  rw [← List.dropLast_append_getLast hl, backupOf_concat]
  exact (concat_ne_backup _ _).symm

theorem backupOf_ne_dropLast (hl : l ≠ []) : backupOf l ≠ l.dropLast := by
  rw [← List.dropLast_append_getLast hl, backupOf_concat, List.dropLast_concat]
  simp

theorem passing_ne_backup (d : Location) (n : Nat) (name : String) :
    d ++ [passingName n] ≠ d ++ [name ++ ".bak"] := by
  intro h
  exact passingName_ne_backup n name (List.cons.inj (List.append_cancel_left h)).1

/-- Puts a file in a directory by means of a passing file. -/
def placed (t : FileTree) (d : Location) (name : String) (file : Entry) :
    Except SystemError FileTree := do
  let _ ← t.seat (d ++ [t.freshName d])
  let _ ← t.seat (d ++ [name])
  if t.isDirectory (d ++ [name]) then .error .isDirectory else .ok (t.put (d ++ [name]) file)

theorem placed_eq_ok {file : Entry} : placed t d name file = .ok t' ↔
    (∃ p, t.seat (d ++ [t.freshName d]) = .ok p) ∧ (∃ q, t.seat (d ++ [name]) = .ok q) ∧
      ¬ t.isDirectory (d ++ [name]) ∧ t' = t.put (d ++ [name]) file := by
  unfold placed
  constructor
  · intro h
    obtain ⟨p, hp, h⟩ := bind_eq_ok.mp h
    obtain ⟨q, hq, h⟩ := bind_eq_ok.mp h
    split_ifs at h with hd
    exact ⟨⟨p, hp⟩, ⟨q, hq⟩, hd, (Except.ok.inj h).symm⟩
  · rintro ⟨⟨p, hp⟩, ⟨q, hq⟩, hd, rfl⟩
    simp [hp, hq, hd]

/-- A file can be put in place after its backup if it could be before. -/
theorem placed_after_backup {f old : Entry} (hc : t.Canonical d) (hd : t.isDirectory d)
    (hs : ∃ q, t.seat (d ++ [name]) = .ok q) (hn : ¬ t.isDirectory (d ++ [name]))
    (h : placed t d (name ++ ".bak") old = .ok t') :
    placed t' d name f = .ok (t'.put (d ++ [name]) f) := by
  obtain ⟨hp, -, -, rfl⟩ := placed_eq_ok.mp h
  have hfresh : (t.put (d ++ [name ++ ".bak"]) old).freshName d = t.freshName d :=
    freshName_congr fun n => entry?_put_of_ne (passing_ne_backup d n name)
  refine placed_eq_ok.mpr ⟨?_, ?_, ?_, rfl⟩
  · rw [hfresh, seat_put_below hc hd]
    exact hp
  · rw [seat_put_below hc hd]
    exact hs
  · rw [isDirectory_iff, entry?_put_of_ne (concat_ne_backup d name), ← isDirectory_iff]
    exact hn

theorem run_cons (w : Writing) (t : FileTree) (s : Step) (rest : List Step) :
    w.run t (s :: rest) =
      match w.step t s with
      | (.ok w, t) => w.run t rest
      | (.error e, t) => (.error e, w.discard t) := rfl

theorem run_append (w : Writing) (t : FileTree) (a b : List Step) : w.run t (a ++ b) =
    match w.run t a with
    | (.ok w, t) => w.run t b
    | (.error e, t) => (.error e, t) := by
  induction a generalizing w t with
  | nil => rfl
  | cons s a ih =>
    simp only [List.cons_append, run]
    rcases w.step t s with ⟨e | w, t⟩
    · rfl
    · exact ih w t

theorem openPassing_eq (hc : t.Canonical w.directory) (hd : t.isDirectory w.directory) :
    w.openPassing t =
      match t.seat (w.directory ++ [t.freshName w.directory]) with
      | .ok _ =>
        (.ok { w with passing := some (w.directory ++ [t.freshName w.directory]) },
          t.put (w.directory ++ [t.freshName w.directory]) (.file .empty 0o600))
      | .error e => (.error (w.target.systemError e), t) := by
  rw [openPassing, create_freshName t hc hd]
  cases t.seat (w.directory ++ [t.freshName w.directory]) <;> rfl

/-- A filled passing file arrives, or is taken away when the write fails. -/
theorem settle_passing {mode : Nat} (hc : t.Canonical w.directory)
    (hd : t.isDirectory w.directory) {x : String} (ha : t.entry? (w.directory ++ [x]) = none)
    (hx : t.seat (w.directory ++ [x]) = .ok (w.directory ++ [x])) (name : String) :
    ({ w with passing := some (w.directory ++ [x]) } : Writing).settle
        (t.put (w.directory ++ [x]) (.file bytes mode)) (w.directory ++ [name]) =
      match t.seat (w.directory ++ [name]) >>= fun _ =>
          if t.isDirectory (w.directory ++ [name]) then .error .isDirectory
          else .ok (t.put (w.directory ++ [name]) (.file bytes mode)) with
      | .ok t' => (.ok { w with passing := none }, t')
      | .error e =>
        (.error (w.target.systemError e), t.put (w.directory ++ [x]) (.file bytes mode)) := by
  simp only [settle]
  rw [rename_passing hc hd ha hx]
  rfl

/-- The last steps put the new file in place, or leave the tree as it was. -/
theorem run_new (hc : t.Canonical w.directory) (hd : t.isDirectory w.directory)
    (hw : w.passing = none) (hl : w.target.absolute = w.directory ++ [name]) :
    w.run t [.openNew, .fill, .place] =
      w.proceed t (placed t w.directory name (.file w.content (w.mode.getD 0o600))) w := by
  simp only [run, step, openPassing_eq hc hd, placed]
  cases hs : t.seat (w.directory ++ [t.freshName w.directory]) with
  | error e => simp [discard, hw, proceed]
  | ok p =>
    obtain ⟨rfl, -, -⟩ := seat_concat_eq_ok hc hd hs
    have hfree := entry?_freshName t w.directory
    simp only [fillPassing, put_put, ok_bind]
    rw [hl, settle_passing hc hd hfree hs]
    have hw' : ({ w with passing := none } : Writing) = w := by rw [← hw]
    rcases t.seat (w.directory ++ [name]) >>= fun _ =>
      if t.isDirectory (w.directory ++ [name]) then Except.error SystemError.isDirectory
      else .ok (t.put (w.directory ++ [name]) (.file w.content (w.mode.getD 0o600))) with e | t'
    · simp [proceed, discard, erase_put_of_absent (by simp) hfree]
    · simp [proceed, hw']

theorem run_backup_of_keeps_not (hk : w.keeps = false) :
    w.run t [.openBackup, .copy, .placeBackup] = (.ok w, t) := by
  simp [run, step, hk]

/-- What stands at the target is still found there behind a new passing file. -/
theorem find_behind_passing {x : String} {target : Entry} (hc : t.Canonical w.target.absolute)
    (hp : checkPath w.target.absolute = .ok ()) (he : t.entry? w.target.absolute = some target)
    (hl : w.target.absolute = w.directory ++ [name])
    (ha : t.entry? (w.directory ++ [x]) = none) (file : Entry) :
    (t.put (w.directory ++ [x]) file).find true w.target.absolute = .ok target := by
  have hne : w.target.absolute ≠ w.directory ++ [x] := by
    intro h
    rw [h, ha] at he
    simp at he
  refine Canonical.find (hc.congr fun q hq => entry?_put_of_ne ?_) hp ?_
  · rintro rfl
    exact hne (hq.eq_of_length (by simp [hl])).symm
  · rw [entry?_put_of_ne hne, he]

/-- The steps of the backup put a copy beside the target, or leave the tree as it was. -/
theorem run_backup {mode : Nat} (hc : t.Canonical w.target.absolute)
    (hp : checkPath w.target.absolute = .ok ())
    (he : t.entry? w.target.absolute = some (.file bytes mode)) (hm : w.mode = some mode)
    (hk : w.keeps) (hw : w.passing = none) (hl : w.target.absolute = w.directory ++ [name]) :
    w.run t [.openBackup, .copy, .placeBackup] =
      w.proceed t (placed t w.directory (name ++ ".bak") (.file bytes mode))
        { w with kept := some (backupOf w.target.relative) } := by
  have hcd : t.Canonical w.directory := hc.dropLast
  have hd : t.isDirectory w.directory :=
    hc.above _ (List.dropLast_prefix _) (by rw [hl]; simp)
  simp only [run, step, hk, ↓reduceIte, openPassing_eq hcd hd, placed]
  cases hs : t.seat (w.directory ++ [t.freshName w.directory]) with
  | error e => simp [discard, hw, proceed]
  | ok p =>
    obtain ⟨rfl, -, -⟩ := seat_concat_eq_ok hcd hd hs
    -- the passing file is in the tree while the target is read
    have hfree := entry?_freshName t w.directory
    have hfind := find_behind_passing hc hp he hl hfree (.file .empty 0o600)
    have hk' (x : Option Location) : ({ w with passing := x } : Writing).keeps = true := hk
    have hm' : w.mode.getD 0o600 = mode := by rw [hm, Option.getD_some]
    simp only [hk', ↓reduceIte, copy, hfind, Except.bind, Entry.bytes, fillPassing, put_put, hm',
      placeBackup, ok_bind]
    rw [hl, backupOf_concat, settle_passing hcd hd hfree hs]
    rcases t.seat (w.directory ++ [name ++ ".bak"]) >>= fun _ =>
      if t.isDirectory (w.directory ++ [name ++ ".bak"]) then Except.error SystemError.isDirectory
      else .ok (t.put (w.directory ++ [name ++ ".bak"]) (.file bytes mode)) with e | t'
    · simp [proceed, discard, erase_put_of_absent (by simp) hfree]
    · simp [proceed, hw]

/-- A target without bytes is not backed up, and the tree stays as it was. -/
theorem run_backup_of_no_bytes {target : Entry} {cause : SystemError}
    (hc : t.Canonical w.target.absolute) (hp : checkPath w.target.absolute = .ok ())
    (he : t.entry? w.target.absolute = some target) (hb : target.bytes = .error cause)
    (hk : w.keeps) (hw : w.passing = none) (hl : w.target.absolute = w.directory ++ [name]) :
    w.run t [.openBackup, .copy, .placeBackup] =
      match t.seat (w.directory ++ [t.freshName w.directory]) with
      | .ok _ => (.error (w.target.systemError cause), t)
      | .error e => (.error (w.target.systemError e), t) := by
  have hcd : t.Canonical w.directory := hc.dropLast
  have hd : t.isDirectory w.directory :=
    hc.above _ (List.dropLast_prefix _) (by rw [hl]; simp)
  simp only [run, step, hk, ↓reduceIte, openPassing_eq hcd hd]
  cases hs : t.seat (w.directory ++ [t.freshName w.directory]) with
  | error e => simp [discard, hw]
  | ok p =>
    have hfree := entry?_freshName t w.directory
    have hfind := find_behind_passing hc hp he hl hfree (.file .empty 0o600)
    have hk' (x : Option Location) : ({ w with passing := x } : Writing).keeps = true := hk
    simp only [hk', ↓reduceIte, copy, hfind, Except.bind, hb, discard,
      erase_put_of_absent (by simp) hfree]

/-! ## Parents -/

theorem makeParents_eq_ok (hc : t.Closed) (hs : t.Straight w.directory)
    (hn : ∀ s ∈ w.directory, Path.IsName s) (h : w.makeParents t = (.ok w', t')) :
    w' = w ∧ t.Grows w.directory t' ∧ t'.Canonical w.directory ∧ t'.isDirectory w.directory ∧
      checkPath w.directory = .ok () ∧ (t' = t ∨ w.createParents ∧
        ∀ s, t'.entry? (w.directory ++ [s]) = none) := by
  unfold makeParents at h
  split_ifs at h with hlead hcreate
  · obtain ⟨hw, rfl⟩ := Prod.mk.inj h
    obtain ⟨hp, hcan, hd⟩ := hs.leadsToDirectory_iff.mp hlead
    exact ⟨(Except.ok.inj hw).symm, .refl, hcan, hd, hp, .inl rfl⟩
  · simp at h
  · have hmade := made_makeDirectories (t := t) w.directory.reverse hc (by simpa using hs)
      (by simpa using hn)
    rw [List.reverse_reverse] at hmade
    split at h
    · next t₁ hm =>
      obtain ⟨hw, rfl⟩ := Prod.mk.inj h
      rw [hm] at hmade
      obtain ⟨hp, hcan, hd⟩ := hmade.there rfl
      refine ⟨(Except.ok.inj hw).symm, hmade.grows, hcan, hd, hp, .inr ⟨by simpa using hcreate, ?_⟩⟩
      intro s
      -- nothing stood below the directory, which was not there
      have hmissing : ¬ t.isDirectory w.directory := fun hd' => hlead
        (hs.leadsToDirectory_iff.mpr
          ⟨hp, hc.canonical hcan.names ⟨_, isDirectory_iff.mp hd', by simp⟩, hd'⟩)
      rw [hmade.grows.entry?_of_not_prefix fun hx => absurd hx.length_le (by simp)]
      exact hc.absent_below hmissing (List.prefix_append _ _) (by simp)
    · simp at h

theorem makeParents_eq_error (hc : t.Closed) (hs : t.Straight w.directory)
    (hn : ∀ s ∈ w.directory, Path.IsName s) (h : w.makeParents t = (.error e, t')) :
    t' = t ∨ w.createParents ∧ t.Grows w.directory t' ∧
      e = w.target.systemError .nameTooLong := by
  unfold makeParents at h
  split_ifs at h with hlead hcreate
  · simp at h
  · exact .inl (Prod.mk.inj h).2.symm
  · have hmade := made_makeDirectories (t := t) w.directory.reverse hc (by simpa using hs)
      (by simpa using hn)
    rw [List.reverse_reverse] at hmade
    split at h
    · simp at h
    · next e' t₁ hm =>
      obtain ⟨he, rfl⟩ := Prod.mk.inj h
      rw [hm] at hmade
      rcases hmade.failed e' rfl with ht | rfl
      · exact .inl ht
      · exact .inr ⟨by simpa using hcreate, hmade.grows, (Except.error.inj he).symm⟩

end Worksite.Writing
