import Worksite.Proofs.Place.Writing

/-!
Writes that are cut off. Whatever step a write is cut off at, its target holds the old file or the
new one, and a target that does not hold the old one any more has it kept beside itself.
-/
namespace Worksite.Writing

open FileTree

variable {w w' : Writing} {t t' u : FileTree} {l d : Location} {name : String}
  {old content : ByteArray} {mode : Nat} {backup : Bool} {a b : List Step} {s : Step}
  {e : WorkspaceError}

/-- The trees that a write may be cut off in, with steps left to do: those between two steps, those
in the midst of making the parents or of filling the passing file, and those of a step that fails,
with the passing file still there or taken away. -/
inductive CutOff : Writing → FileTree → List Step → FileTree → Prop where
  | here (w : Writing) (t : FileTree) (rest : List Step) : CutOff w t rest t
  | making {w : Writing} {t u : FileTree} (rest : List Step) (h : t.Grows w.directory u) :
      CutOff w t (.makeParents :: rest) u
  | filling {w : Writing} {s : Step} {l : Location} (t : FileTree) (rest : List Step)
      (hs : s = .copy ∨ s = .fill) (hl : w.passing = some l) (bytes : ByteArray) (mode : Nat) :
      CutOff w t (s :: rest) (t.put l (.file bytes mode))
  | later {w w' : Writing} {t t' u : FileTree} {s : Step} {rest : List Step}
      (h : w.step t s = (.ok w', t')) (hu : CutOff w' t' rest u) : CutOff w t (s :: rest) u
  | failed {w : Writing} {t t' : FileTree} {s : Step} {e : WorkspaceError} (rest : List Step)
      (h : w.step t s = (.error e, t')) : CutOff w t (s :: rest) t'
  | discarded {w : Writing} {t t' : FileTree} {s : Step} {e : WorkspaceError} (rest : List Step)
      (h : w.step t s = (.error e, t')) : CutOff w t (s :: rest) (w.discard t')

/-- Each tree that a prefix of the steps leads to is one that a write may be cut off in. -/
theorem cutOff_take (w : Writing) (t : FileTree) (steps : List Step) (k : Nat) :
    CutOff w t steps (w.run t (steps.take k)).2 := by
  induction steps generalizing w t k with
  | nil => simpa [run] using CutOff.here w t []
  | cons s steps ih =>
    cases k with
    | zero => exact .here w t _
    | succ k =>
      rw [List.take_succ_cons, run_cons]
      cases h : w.step t s with
      | mk result t' =>
        cases result with
        | error e => exact .discarded steps h
        | ok w' => exact .later h (ih w' t' k)

/-- A write that is cut off is so in its first steps or behind them. -/
theorem CutOff.append (h : CutOff w t (a ++ b) u) :
    CutOff w t a u ∨ ∃ w' t', w.run t a = (.ok w', t') ∧ CutOff w' t' b u := by
  induction a generalizing w t with
  | nil => exact .inr ⟨w, t, rfl, h⟩
  | cons s a ih =>
    cases h with
    | here => exact .inl (.here _ _ _)
    | making _ hg => exact .inl (.making a hg)
    | filling _ _ hs hl bytes mode => exact .inl (.filling _ a hs hl bytes mode)
    | failed _ hstep => exact .inl (.failed a hstep)
    | discarded _ hstep => exact .inl (.discarded a hstep)
    | later hstep hu =>
      rcases ih hu with hu | ⟨w', t', hrun, hu⟩
      · exact .inl (.later hstep hu)
      · refine .inr ⟨w', t', ?_, hu⟩
        rw [run_cons, hstep]
        exact hrun

/-! ## Passing files -/

/-- A tree with at most a passing file in a directory besides. -/
def Beside (t : FileTree) (d : Location) (u : FileTree) : Prop :=
  u = t ∨ ∃ n bytes mode, t.entry? (d ++ [passingName n]) = none ∧
    u = t.put (d ++ [passingName n]) (.file bytes mode)

/-- A write that carries a passing file, beside which the tree is as it was. -/
def Carries (w : Writing) (t u : FileTree) : Prop :=
  ∃ n bytes mode, t.entry? (w.directory ++ [passingName n]) = none ∧
    w.passing = some (w.directory ++ [passingName n]) ∧
    u = t.put (w.directory ++ [passingName n]) (.file bytes mode)

theorem Carries.beside (h : w.Carries t u) : Beside t w.directory u := by
  obtain ⟨n, bytes, mode, habsent, -, hu⟩ := h
  exact .inr ⟨n, bytes, mode, habsent, hu⟩

theorem Carries.discard (h : w.Carries t u) : w.discard u = t := by
  obtain ⟨n, bytes, mode, habsent, hpassing, rfl⟩ := h
  rw [Writing.discard, hpassing]
  exact erase_put_of_absent (by simp) habsent

theorem Carries.refill (h : w.Carries t u) (hl : w.passing = some l) (bytes : ByteArray)
    (mode : Nat) : w.Carries t (u.put l (.file bytes mode)) := by
  obtain ⟨n, bytes', mode', habsent, hpassing, rfl⟩ := h
  obtain rfl : w.directory ++ [passingName n] = l := Option.some.inj (hpassing.symm.trans hl)
  exact ⟨n, bytes, mode, habsent, hpassing, put_put ..⟩

theorem carries_of_openPassing (hc : t.Canonical w.directory) (hd : t.isDirectory w.directory)
    (h : w.openPassing t = (.ok w', t')) : w'.directory = w.directory ∧ w'.Carries t t' := by
  rw [openPassing_eq hc hd] at h
  obtain ⟨n, hn, habsent, -⟩ := freshName_spec t w.directory
  split at h
  · obtain ⟨hw, rfl⟩ := Prod.mk.inj h
    obtain rfl := Except.ok.inj hw
    rw [hn]
    exact ⟨rfl, n, .empty, 0o600, habsent, rfl, rfl⟩
  · cases congrArg Prod.fst h

theorem proceed_error {changed : Except SystemError FileTree}
    (h : w.proceed t changed w' = (.error e, t')) : t' = t := by
  unfold proceed at h
  split at h
  · cases congrArg Prod.fst h
  · exact (congrArg Prod.snd h).symm

theorem proceed_ok {next : Writing} {changed : Except SystemError FileTree}
    (h : w.proceed t changed next = (.ok w', t')) : w' = next ∧ changed = .ok t' := by
  unfold proceed at h
  split at h
  · obtain ⟨hw, rfl⟩ := Prod.mk.inj h
    exact ⟨(Except.ok.inj hw).symm, rfl⟩
  · cases congrArg Prod.fst h

theorem settle_error (h : w.settle t l = (.error e, t')) : t' = t := by
  unfold settle at h
  split at h
  · exact proceed_error h
  · cases congrArg Prod.fst h

/-- Only making the parents changes the tree when it fails. -/
theorem step_error (hs : s ≠ .makeParents) (h : w.step t s = (.error e, t')) : t' = t := by
  cases s with
  | makeParents => exact absurd rfl hs
  | inspect =>
    simp only [step, inspect] at h
    split at h
    · exact (congrArg Prod.snd h).symm
    all_goals cases congrArg Prod.fst h
  | openBackup =>
    simp only [step] at h
    split_ifs at h
    · exact proceed_error h
    · cases congrArg Prod.fst h
  | copy =>
    simp only [step] at h
    split_ifs at h
    · simp only [copy] at h
      split at h
      · cases congrArg Prod.fst h
      · exact (congrArg Prod.snd h).symm
    · cases congrArg Prod.fst h
  | placeBackup =>
    simp only [step] at h
    split_ifs at h
    · simp only [placeBackup] at h
      split at h
      · cases congrArg Prod.fst h
      · exact settle_error h
    · cases congrArg Prod.fst h
  | openNew => exact proceed_error h
  | fill => cases congrArg Prod.fst h
  | place => exact settle_error h

/-- Filling a passing file, with a copy or with the new bytes, goes on carrying it. -/
theorem Carries.step (h : w.Carries t u) (hs : s = .copy ∨ s = .fill)
    (hstep : w.step u s = (.ok w', t')) : w' = w ∧ w.Carries t t' := by
  have hfill : ∀ bytes, w.Carries t (w.fillPassing u bytes) := by
    intro bytes
    have ⟨_, _, _, _, hpassing, _⟩ := h
    rw [fillPassing, hpassing]
    exact h.refill hpassing bytes _
  rcases hs with rfl | rfl
  · simp only [Writing.step] at hstep
    split_ifs at hstep
    · simp only [copy] at hstep
      split at hstep
      · obtain ⟨hw, rfl⟩ := Prod.mk.inj hstep
        exact ⟨(Except.ok.inj hw).symm, hfill _⟩
      · cases congrArg Prod.fst hstep
    · obtain ⟨hw, rfl⟩ := Prod.mk.inj hstep
      exact ⟨(Except.ok.inj hw).symm, h⟩
  · obtain ⟨hw, rfl⟩ := Prod.mk.inj hstep
    exact ⟨(Except.ok.inj hw).symm, hfill _⟩

/-- A write that carries no file is cut off before a step or behind it. -/
theorem CutOff.cons_none (h : CutOff w t (s :: a) u) (hs : s ≠ .makeParents)
    (hw : w.passing = none) :
    u = t ∨ ∃ w' t', w.step t s = (.ok w', t') ∧ CutOff w' t' a u := by
  cases h with
  | here => exact .inl rfl
  | making => exact absurd rfl hs
  | filling _ _ _ hl => cases hw.symm.trans hl
  | failed _ hstep => exact .inl (step_error hs hstep)
  | discarded _ hstep =>
    rw [step_error hs hstep, discard, hw]
    exact .inl rfl
  | later hstep h => exact .inr ⟨_, _, hstep, h⟩

/-- A write that carries a file is cut off with nothing but this file besides, or behind a step. -/
theorem CutOff.cons_carries {v : FileTree} (h : CutOff w v (s :: a) u) (hs : s ≠ .makeParents)
    (hv : w.Carries t v) :
    Beside t w.directory u ∨ ∃ w' t', w.step v s = (.ok w', t') ∧ CutOff w' t' a u := by
  cases h with
  | here => exact .inl hv.beside
  | making => exact absurd rfl hs
  | filling _ _ _ hl bytes mode => exact .inl (hv.refill hl bytes mode).beside
  | failed _ hstep =>
    rw [step_error hs hstep]
    exact .inl hv.beside
  | discarded _ hstep =>
    rw [step_error hs hstep, hv.discard]
    exact .inl (.inl rfl)
  | later hstep h => exact .inr ⟨_, _, hstep, h⟩

/-- The steps that put a file in place are cut off with no more than a passing file besides, or are
all done. -/
theorem CutOff.carried {s₁ s₂ s₃ : Step} (h : CutOff w t [s₁, s₂, s₃] u)
    (hopen : w.step t s₁ = w.openPassing t) (h₁ : s₁ ≠ .makeParents) (h₂ : s₂ = .copy ∨ s₂ = .fill)
    (h₃ : s₃ ≠ .makeParents) (hc : t.Canonical w.directory) (hd : t.isDirectory w.directory)
    (hw : w.passing = none) :
    Beside t w.directory u ∨ ∃ w', w.run t [s₁, s₂, s₃] = (.ok w', u) := by
  rcases h.cons_none h₁ hw with rfl | ⟨w₁, t₁, hstep₁, hcut₁⟩
  · exact .inl (.inl rfl)
  obtain ⟨hdir, hcarries⟩ := carries_of_openPassing hc hd (hopen ▸ hstep₁)
  have hs₂ : s₂ ≠ .makeParents := by rcases h₂ with rfl | rfl <;> simp
  rcases hcut₁.cons_carries hs₂ hcarries with hbeside | ⟨w₂, t₂, hstep₂, hcut₂⟩
  · exact .inl (hdir ▸ hbeside)
  obtain ⟨rfl, hcarries⟩ := hcarries.step h₂ hstep₂
  rcases hcut₂.cons_carries h₃ hcarries with hbeside | ⟨w₃, t₃, hstep₃, hcut₃⟩
  · exact .inl (hdir ▸ hbeside)
  cases hcut₃
  refine .inr ⟨w₃, ?_⟩
  simp only [run, hstep₁, hstep₂, hstep₃]

/-! ## The target and its backup -/

/-- What is left of a write over a file when it is cut off. -/
structure Survives (t : FileTree) (l : Location) (old content : ByteArray) (mode : Nat)
    (backup : Bool) (u : FileTree) : Prop where
  target : u.entry? l = some (.file old mode) ∨ u.entry? l = some (.file content mode)
  sibling : u.entry? (backupOf l) = t.entry? (backupOf l) ∨
    backup ∧ u.entry? (backupOf l) = some (.file old mode)
  /-- Once the target is replaced, the file that it held is kept. -/
  kept : backup → u.entry? l = some (.file old mode) ∨
    u.entry? (backupOf l) = some (.file old mode)
  /-- No more than a new passing file is besides. -/
  elsewhere : ∃ n, t.entry? (l.parent ++ [passingName n]) = none ∧
    ∀ x, x ≠ l → x ≠ backupOf l → x ≠ l.parent ++ [passingName n] → u.entry? x = t.entry? x

section Survives

variable {v : FileTree}

/-- A passing file is neither at the target nor at its backup. -/
theorem passing_ne {n : Nat} (he : t.entry? (d ++ [name]) ≠ none)
    (ha : t.entry? (d ++ [passingName n]) = none) :
    d ++ [name] ≠ d ++ [passingName n] ∧ d ++ [name ++ ".bak"] ≠ d ++ [passingName n] := by
  constructor
  · intro h
    rw [← h] at ha
    exact he ha
  · exact (passing_ne_backup d n name).symm

/-- A passing file beside a file that is still there, with its backup or without. -/
theorem survives_of_beside (he : t.entry? (d ++ [name]) = some (.file old mode))
    (hv : v = t ∨ backup ∧ v = t.put (d ++ [name ++ ".bak"]) (.file old mode))
    (h : Beside v d u) : Survives t (d ++ [name]) old content mode backup u := by
  have hkeep : v.entry? (d ++ [name]) = some (.file old mode) := by
    rcases hv with rfl | ⟨-, rfl⟩
    · exact he
    · rw [entry?_put_of_ne (concat_ne_backup d name), he]
  have hsibling : v.entry? (d ++ [name ++ ".bak"]) = t.entry? (d ++ [name ++ ".bak"]) ∨
      backup ∧ v.entry? (d ++ [name ++ ".bak"]) = some (.file old mode) := by
    rcases hv with rfl | ⟨hb, rfl⟩
    · exact .inl rfl
    · exact .inr ⟨hb, entry?_put_self (by simp)⟩
  have hframe : ∀ x, x ≠ d ++ [name ++ ".bak"] → v.entry? x = t.entry? x := by
    intro x hx
    rcases hv with rfl | ⟨-, rfl⟩
    · rfl
    · exact entry?_put_of_ne hx
  -- the tree is that one, with at most a passing file
  obtain ⟨n, habsent, hu⟩ : ∃ n, v.entry? (d ++ [passingName n]) = none ∧
      ∀ x, x ≠ d ++ [passingName n] → u.entry? x = v.entry? x := by
    rcases h with rfl | ⟨n, bytes, m, habsent, rfl⟩
    · obtain ⟨n, -, habsent, -⟩ := freshName_spec u d
      exact ⟨n, habsent, fun _ _ => rfl⟩
    · exact ⟨n, habsent, fun x hx => entry?_put_of_ne hx⟩
  have hthere : v.entry? (d ++ [name]) ≠ none := by
    rw [hkeep]
    simp
  obtain ⟨hne, hbak⟩ := passing_ne hthere habsent
  refine ⟨?_, ?_, fun _ => ?_, n, ?_, ?_⟩
  · exact .inl ((hu _ hne).trans hkeep)
  · rw [backupOf_concat, hu _ hbak]
    exact hsibling
  · exact .inl ((hu _ hne).trans hkeep)
  · rw [Location.parent, List.dropLast_concat, ← hframe _ hbak.symm]
    exact habsent
  · intro x _ hx hpassing
    rw [Location.parent, List.dropLast_concat] at hpassing
    rw [backupOf_concat] at hx
    rw [hu x hpassing, hframe x hx]

/-- The new file in place of one that has its backup if asked for. -/
theorem survives_of_replaced (hv : backup = false ∧ v = t ∨
      backup = true ∧ v = t.put (d ++ [name ++ ".bak"]) (.file old mode)) :
    Survives t (d ++ [name]) old content mode backup
      (v.put (d ++ [name]) (.file content mode)) := by
  have hself : entry? (v.put (d ++ [name]) (.file content mode)) (d ++ [name]) =
      some (.file content mode) := entry?_put_self (by simp)
  have hbak : entry? (v.put (d ++ [name]) (.file content mode)) (d ++ [name ++ ".bak"]) =
      v.entry? (d ++ [name ++ ".bak"]) := entry?_put_of_ne (concat_ne_backup d name).symm
  obtain ⟨n, -, habsent, -⟩ := freshName_spec t d
  have hpassing : t.entry? ((d ++ [name]).parent ++ [passingName n]) = none := by
    rw [Location.parent, List.dropLast_concat]
    exact habsent
  rcases hv with ⟨rfl, rfl⟩ | ⟨rfl, rfl⟩
  · refine ⟨.inr hself, .inl ?_, fun hb => ?_, n, hpassing, ?_⟩
    · rw [backupOf_concat, hbak]
    · cases hb
    · intro x hx _ _
      exact entry?_put_of_ne hx
  · have hkept : entry? (FileTree.put (t.put (d ++ [name ++ ".bak"]) (.file old mode))
        (d ++ [name]) (.file content mode)) (backupOf (d ++ [name])) = some (.file old mode) := by
      rw [backupOf_concat, hbak, entry?_put_self (by simp)]
    refine ⟨.inr hself, .inr ⟨rfl, hkept⟩, fun _ => .inr hkept, n, hpassing, ?_⟩
    intro x hx hx' _
    rw [backupOf_concat] at hx'
    rw [entry?_put_of_ne hx, entry?_put_of_ne hx']

end Survives

/-! ## From the first step to the last -/

/-- Nothing is made on the way to a location that is there. -/
theorem grows_eq (hc : t.Canonical l) (h : t.Grows l u) : u = t := by
  induction h with
  | refl => rfl
  | make _ way _ _ _ absent ih =>
    subst ih
    obtain ⟨x, hx, -⟩ := (hc.of_prefix way).here
    rw [absent] at hx
    cases hx

theorem makeParents_there (hclosed : t.Closed) (hc : t.Canonical w.directory) :
    (w.makeParents t).2 = t := by
  cases h : w.makeParents t with
  | mk result t' =>
    have hs := hc.straight
    have hn := hc.isName
    cases result with
    | ok w' =>
      obtain ⟨-, hg, -⟩ := makeParents_eq_ok hclosed hs hn h
      exact grows_eq hc hg
    | error e =>
      rcases makeParents_eq_error hclosed hs hn h with ht | ⟨-, hg, -⟩
      · exact ht
      · exact grows_eq hc hg

/-- A write over a file that is cut off in its first two steps has changed nothing; behind them it
knows the mode of the file, unless the path of the file is too long. -/
theorem CutOff.inspected {rest : List Step} (h : CutOff w t (.makeParents :: .inspect :: rest) u)
    (hclosed : t.Closed) (hc : t.Canonical w.target.absolute)
    (he : t.entry? w.target.absolute = some (.file old mode)) (hw : w.passing = none) :
    u = t ∨ ∃ found, CutOff { w with mode := found } t rest u ∧
      (found = some mode ∧ checkPath w.target.absolute = .ok () ∨
        found = w.mode ∧ checkPath w.target.absolute ≠ .ok ()) := by
  have hparents : t.Canonical w.directory := hc.dropLast
  have hstays := makeParents_there hclosed hparents
  cases h with
  | here => exact .inl rfl
  | making _ hg => exact .inl (grows_eq hparents hg)
  | filling _ _ hs => simp at hs
  | failed _ hstep => exact .inl ((congrArg Prod.snd hstep).symm.trans hstays)
  | discarded _ hstep =>
    rw [discard, hw]
    exact .inl ((congrArg Prod.snd hstep).symm.trans hstays)
  | later hstep hcut =>
    have ht := (congrArg Prod.snd hstep).symm.trans hstays
    have hsame := (makeParents_eq_ok hclosed hparents.straight hparents.isName hstep).1
    dsimp only at ht
    rw [ht, hsame] at hcut
    rcases hcut.cons_none (by simp) hw with hu | ⟨w', t', hinspect, hcut⟩
    · exact .inl hu
    · right
      simp only [step, inspect] at hinspect
      by_cases hp : checkPath w.target.absolute = .ok ()
      · rw [hc.find hp he] at hinspect
        obtain ⟨hw', rfl⟩ := Prod.mk.inj hinspect
        obtain rfl := Except.ok.inj hw'
        exact ⟨some mode, hcut, .inl ⟨rfl, hp⟩⟩
      · have hfind : ∃ e, t.find true w.target.absolute = .error e := by
          cases hf : t.find true w.target.absolute with
          | error e => exact ⟨e, rfl⟩
          | ok x => exact absurd (find_eq_ok.mp hf).1 hp
        obtain ⟨e, hfind⟩ := hfind
        rw [hfind] at hinspect
        obtain ⟨hw', rfl⟩ := Prod.mk.inj hinspect
        obtain rfl := Except.ok.inj hw'
        exact ⟨w.mode, hcut, .inr ⟨rfl, hp⟩⟩

/-- Steps that do nothing leave nothing when they are cut off. -/
theorem CutOff.idle (h : CutOff w t a u) (hw : w.passing = none)
    (hidle : ∀ s ∈ a, s ≠ .makeParents ∧ w.step t s = (.ok w, t)) : u = t := by
  induction a with
  | nil =>
    cases h
    rfl
  | cons s a ih =>
    obtain ⟨hs, hstep⟩ := hidle s List.mem_cons_self
    rcases h.cons_none hs hw with hu | ⟨w', t', hstep', hcut⟩
    · exact hu
    · obtain ⟨hw', rfl⟩ := Prod.mk.inj (hstep'.symm.trans hstep)
      obtain rfl := Except.ok.inj hw'
      exact ih hcut fun s hs => hidle s (List.mem_cons_of_mem _ hs)

/-- The last steps are cut off with the old file at the target, or have put the new one there. -/
theorem CutOff.replaced {v : FileTree} (h : CutOff w v [.openNew, .fill, .place] u)
    (he : t.entry? w.target.absolute = some (.file old mode))
    (hl : w.target.absolute = w.directory ++ [name]) (hc : v.Canonical w.directory)
    (hd : v.isDirectory w.directory) (hw : w.passing = none)
    (hv : v = t ∨ backup ∧ v = t.put (w.directory ++ [name ++ ".bak"]) (.file old mode))
    (hchecked : checkPath w.target.absolute = .ok () → w.mode = some mode ∧
      (backup → v = t.put (w.directory ++ [name ++ ".bak"]) (.file old mode))) :
    Survives t w.target.absolute old w.content mode backup u := by
  rcases h.carried rfl (by simp) (.inr rfl) (by simp) hc hd hw with hbeside | ⟨w', hrun⟩
  · rw [hl] at he ⊢
    exact survives_of_beside he hv hbeside
  · rw [run_new hc hd hw hl] at hrun
    obtain ⟨-, ⟨q, hseat⟩, -, rfl⟩ := placed_eq_ok.mp (proceed_ok hrun).2
    -- what could be seated had a path that is short enough
    obtain ⟨hmode, hkept⟩ := hchecked (hl ▸ (seat_concat_eq_ok hc hd hseat).2.1)
    rw [hmode, Option.getD_some, hl]
    refine survives_of_replaced ?_
    cases backup with
    | true => exact .inr ⟨rfl, hkept rfl⟩
    | false => exact .inl ⟨rfl, hv.resolve_right (by simp)⟩

section Looked

variable (hc : t.Canonical w.target.absolute)
  (he : t.entry? w.target.absolute = some (.file old mode))
  (hl : w.target.absolute = w.directory ++ [name]) (hw : w.passing = none)
include hc hl

theorem canonical_directory : t.Canonical w.directory ∧ t.isDirectory w.directory :=
  ⟨hc.dropLast, hc.above _ (List.dropLast_prefix _) (by rw [hl]; simp)⟩

include he hw

/-- A write that keeps the file at its target puts it at its backup before it replaces it. -/
theorem CutOff.looked_kept
    (h : CutOff w t ([Step.openBackup, .copy, .placeBackup] ++ [Step.openNew, .fill, .place]) u)
    (hk : w.keeps) (hm : w.mode = some mode) (hp : checkPath w.target.absolute = .ok ()) :
    Survives t w.target.absolute old w.content mode w.backup u := by
  obtain ⟨hcd, hd⟩ := canonical_directory hc hl
  have hb : w.backup := (Bool.and_eq_true_iff.mp hk).1
  have hopen : w.step t .openBackup = w.openPassing t := if_pos hk
  have hkept : ∀ w' t', w.run t [.openBackup, .copy, .placeBackup] = (.ok w', t') →
      w' = { w with kept := some (backupOf w.target.relative) } ∧
        t' = t.put (w.directory ++ [name ++ ".bak"]) (.file old mode) := by
    intro w' t' hrun
    rw [run_backup hc hp he hm hk hw hl] at hrun
    obtain ⟨hw', hplaced⟩ := proceed_ok hrun
    exact ⟨hw', (placed_eq_ok.mp hplaced).2.2.2⟩
  rcases h.append with hcut | ⟨w₁, t₁, hrun, hcut⟩
  · rw [hl] at he ⊢
    rcases hcut.carried hopen (by simp) (.inl rfl) (by simp) hcd hd hw with hu | ⟨w', hrun⟩
    · exact survives_of_beside he (.inl rfl) hu
    · exact survives_of_beside he (.inr ⟨hb, (hkept w' u hrun).2⟩) (.inl rfl)
  · obtain ⟨rfl, rfl⟩ := hkept w₁ t₁ hrun
    exact hcut.replaced he hl (hcd.put_below _ _) (isDirectory_put_below hd _ _) hw
      (.inr ⟨hb, rfl⟩) fun _ => ⟨hm, fun _ => rfl⟩

/-- Where nothing is kept the steps of the backup are idle. -/
theorem CutOff.looked_unkept
    (h : CutOff w t ([Step.openBackup, .copy, .placeBackup] ++ [Step.openNew, .fill, .place]) u)
    (hk : w.keeps = false) (hm : checkPath w.target.absolute = .ok () → w.mode = some mode) :
    Survives t w.target.absolute old w.content mode w.backup u := by
  obtain ⟨hcd, hd⟩ := canonical_directory hc hl
  rcases h.append with hcut | ⟨w₁, t₁, hrun, hcut⟩
  · have hsame : u = t := hcut.idle hw (by simp [step, hk])
    rw [hl] at he ⊢
    exact survives_of_beside he (.inl rfl) (.inl hsame)
  · rw [run_backup_of_keeps_not hk] at hrun
    obtain ⟨hw₁, rfl⟩ := Prod.mk.inj hrun
    obtain rfl := Except.ok.inj hw₁
    refine hcut.replaced he hl hcd hd hw (.inl rfl) fun hp => ⟨hm hp, fun hb => ?_⟩
    simp [keeps, hb, hm hp] at hk

/-- A write that has looked at the file at its target keeps it, if asked to, before it replaces
it. -/
theorem CutOff.looked
    (h : CutOff w t ([Step.openBackup, .copy, .placeBackup] ++ [Step.openNew, .fill, .place]) u)
    (hmode : w.mode = some mode ∧ checkPath w.target.absolute = .ok () ∨
      w.mode = none ∧ checkPath w.target.absolute ≠ .ok ()) :
    Survives t w.target.absolute old w.content mode w.backup u := by
  by_cases hk : w.keeps
  · obtain ⟨-, hsome⟩ := Bool.and_eq_true_iff.mp hk
    obtain ⟨hm, hp⟩ := hmode.resolve_right fun hnone => by simp [hnone.1] at hsome
    exact h.looked_kept hc he hl hw hk hm hp
  · exact h.looked_unkept hc he hl hw (by simpa using hk) fun hp =>
      (hmode.resolve_right fun hnone => hnone.2 hp).1

end Looked

/-- A write over a file that is cut off, at whatever step, leaves at the target the old file or the
new one, and beside it what was there or the old file, which is there once the target is replaced;
nothing else has changed but a new passing file. -/
theorem survives_of_cutOff {p : Place} (hclosed : t.Closed) (hc : t.Canonical p.absolute)
    (he : t.entry? p.absolute = some (.file old mode)) (content : ByteArray)
    (createParents backup : Bool) :
    let w : Writing := { target := p, content, createParents, backup }
    (∀ k, CutOff w t steps (w.run t (steps.take k)).2) ∧
      CutOff w t steps (p.write t content createParents backup).2 ∧
      ∀ u, CutOff w t steps u → Survives t p.absolute old content mode backup u := by
  intro w
  have hne : p.absolute ≠ [] := by
    intro hnil
    rw [hnil] at he
    cases he
  have hl : p.absolute = w.directory ++ [p.absolute.getLast hne] :=
    (List.dropLast_append_getLast hne).symm
  refine ⟨cutOff_take w t steps, ?_, fun u hcut => ?_⟩
  · have hrun : CutOff w t steps (w.run t steps).2 := cutOff_take w t steps steps.length
    by_cases hroot : p.isRoot
    · rw [Place.write, if_pos hroot]
      exact .here w t steps
    · rw [Place.write, if_neg hroot]
      split
      · next hok => exact congrArg Prod.snd hok ▸ hrun
      · next herror => exact congrArg Prod.snd herror ▸ hrun
  · rcases hcut.inspected hclosed hc he rfl with rfl | ⟨found, hcut, hfound⟩
    · rw [hl] at he ⊢
      exact survives_of_beside he (.inl rfl) (.inl rfl)
    · exact CutOff.looked (w := { w with mode := found }) hc he hl rfl hcut hfound

/-! ## A file with a link under the name of its backup -/

def shadowed : FileTree where
  entries := [(["ws"], .directory), (["ws", "a"], .file "old".toUTF8 0o640),
    (["ws", "a.bak"], .link "../out"), (["out"], .file "far".toUTF8 0o600)]
  distinct := by decide

def shadowing : Writing where
  target := { absolute := ["ws", "a"], relative := ["a"] }
  content := "new".toUTF8
  createParents := false
  backup := true

/-- Cut off before the last step, the write has kept the file in place of the link, and where the
link led nothing has changed. -/
theorem survives_of_cutOff_shadowed :
    shadowed.Closed ∧ shadowed.Canonical ["ws", "a"] ∧
      shadowed.entry? ["ws", "a"] = some (.file "old".toUTF8 0o640) ∧
      ∃ u, CutOff shadowing shadowed steps u ∧
        u.entry? ["ws", "a"] = some (.file "old".toUTF8 0o640) ∧
        u.entry? ["ws", "a.bak"] = some (.file "old".toUTF8 0o640) ∧
        u.entry? ["ws", ".tmp000000"] = some (.file "new".toUTF8 0o640) ∧
        u.entry? ["out"] = some (.file "far".toUTF8 0o600) := by
  have hclosed : shadowed.Closed := by decide
  have hc : shadowed.Canonical ["ws", "a"] :=
    Closed.canonical (by decide) (by decide) ⟨_, rfl, by simp⟩
  obtain ⟨hcut, -, hsurvives⟩ := survives_of_cutOff
    (p := { absolute := ["ws", "a"], relative := ["a"] }) hclosed hc rfl "new".toUTF8 false true
  have hu := hsurvives _ (hcut 7)
  refine ⟨hclosed, hc, rfl, _, hcut 7, ?_, ?_, ?_, ?_⟩
  · cbv
  · cbv
  · cbv
  · obtain ⟨n, -, hsame⟩ := hu.elsewhere
    exact hsame _ (by simp) (by simp [backupOf, Location.parent]) (by simp [Location.parent])

end Worksite.Writing
