import Worksite.Proofs.Walk.Enumeration

/-!
Walks under a cap. With all the time, a cap cuts what the walk finds without it behind its first
files; so what a walk finds is one list, of which a caller gets as much as it asks for. A walk from
a directory tells of the cut just if the list is as long as the cap or longer.
-/
namespace Worksite.Walk

variable {s : Sandbox} {t : FileTree} {o : WalkOptions} {root : Place}
  {c : Location → Option (Location × FoundFile)} {seen ls : List Location} {n : Nat}

/-- With all the time, a cap ends the gathering at its last file. -/
theorem gather_capped (hn : n ≠ 0) :
    let found := firstOfEach ((ls.filterMap c).filter (·.1 ∉ seen))
    gather c seen (some n) .unbounded ls =
      ({ files := found.take n, truncated := if n ≤ found.length then some .count else none },
        .unbounded) := by
  dsimp only
  induction ls generalizing seen n with
  | nil =>
    have hnil : gather c seen (some n) .unbounded [] = ({}, .unbounded) := rfl
    simp [hnil, firstOfEach, hn]
  | cons l ls ih =>
    rw [gather_cons, if_neg (by decide), List.filterMap_cons]
    cases hc : c l with
    | none => simp only [Deadline.next_unbounded, ih hn]
    | some found =>
      obtain ⟨place, file⟩ := found
      by_cases hplace : place ∈ seen
      · simp [hplace, Deadline.next_unbounded, ih hn]
      · obtain ⟨n, rfl⟩ := Nat.exists_eq_succ_of_ne_zero hn
        by_cases hone : n = 0
        · subst hone
          simp [hplace, Deadline.next_unbounded, firstOfEach, List.eraseDupsBy_cons]
        · simp [hplace, Deadline.next_unbounded, ih hone, firstOfEach, List.eraseDupsBy_cons, hone]

/-- The files that a cap leaves. -/
def capped : Option Nat → List FoundFile → List FoundFile
  | none, files => files
  | some n, files => files.take n

/-- What a walk finds if nothing ends it early. -/
def found (s : Sandbox) (t : FileTree) (o : WalkOptions) (root : Place) : List FoundFile :=
  match enumerate s t root { o with maxCount := none } .unbounded with
  | .ok (e, _) => e.files
  | .error _ => []

/-- The names of files below the workspace root. -/
def namesOf (files : List FoundFile) : List Location := files.map (·.relative)

@[simp] theorem namesOf_append (a b : List FoundFile) : namesOf (a ++ b) = namesOf a ++ namesOf b :=
  List.map_append

theorem gather_of_time (cap : Option Nat) (hcap : cap ≠ some 0) (ls : List Location) :
    ∃ e, gather c [] cap .unbounded ls = (e, .unbounded) ∧
      e.files = capped cap (gather c [] none .unbounded ls).1.files ∧
      e.truncated ≠ some .timeBudget := by
  cases cap with
  | none => exact ⟨_, gather_unbounded c [] ls, by rw [gather_unbounded]; rfl, by simp⟩
  | some n =>
    refine ⟨_, gather_capped (by simpa using hcap), by rw [gather_unbounded]; rfl, ?_⟩
    dsimp only
    split_ifs <;> simp

/-- Time that is not bounded ends no walk, and is left as it was. -/
theorem untimed {whole : Enumeration} {d : Deadline}
    (h : enumerate s t root o .unbounded = .ok (whole, d)) :
    d = .unbounded ∧ whole.truncated ≠ some .timeBudget := by
  obtain ⟨filter, -, hcases⟩ := enumerate_cases h
  rcases hcases with ⟨rfl, hsame⟩ | ⟨bytes, mode, -, -, rfl, hsame⟩ | ⟨hcap, -, -, hgather⟩
  · obtain ⟨-, rfl⟩ := Prod.mk.inj (Except.ok.inj ((hsame _).symm.trans h))
    exact ⟨rfl, by simp⟩
  · obtain ⟨-, rfl⟩ := Prod.mk.inj (Except.ok.inj ((hsame _).symm.trans h))
    exact ⟨rfl, by simp⟩
  · obtain ⟨e, he, -, htime⟩ :=
      gather_of_time (c := candidate? s t filter root.absolute) o.maxCount hcap
        (visited t root.absolute)
    obtain ⟨rfl, rfl⟩ := Prod.mk.inj (he.symm.trans (Except.ok.inj ((hgather _).symm.trans h)))
    exact ⟨rfl, htime⟩

theorem found_of_directory (hroot : t.find true root.absolute = .ok .directory) :
    found s t o root =
      match FileFilter.ofTexts o.including o.excluding with
      | .ok filter =>
        firstOfEach ((visited t root.absolute).filterMap (candidate? s t filter root.absolute))
      | .error _ => [] := by
  rw [found, enumerate]
  cases FileFilter.ofTexts o.including o.excluding with
  | error e => rfl
  | ok filter =>
    simp only [hroot, ok_bind, reduceCtorEq, ↓reduceIte, gather_unbounded, List.not_mem_nil,
      not_false_eq_true, decide_true, List.filter_true, pure, Except.pure]

/-- With all the time and no cap, nothing ends a walk from a directory early. -/
theorem enumerate_found {filter : FileFilter}
    (hf : FileFilter.ofTexts o.including o.excluding = .ok filter)
    (hroot : t.find true root.absolute = .ok .directory) :
    enumerate s t root { o with maxCount := none } .unbounded =
      .ok ({ files := found s t o root }, .unbounded) := by
  rw [found_of_directory hroot, enumerate]
  simp [hf, hroot, gather_unbounded, pure, Except.pure]

/-- With all the time, a walk under a cap gives the first of the files that it finds without. -/
theorem enumerate_of_time {filter : FileFilter} {e : Entry}
    (hf : FileFilter.ofTexts o.including o.excluding = .ok filter)
    (hroot : t.find true root.absolute = .ok e) (cap : Option Nat) :
    ∃ e, enumerate s t root { o with maxCount := cap } .unbounded = .ok (e, .unbounded) ∧
      e.files = capped cap (found s t o root) ∧ e.truncated ≠ some .timeBudget := by
  by_cases hcap : cap = some 0
  · subst hcap
    exact ⟨{}, by simp [enumerate, hf, pure, Except.pure], by simp [capped], by simp⟩
  · simp only [found, enumerate, hf, hroot, ok_bind, hcap, reduceCtorEq, ↓reduceIte]
    cases e with
    | file bytes mode =>
      -- a file by itself is never cut
      have hone (files : List FoundFile) (hlen : files.length ≤ 1) : capped cap files = files := by
        cases cap with
        | none => rfl
        | some n => exact List.take_of_length_le (by simp at hcap; omega)
      dsimp only
      split_ifs
      · exact ⟨_, rfl, (hone _ (by simp)).symm, by simp⟩
      · exact ⟨_, rfl, (hone _ (by simp)).symm, by simp⟩
    | directory | link | socket =>
      obtain ⟨e, he, hfiles, htime⟩ :=
        gather_of_time (c := candidate? s t filter root.absolute) cap hcap (visited t root.absolute)
      exact ⟨e, congrArg Except.ok he, hfiles, htime⟩

/-- With all the time, a cap cuts the walk from a directory behind its first files. -/
theorem enumerate_cap (hroot : t.find true root.absolute = .ok .directory) (cap : Nat) :
    enumerate s t root { o with maxCount := some cap } .unbounded =
      (enumerate s t root { o with maxCount := none } .unbounded).map fun (e, d) =>
        ({ files := e.files.take cap
           truncated := if 1 ≤ cap ∧ cap ≤ e.files.length then some .count else none }, d) := by
  rw [enumerate, enumerate]
  cases hf : FileFilter.ofTexts o.including o.excluding with
  | error e => rfl
  | ok filter =>
    by_cases hcap : cap = 0
    · subst hcap
      simp [hroot, gather_unbounded, Except.map, pure, Except.pure]
    · have hpos : 1 ≤ cap := Nat.one_le_iff_ne_zero.mpr hcap
      simp [hroot, gather_unbounded, gather_capped hcap, Except.map, pure, Except.pure, hcap, hpos]

/-- With all the time, a walk from a directory under a cap finds the first files of the walk without
one, and tells of the cap if there are so many; a wider cap only adds files behind them. -/
theorem enumerate_capped (hroot : t.find true root.absolute = .ok .directory) (cap : Nat) :
    enumerate s t root { o with maxCount := some cap } .unbounded =
        (enumerate s t root { o with maxCount := none } .unbounded).map (fun (e, d) =>
          ({ files := e.files.take cap
             truncated := if 1 ≤ cap ∧ cap ≤ e.files.length then some .count else none }, d)) ∧
      ∀ wider e e' d d', cap ≤ wider →
        enumerate s t root { o with maxCount := some cap } .unbounded = .ok (e, d) →
        enumerate s t root { o with maxCount := some wider } .unbounded = .ok (e', d') →
        e.files <+: e'.files := by
  refine ⟨enumerate_cap hroot cap, fun wider e e' d d' hle he he' => ?_⟩
  -- both are cut from one walk
  obtain ⟨⟨whole, _⟩, hwhole, he⟩ := map_eq_ok.mp ((enumerate_cap hroot cap).symm.trans he)
  obtain ⟨⟨whole', _⟩, hwhole', he'⟩ := map_eq_ok.mp ((enumerate_cap hroot wider).symm.trans he')
  obtain ⟨rfl, -⟩ := Prod.mk.inj he
  obtain ⟨rfl, -⟩ := Prod.mk.inj he'
  obtain ⟨rfl, -⟩ := Prod.mk.inj (Except.ok.inj (hwhole.symm.trans hwhole'))
  exact List.take_prefix_take_left hle

/-- A cap that is met tells so, and the second name of a file counts for no cap. -/
theorem enumerate_capped_linked :
    linked.find true linkedRoot.absolute = .ok .directory ∧
      enumerate { root := ["ws"] } linked linkedRoot { maxCount := some 1 } .unbounded =
        .ok ({ files := [{ relative := ["a"], size := 1 }], truncated := some .count },
          .unbounded) ∧
      enumerate { root := ["ws"] } linked linkedRoot { maxCount := some 2 } .unbounded =
        .ok ({ files := [{ relative := ["a"], size := 1 }] }, .unbounded) := by
  have hfind : linked.find true linkedRoot.absolute = .ok .directory := by cbv
  have hwhole : enumerate { root := ["ws"] } linked linkedRoot { maxCount := none } .unbounded =
      .ok ({ files := [{ relative := ["a"], size := 1 }] }, .unbounded) := by
    have hroot : linkedRoot.absolute = ["ws"] := rfl
    rw [enumerate_of_directory (by decide +kernel) rfl rfl hfind rfl (by simp), hroot,
      firstOfEach_linked]
  refine ⟨hfind, ?_, ?_⟩
  · rw [(enumerate_capped (o := {}) hfind 1).1, hwhole]
    rfl
  · rw [(enumerate_capped (o := {}) hfind 2).1, hwhole]
    rfl

end Worksite.Walk
