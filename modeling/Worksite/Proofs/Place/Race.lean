import Worksite.Proofs.Place.Turn

/-!
Two writes over one file that is kept, one step of either at a time. Each keeps the file that it has
copied, and that is the one that it replaces only if the other write has not come between.
-/
namespace Worksite

open FileTree

variable {step : Writing.Step} {rest : List Writing.Step} {mode : Nat}

/-- Two writes under way over one tree, with the steps that each has left. -/
structure Race where
  tree : FileTree
  writing : Bool → Writing
  left : Bool → List Writing.Step

namespace Race

open Writing

/-- One of the two does its next step, unless it has none left or fails. -/
def next? (r : Race) (i : Bool) : Option Race :=
  match r.left i with
  | [] => none
  | s :: rest =>
    match (r.writing i).step r.tree s with
    | (.ok w, t) =>
      some { tree := t, writing := Function.update r.writing i w,
             left := Function.update r.left i rest }
    | (.error _, _) => none

/-- The two do their steps in turns, of which none fails. -/
def play (r : Race) : List Bool → Option Race
  | [] => some r
  | i :: turns => (r.next? i).bind (·.play turns)

/-- Two writes over a place, before their first steps. -/
def start (p : Place) (content : Bool → ByteArray) (createParents : Bool → Bool) (t : FileTree) :
    Race where
  tree := t
  writing i :=
    { target := p, content := content i, createParents := createParents i, backup := true }
  left _ := steps

theorem next?_eq_some {r r' : Race} {i : Bool} (h : r.next? i = some r') :
    ∃ s rest, r.left i = s :: rest ∧ (r.writing i).step r.tree s = (.ok (r'.writing i), r'.tree) ∧
      r'.writing (!i) = r.writing (!i) ∧ r'.left i = rest ∧ r'.left (!i) = r.left (!i) := by
  unfold next? at h
  split at h
  · cases h
  · next s rest hleft =>
    split at h
    · next w t hstep =>
      obtain rfl := Option.some.inj h
      refine ⟨s, rest, hleft, ?_, ?_, ?_, ?_⟩
      · simp [hstep]
      · exact Function.update_of_ne (Bool.not_ne_self i) ..
      · exact Function.update_self ..
      · exact Function.update_of_ne (Bool.not_ne_self i) ..
    · cases h

/-- The turns of one write in a row are its run. -/
theorem play_replicate {r : Race} {i : Bool} {w : Writing} {t : FileTree}
    (h : (r.writing i).run r.tree (r.left i) = (.ok w, t)) :
    ∃ r', r.play (List.replicate (r.left i).length i) = some r' ∧ r'.tree = t ∧
      r'.writing i = w ∧ r'.writing (!i) = r.writing (!i) ∧ r'.left i = [] ∧
      r'.left (!i) = r.left (!i) := by
  generalize hleft : r.left i = left at h
  induction left generalizing r with
  | nil =>
    obtain ⟨hw, rfl⟩ := Prod.mk.inj h
    exact ⟨r, rfl, rfl, Except.ok.inj hw, rfl, hleft, rfl⟩
  | cons s rest ih =>
    rw [run_cons] at h
    split at h
    · next w₁ t₁ hstep =>
      have hnext : r.next? i = some { tree := t₁, writing := Function.update r.writing i w₁,
                                      left := Function.update r.left i rest } := by
        simp only [next?, hleft, hstep]
      obtain ⟨s', rest', hleft', -, hwriting, hrest, hother⟩ := next?_eq_some hnext
      obtain rfl : rest' = rest := (List.cons.inj (hleft'.symm.trans hleft)).2
      obtain ⟨r', hplay, htree, hw, hw', hdone, hleft'⟩ := ih hrest (by simpa using h)
      refine ⟨r', ?_, htree, hw, hw'.trans hwriting, hdone, hleft'.trans hother⟩
      rw [List.length_cons, List.replicate_succ, play, hnext]
      exact hplay
    · cases congrArg Prod.fst h

/-- What is at the target and at its backup while two writes are under way, and what each of them
has copied. -/
structure Tally where
  held : ByteArray
  copied : Bool → ByteArray
  kept : Option Entry

/-- The tally after a step of one of the two. -/
def Tally.after (y : Tally) (mode : Nat) (content : ByteArray) (i : Bool) : Writing.Step → Tally
  | .copy => { y with copied := Function.update y.copied i y.held }
  | .placeBackup => { y with kept := some (.file (y.copied i) mode) }
  | .place => { y with held := content }
  | _ => y

section Tally

variable (y : Tally) (mode : Nat) (content : ByteArray) (i : Bool) (s : Writing.Step)

theorem Tally.after_held :
    (y.after mode content i s).held = if s = .place then content else y.held := by
  cases s <;> rfl

theorem Tally.after_copied :
    (y.after mode content i s).copied i = if s = .copy then y.held else y.copied i := by
  cases s with
  | copy => exact Function.update_self ..
  | _ => rfl

theorem Tally.after_copied_not : (y.after mode content i s).copied (!i) = y.copied (!i) := by
  cases s with
  | copy => exact Function.update_of_ne (Bool.not_ne_self i) ..
  | _ => rfl

theorem Tally.after_kept : (y.after mode content i s).kept =
    if s = .placeBackup then some (.file (y.copied i) mode) else y.kept := by
  cases s <;> rfl

end Tally

/-- Two writes over a place whose tally is told. -/
structure Tallies (r : Race) (p : Place) (content : Bool → ByteArray) (mode : Nat) (y : Tally) :
    Prop where
  target : ∀ i, (r.writing i).target = p
  content : ∀ i, (r.writing i).content = content i
  standing : ∀ i, ∃ name, (r.writing i).Over r.tree name y.held mode
  inHand : ∀ i, (r.writing i).InHand r.tree (y.copied i) mode (r.left i)
  apart : ∀ i x, (r.writing i).passing = some x → (r.writing (!i)).passing ≠ some x
  backup : r.tree.entry? (backupOf p.absolute) = y.kept
  left : ∀ i, r.left i <:+ steps

variable {r r' st : Race} {p : Place} {content : Bool → ByteArray} {old : ByteArray} {y : Tally}
  {i : Bool} {turns : List Bool}

theorem Tallies.next (h : r.Tallies p content mode y) (hnext : r.next? i = some r') :
    ∃ s rest, r.left i = s :: rest ∧ r'.left i = rest ∧ r'.left (!i) = r.left (!i) ∧
      r'.Tallies p content mode (y.after mode (content i) i s) := by
  obtain ⟨s, rest, hleft, hstep, hwriting, hrest, hother⟩ := next?_eq_some hnext
  obtain ⟨name, hover⟩ := h.standing i
  have hsuffix := h.left i
  have hhand := h.inHand i
  rw [hleft] at hsuffix hhand
  have hm := moved_step hover hsuffix hhand hstep
  obtain ⟨htarget, hcontent, hbackup⟩ := hm.same
  have hsame : (r.writing (!i)).target = (r.writing i).target :=
    (h.target _).trans (h.target i).symm
  have hapart : ∀ x, (r.writing (!i)).passing = some x → (r'.writing i).passing ≠ some x := by
    refine hm.apart (fun x hx => ?_) (h.inHand (!i)).passing
    have hx' := h.apart (!i) x hx
    rwa [Bool.not_not] at hx'
  refine ⟨s, rest, hleft, hrest, hother, ?_⟩
  refine ⟨?_, ?_, ?_, ?_, ?_, ?_, ?_⟩
  · rw [Bool.forall_bool' i, hwriting, htarget]
    exact ⟨h.target i, h.target _⟩
  · rw [Bool.forall_bool' i, hwriting, hcontent]
    exact ⟨h.content i, h.content _⟩
  · rw [Tally.after_held, ← h.content i, Bool.forall_bool' i, hwriting]
    obtain ⟨_, hover'⟩ := h.standing (!i)
    exact ⟨⟨name, hm.over hover hhand.passing htarget (hbackup ▸ hover.keeping)⟩,
      name, hm.over hover hhand.passing hsame hover'.keeping⟩
  · rw [Bool.forall_bool' i, hwriting, hrest, hother, Tally.after_copied, Tally.after_copied_not]
    refine ⟨hm.inHand, hm.inHand_other hover hsame (fun x hx => ?_) (h.inHand _)⟩
    have hx' := h.apart (!i) x hx
    rwa [Bool.not_not] at hx'
  · rw [Bool.forall_bool' i, hwriting, Bool.not_not]
    exact ⟨fun x hx hx' => hapart x hx' hx, hapart⟩
  · rw [Tally.after_kept, ← h.backup, ← h.target i]
    exact hm.backup
  · rw [Bool.forall_bool' i, hrest, hother]
    exact ⟨(List.suffix_cons s rest).trans hsuffix, h.left _⟩

/-! ## The order of the steps -/

theorem of_placeBackup (h : .placeBackup :: rest <:+ steps) :
    .copy ∉ rest ∧ .placeBackup ∉ rest := by
  rw [rest_of_left h]
  decide

theorem of_place (h : .place :: rest <:+ steps) : rest = [] :=
  rest_of_left h

theorem placeBackup_mem {left : List Writing.Step} (h : left <:+ steps) (hcopy : .copy ∈ left) :
    .placeBackup ∈ left := by
  simp only [steps, List.suffix_cons_iff, List.suffix_nil] at h
  rcases h with rfl | rfl | rfl | rfl | rfl | rfl | rfl | rfl | rfl
  all_goals simp_all

/-- Neither of the two has replaced the file. -/
structure Even (r : Race) (old : ByteArray) (mode : Nat) (y : Tally) : Prop where
  held : y.held = old
  left : ∀ i, .place ∈ r.left i
  copied : ∀ i, .copy ∉ r.left i → y.copied i = old
  kept : ∀ i, .placeBackup ∉ r.left i → y.kept = some (.file old mode)

/-- One of the two has replaced the file, and the other is to leave some bytes at the backup. -/
structure Ahead (r : Race) (i : Bool) (old first last : ByteArray) (mode : Nat) (y : Tally) :
    Prop where
  held : y.held = first
  done : r.left i = []
  left : .place ∈ r.left (!i)
  copies : .copy ∈ r.left (!i) → last = first
  copied : .copy ∉ r.left (!i) → y.copied (!i) = last
  kept : y.kept = some (.file (if .placeBackup ∈ r.left (!i) then old else last) mode)

theorem Even.next {bytes : ByteArray} (h : r.Even old mode y)
    (hs : r.left i <:+ steps) (hleft : r.left i = step :: rest) (hrest : r'.left i = rest)
    (hother : r'.left (!i) = r.left (!i)) (hne : step ≠ .place) :
    r'.Even old mode (y.after mode bytes i step) := by
  rw [hleft] at hs
  have hcopied : step = .placeBackup → y.copied i = old := by
    rintro rfl
    apply h.copied i
    rw [hleft]
    simpa using (of_placeBackup hs).1
  refine ⟨?_, ?_, ?_, ?_⟩
  · rw [Tally.after_held, if_neg hne, h.held]
  · rw [Bool.forall_bool' i, hrest, hother]
    refine ⟨?_, h.left _⟩
    have hmem := hleft ▸ h.left i
    exact (List.mem_cons.mp hmem).resolve_left hne.symm
  · rw [Bool.forall_bool' i, hrest, hother, Tally.after_copied, Tally.after_copied_not]
    refine ⟨fun hcopy => ?_, h.copied _⟩
    split_ifs with hs
    · exact h.held
    · apply h.copied i
      rw [hleft, List.mem_cons, not_or]
      exact ⟨Ne.symm hs, hcopy⟩
  · rw [Bool.forall_bool' i, hrest, hother, Tally.after_kept]
    split_ifs with hs
    · rw [hcopied hs]
      exact ⟨fun _ => rfl, fun _ => rfl⟩
    · refine ⟨fun hkept => h.kept i ?_, h.kept _⟩
      rw [hleft, List.mem_cons, not_or]
      exact ⟨Ne.symm hs, hkept⟩

/-- Who replaces the file first leaves it to the other what is kept in the end. -/
theorem Even.ahead (h : r.Even old mode y) (bytes : ByteArray)
    (hs : ∀ i, r.left i <:+ steps) (hleft : r.left i = .place :: rest) (hrest : r'.left i = rest)
    (hother : r'.left (!i) = r.left (!i)) :
    r'.Ahead i old bytes (if .copy ∈ r.left (!i) then bytes else old) mode
      (y.after mode bytes i .place) := by
  obtain rfl := of_place (hleft ▸ hs i)
  have hkept : y.kept = some (.file old mode) := by
    apply h.kept i
    rw [hleft]
    simp
  refine ⟨rfl, hrest, hother ▸ h.left _, fun hcopy => ?_, fun hcopy => ?_, ?_⟩
  · rw [hother] at hcopy
    exact if_pos hcopy
  · rw [hother] at hcopy
    rw [if_neg hcopy]
    exact h.copied _ hcopy
  · rw [hother, show (y.after mode bytes i .place).kept = y.kept from rfl, hkept]
    split_ifs with hback hcopy
    · rfl
    · exact absurd (placeBackup_mem (hs _) hcopy) hback
    · rfl

theorem Ahead.next {first last bytes : ByteArray}
    (h : r.Ahead i old first last mode y)
    (hs : r.left (!i) <:+ steps) (hleft : r.left (!i) = step :: rest) (hrest : r'.left (!i) = rest)
    (hother : r'.left i = r.left i) (hne : step ≠ .place) :
    r'.Ahead i old first last mode (y.after mode bytes (!i) step) := by
  rw [hleft] at hs
  have hcopied : step = .placeBackup → y.copied (!i) = last := by
    rintro rfl
    apply h.copied
    rw [hleft]
    simpa using (of_placeBackup hs).1
  refine ⟨?_, hother.trans h.done, ?_, fun hcopy => ?_, fun hcopy => ?_, ?_⟩
  · rw [Tally.after_held, if_neg hne, h.held]
  · have hmem := hleft ▸ h.left
    rw [hrest]
    exact (List.mem_cons.mp hmem).resolve_left hne.symm
  · apply h.copies
    rw [hrest] at hcopy
    rw [hleft]
    exact List.mem_cons_of_mem _ hcopy
  · rw [hrest] at hcopy
    rw [Tally.after_copied]
    split_ifs with hs
    · rw [h.held, h.copies (by simp [hleft, hs])]
    · apply h.copied
      rw [hleft, List.mem_cons, not_or]
      exact ⟨Ne.symm hs, hcopy⟩
  · rw [hrest, Tally.after_kept]
    split_ifs with hs' hback hback
    · subst hs'
      exact absurd hback (of_placeBackup hs).2
    · rw [hcopied hs']
    · rw [h.kept, hleft, if_pos (List.mem_cons_of_mem _ hback)]
    · rw [h.kept, hleft, if_neg]
      rw [List.mem_cons, not_or]
      exact ⟨Ne.symm hs', hback⟩

/-! ## All steps -/

theorem Tallies.entry (h : r.Tallies p content mode y) :
    r.tree.entry? p.absolute = some (.file y.held mode) := by
  obtain ⟨_, hover⟩ := h.standing true
  rw [← h.target true]
  exact hover.entry

theorem play_of_done (hdone : ∀ i, r.left i = []) (h : r.play turns = some st) :
    turns = [] ∧ st = r := by
  cases turns with
  | nil => exact ⟨rfl, (Option.some.inj h).symm⟩
  | cons i turns => simp [play, next?, hdone] at h

theorem play_cons_of_next {j : Bool} {r' : Race} (hnext : r.next? j = some r') (b : List Bool) :
    r.play (j :: b) = r'.play b := by
  rw [play, hnext]
  rfl

theorem play_cons {j : Bool} (h : r.play (j :: turns) = some st) :
    ∃ r', r.next? j = some r' ∧ r'.play turns = some st :=
  Option.bind_eq_some_iff.mp h

/-- The write that is left does the last of all steps, and keeps what it has copied. -/
theorem Ahead.play {last : ByteArray} (ht : r.Tallies p content mode y)
    (h : r.Ahead i old (content i) last mode y) (hplay : r.play turns = some st)
    (hdone : ∀ i, st.left i = []) :
    ∃ b before, turns = b ++ [!i] ∧ r.play b = some before ∧ before.left (!i) = [.place] ∧
      before.tree.entry? p.absolute = some (.file (content i) mode) ∧
      st.tree.entry? p.absolute = some (.file (content (!i)) mode) ∧
      st.tree.entry? (backupOf p.absolute) = some (.file last mode) := by
  -- on the turns, which are all of the write that is left
  induction turns generalizing r y with
  | nil =>
    obtain rfl := Option.some.inj hplay
    have hleft := h.left
    rw [hdone] at hleft
    cases hleft
  | cons j turns ih =>
    obtain ⟨r', hnext, hrun⟩ := play_cons hplay
    obtain ⟨s, rest, hleft, hrest, hother, ht'⟩ := ht.next hnext
    obtain rfl : j = !i := by
      apply Bool.eq_not_of_ne
      rintro rfl
      rw [h.done] at hleft
      cases hleft
    rw [Bool.not_not] at hother
    by_cases hs : s = .place
    · subst hs
      have hnil : rest = [] := of_place (hleft ▸ ht.left _)
      have hboth : ∀ k, r'.left k = [] := by
        rw [Bool.forall_bool' i]
        exact ⟨hother.trans h.done, hrest.trans hnil⟩
      obtain ⟨rfl, rfl⟩ := play_of_done hboth hrun
      refine ⟨[], r, rfl, rfl, hnil ▸ hleft, h.held ▸ ht.entry, ht'.entry, ?_⟩
      rw [ht'.backup, Tally.after_kept, if_neg (by simp), h.kept, if_neg (by simp [hleft, hnil])]
    · obtain ⟨b, before, rfl, hbefore, hend⟩ :=
        ih ht' (h.next (ht.left _) hleft hrest hother hs) hrun
      exact ⟨(!i) :: b, before, rfl, (play_cons_of_next hnext b).trans hbefore, hend⟩

/-- One of the two is the first to replace the file, and the other does the last of all steps. -/
theorem Even.play (ht : r.Tallies p content mode y) (h : r.Even old mode y)
    (hplay : r.play turns = some st) (hdone : ∀ i, st.left i = []) :
    ∃ i a b between before, turns = a ++ i :: b ++ [!i] ∧ r.play a = some between ∧
      between.left i = [.place] ∧ r.play (a ++ i :: b) = some before ∧
      before.left (!i) = [.place] ∧
      before.tree.entry? p.absolute = some (.file (content i) mode) ∧
      st.tree.entry? p.absolute = some (.file (content (!i)) mode) ∧
      st.tree.entry? (backupOf p.absolute) =
        some (.file (if .copy ∈ between.left (!i) then content i else old) mode) := by
  -- on the turns, up to the first that replaces the file
  induction turns generalizing r y with
  | nil =>
    obtain rfl := Option.some.inj hplay
    have hleft := h.left true
    rw [hdone] at hleft
    cases hleft
  | cons j turns ih =>
    obtain ⟨r', hnext, hrun⟩ := play_cons hplay
    obtain ⟨s, rest, hleft, hrest, hother, ht'⟩ := ht.next hnext
    by_cases hs : s = .place
    · subst hs
      have hnil : rest = [] := of_place (hleft ▸ ht.left _)
      have hahead := h.ahead (content j) ht.left hleft hrest hother
      obtain ⟨b, before, rfl, hbefore, hend⟩ := hahead.play ht' hrun hdone
      exact ⟨j, [], b, r, before, rfl, rfl, hnil ▸ hleft,
        (play_cons_of_next hnext b).trans hbefore, hend⟩
    · obtain ⟨i, a, b, between, before, rfl, hbetween, hplace, hbefore, hend⟩ :=
        ih ht' (h.next (ht.left _) hleft hrest hother hs) hrun
      exact ⟨i, j :: a, b, between, before, rfl, (play_cons_of_next hnext a).trans hbetween, hplace,
        (play_cons_of_next hnext (a ++ i :: b)).trans hbefore, hend⟩

theorem tallies_start {t : FileTree} (hc : t.Canonical p.absolute)
    (hf : t.find true p.absolute = .ok (.file old mode)) (content : Bool → ByteArray)
    (createParents : Bool → Bool) :
    (start p content createParents t).Tallies p content mode
      { held := old, copied := fun _ => .empty, kept := t.entry? (backupOf p.absolute) } := by
  obtain ⟨hchecked, d, hd, he⟩ := find_eq_ok.mp hf
  obtain rfl : p.absolute = d := Except.ok.inj ((follow_canonical hc).symm.trans hd)
  have hne : p.absolute ≠ [] := by
    intro hnil
    rw [hnil] at he
    cases he
  refine ⟨fun _ => rfl, fun _ => rfl, fun i => ?_, fun _ => rfl, fun _ _ hx => ?_, rfl, fun _ => ?_⟩
  · exact ⟨p.absolute.getLast hne, (List.dropLast_append_getLast hne).symm, rfl, hchecked, hc, he⟩
  · cases hx
  · exact List.suffix_refl _

/-- Two writes over a file that both keep it, and that both succeed: whichever way their steps
interleave, the file at the backup in the end is the one that the last of them has replaced if that
one copied it after the other was done, or if the bytes are the same; and the one from before both
otherwise. -/
theorem play_keeps_iff {t : FileTree} (hc : t.Canonical p.absolute)
    (hf : t.find true p.absolute = .ok (.file old mode)) (content : Bool → ByteArray)
    (createParents : Bool → Bool) (hplay : (start p content createParents t).play turns = some st)
    (hdone : ∀ i, st.left i = []) :
    ∃ i a b between before, turns = a ++ i :: b ++ [!i] ∧
      (start p content createParents t).play a = some between ∧ between.left i = [.place] ∧
      (start p content createParents t).play (a ++ i :: b) = some before ∧
      before.left (!i) = [.place] ∧
      before.tree.entry? p.absolute = some (.file (content i) mode) ∧
      st.tree.entry? p.absolute = some (.file (content (!i)) mode) ∧
      st.tree.entry? (backupOf p.absolute) =
        some (.file (if .copy ∈ between.left (!i) then content i else old) mode) ∧
      (st.tree.entry? (backupOf p.absolute) = before.tree.entry? p.absolute ↔
        .copy ∈ between.left (!i) ∨ content i = old) := by
  have ht := tallies_start hc hf content createParents
  have heven : (start p content createParents t).Even old mode
      { held := old, copied := fun _ => .empty, kept := t.entry? (backupOf p.absolute) } := by
    refine ⟨rfl, fun _ => ?_, fun _ hcopy => ?_, fun _ hback => ?_⟩
    · simp [start, steps]
    · simp [start, steps] at hcopy
    · simp [start, steps] at hback
  obtain ⟨i, a, b, between, before, hturns, hbetween, hplace, hbefore, hlast, hfirst, hend,
    hkept⟩ := heven.play ht hplay hdone
  refine ⟨i, a, b, between, before, hturns, hbetween, hplace, hbefore, hlast, hfirst, hend,
    hkept, ?_⟩
  rw [hkept, hfirst]
  split_ifs with hcopy
  · simp [hcopy]
  · simp [hcopy, eq_comm]

/-! ## Two writes over one file -/

def contested : FileTree where
  entries := [(["ws"], .directory), (["ws", "a"], .file "old".toUTF8 0o640)]
  distinct := by decide

def rivals : Race :=
  start { absolute := ["ws", "a"], relative := ["a"] }
    (fun i => if i then "x".toUTF8 else "y".toUTF8) (fun _ => false) contested

/-- One write, then the other. -/
def inOrder : List Bool := List.replicate 8 true ++ List.replicate 8 false

/-- The second write comes between the backup of the first and the rest of it. -/
def overtaking : List Bool :=
  List.replicate 5 true ++ List.replicate 8 false ++ List.replicate 3 true

theorem play_keeps_iff_inOrder :
    contested.Canonical ["ws", "a"] ∧
      contested.find true ["ws", "a"] = .ok (.file "old".toUTF8 0o640) ∧
      ∃ before st, rivals.play inOrder.dropLast = some before ∧ rivals.play inOrder = some st ∧
        (∀ i, st.left i = []) ∧
        before.tree.entry? ["ws", "a"] = some (.file "x".toUTF8 0o640) ∧
        st.tree.entry? ["ws", "a.bak"] = before.tree.entry? ["ws", "a"] := by
  have hc : contested.Canonical ["ws", "a"] :=
    Closed.canonical (by decide) (by decide) ⟨_, rfl, by simp⟩
  have hf : contested.find true ["ws", "a"] = .ok (.file "old".toUTF8 0o640) := by cbv
  have hplayed : (rivals.play inOrder).map (fun st =>
      (st.left true, st.left false, st.tree.entry? ["ws", "a.bak"])) =
        some ([], [], some (.file "x".toUTF8 0o640)) := by cbv
  obtain ⟨st, hplay, hst⟩ := Option.map_eq_some_iff.mp hplayed
  simp only [Prod.mk.injEq] at hst
  have hdone : ∀ i, st.left i = [] := (Bool.forall_bool' true).mpr ⟨hst.1, hst.2.1⟩
  obtain ⟨i, a, b, -, before, hturns, -, -, hbefore, -, hfirst, -⟩ :=
    play_keeps_iff (p := { absolute := ["ws", "a"], relative := ["a"] }) hc hf _ _ hplay hdone
  -- the last turn is the second write's
  have hlast : (!i) = false := by
    have h := congrArg List.getLast? hturns
    rw [List.getLast?_concat] at h
    exact (Option.some.inj h).symm
  obtain rfl : i = true := by simpa using hlast
  have hdrop : inOrder.dropLast = a ++ true :: b := by rw [hturns, List.dropLast_concat]
  exact ⟨hc, hf, before, st, hdrop ▸ hbefore, hplay, hdone, hfirst, hst.2.2.trans hfirst.symm⟩

/-- The bytes of a write that is overtaken are lost: they stood at the target before the last step,
and the file at the backup is from before both. -/
theorem play_loses_overtaking :
    ∃ before st, rivals.play overtaking.dropLast = some before ∧ before.left true = [.place] ∧
      rivals.play overtaking = some st ∧ (∀ i, st.left i = []) ∧
      before.tree.entry? ["ws", "a"] = some (.file "y".toUTF8 0o640) ∧
      st.tree.entry? ["ws", "a.bak"] = some (.file "old".toUTF8 0o640) ∧
      st.tree.entry? ["ws", "a.bak"] ≠ before.tree.entry? ["ws", "a"] := by
  have hbefore : (rivals.play overtaking.dropLast).map (fun st =>
      (st.left true, st.tree.entry? ["ws", "a"])) =
        some ([.place], some (.file "y".toUTF8 0o640)) := by cbv
  have hplayed : (rivals.play overtaking).map (fun st =>
      (st.left true, st.left false, st.tree.entry? ["ws", "a.bak"])) =
        some ([], [], some (.file "old".toUTF8 0o640)) := by cbv
  obtain ⟨before, hbefore, hb⟩ := Option.map_eq_some_iff.mp hbefore
  obtain ⟨st, hplay, hst⟩ := Option.map_eq_some_iff.mp hplayed
  simp only [Prod.mk.injEq] at hb hst
  refine ⟨before, st, hbefore, hb.1, hplay, ?_, hb.2, hst.2.2, ?_⟩
  · exact (Bool.forall_bool' true).mpr ⟨hst.1, hst.2.1⟩
  · rw [hb.2, hst.2.2]
    intro h
    have hsize := congrArg ByteArray.size (Entry.file.inj (Option.some.inj h)).1
    exact absurd hsize (by decide)

end Race

end Worksite
