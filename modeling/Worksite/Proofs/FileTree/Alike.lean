import Worksite.Proofs.FileTree.Listing
import Worksite.Proofs.FileTree.Passing

/-!
Trees that are alike for a root: at and below it they hold the same, and elsewhere too but for the
bytes and modes of files. Where names lead does not tell such trees apart, and a change of both
makes trees that are alike again.
-/
namespace Worksite

/-- An entry but for what a file holds. -/
def Entry.shape : Entry → Entry
  | .file _ _ => .file .empty 0
  | .link target => .link target
  | .directory => .directory
  | .socket daemon => .socket daemon

namespace FileTree

variable {root l d p : Location} {t t' : FileTree} {s : String} {e : Entry} {last : Bool}

/-- Two trees that hold the same, but for the bytes and modes of files outside a root. -/
structure Alike (root : Location) (t t' : FileTree) : Prop where
  within : ∀ l, root <+: l → t'.entry? l = t.entry? l
  shape : ∀ l, (t'.entry? l).map Entry.shape = (t.entry? l).map Entry.shape

/-- What stands somewhere is the same in both trees, or a file in both. -/
theorem Alike.entry? (h : t.Alike root t') (l : Location) : t'.entry? l = t.entry? l ∨
    (∃ bytes mode, t.entry? l = some (.file bytes mode)) ∧
      ∃ bytes mode, t'.entry? l = some (.file bytes mode) := by
  have hshape := h.shape l
  rcases ht : t.entry? l with - | e <;> rcases ht' : t'.entry? l with - | e'
  · exact .inl rfl
  · simp [ht, ht'] at hshape
  · simp [ht, ht'] at hshape
  · simp only [ht, ht', Option.map_some, Option.some.injEq] at hshape
    cases e <;> cases e' <;> simp_all [Entry.shape]

theorem Alike.isDirectory (h : t.Alike root t') (l : Location) :
    t'.isDirectory l = t.isDirectory l := by
  rw [Bool.eq_iff_iff, isDirectory_iff, isDirectory_iff]
  rcases h.entry? l with hsame | ⟨⟨_, _, he⟩, _, _, he'⟩
  · rw [hsame]
  · simp [he, he']

theorem Alike.entry?_eq_none (h : t.Alike root t') (l : Location) :
    t'.entry? l = none ↔ t.entry? l = none := by
  rcases h.entry? l with hsame | ⟨⟨_, _, he⟩, _, _, he'⟩
  · rw [hsame]
  · simp [he, he']

/-! ## Where names lead -/

theorem Alike.course (h : t.Alike root t') (last : Bool) (l : Location) (names : List String) :
    t'.course last l names = t.course last l names := by
  induction names generalizing l with
  | nil => rfl
  | cons s rest ih =>
    simp only [FileTree.course, h.isDirectory, ih]
    rcases h.entry? (l ++ [s]) with hsame | ⟨⟨_, _, he⟩, _, _, he'⟩
    · rw [hsame]
    · rw [he, he']

theorem Alike.follow (h : t.Alike root t') (last : Bool) (links : Nat) (l : Location)
    (names : List String) : t'.follow last links l names = t.follow last links l names := by
  induction links generalizing l names with
  | zero => rw [FileTree.follow, FileTree.follow, h.course]
  | succ links ih =>
    rw [FileTree.follow, FileTree.follow, h.course]
    simp only [ih]

theorem Alike.canonical (h : t.Alike root t') (l : Location) : t'.canonical l = t.canonical l := by
  simp only [FileTree.canonical, h.follow]

theorem Alike.seat (h : t.Alike root t') (l : Location) : t'.seat l = t.seat l := by
  simp only [FileTree.seat, h.follow, h.isDirectory]

theorem Alike.straight (h : t.Alike root t') (hs : t.Straight l) : t'.Straight l := by
  intro q hq d hd
  rw [h.follow] at hd
  exact hs q hq d hd

theorem Alike.isCanonical (h : t.Alike root t') (hc : t.Canonical l) : t'.Canonical l := by
  refine ⟨hc.names, fun q hq hne => by rw [h.isDirectory]; exact hc.above q hq hne, ?_⟩
  obtain ⟨e, he, hlink⟩ := hc.here
  rcases h.entry? l with hsame | ⟨-, bytes, mode, he'⟩
  · exact ⟨e, hsame.trans he, hlink⟩
  · exact ⟨_, he', by simp⟩

/-- What is found at a place within the root is the same. -/
theorem Alike.find_of_follow (h : t.Alike root t') (hd : t.follow last maxLinks [] l = .ok d)
    (hroot : root <+: d) : t'.find last l = t.find last l := by
  simp only [find, h.follow, hd, ok_bind, h.within d hroot]

/-- What is found anywhere is the same, but for what a file holds. -/
theorem Alike.find_shape (h : t.Alike root t') (last : Bool) (l : Location) :
    (t'.find last l).map Entry.shape = (t.find last l).map Entry.shape := by
  simp only [find, h.follow]
  cases checkPath l with
  | error e => rfl
  | ok =>
    cases t.follow last maxLinks [] l with
    | error e => rfl
    | ok d =>
      simp only [ok_bind]
      rcases h.entry? d with hsame | ⟨⟨_, _, he⟩, _, _, he'⟩
      · rw [hsame]
      · rw [he, he']
        rfl

theorem shape_eq_directory {e : Entry} : e.shape = .directory ↔ e = .directory := by
  cases e <;> simp [Entry.shape]

theorem Alike.leadsToDirectory (h : t.Alike root t') (l : Location) :
    t'.leadsToDirectory l = t.leadsToDirectory l := by
  have hiff (t : FileTree) : t.find true l = .ok .directory ↔
      (t.find true l).map Entry.shape = .ok .directory := by
    cases t.find true l <;> simp [Except.map, shape_eq_directory]
  rw [Bool.eq_iff_iff, leadsToDirectory_eq, leadsToDirectory_eq, hiff, hiff, h.find_shape]

/-! ## Names -/

theorem nodup_names (t : FileTree) (d : Location) : (t.names d).Nodup := by
  rw [FileTree.names, (List.mergeSort_perm _ _).nodup_iff, List.Nodup, List.pairwise_filterMap]
  refine (List.pairwise_map.mp t.distinct).imp fun {a b} hne x hx y hy heq => hne ?_
  have hconcat {e : Location × Entry} {x : String}
      (hx : (if e.1.dropLast = d then e.1.getLast? else none) = some x) : d ++ [x] = e.1 := by
    split_ifs at hx with hd
    rw [← hd]
    exact List.dropLast_append_getLast? x hx
  rw [← hconcat hx, ← hconcat hy, heq]

theorem names_pairwise (t : FileTree) (d : Location) : (t.names d).Pairwise (· ≤ ·) := by
  have htrans (a b c : String) (hab : decide (a ≤ b)) (hbc : decide (b ≤ c)) : decide (a ≤ c) := by
    rw [decide_eq_true_iff] at hab hbc ⊢
    exact Std.le_trans hab hbc
  have htotal (a b : String) : decide (a ≤ b) || decide (b ≤ a) := by
    simpa using Std.le_total (a := a) (b := b)
  have hsorted := List.pairwise_mergeSort htrans htotal
    (t.entries.filterMap fun e => if e.1.dropLast = d then e.1.getLast? else none)
  rw [FileTree.names]
  simpa only [decide_eq_true_eq] using hsorted

theorem Alike.names (h : t.Alike root t') (d : Location) : t'.names d = t.names d := by
  have hperm : (t'.names d).Perm (t.names d) := by
    rw [List.perm_ext_iff_of_nodup (nodup_names t' d) (nodup_names t d)]
    simp only [mem_names, ne_eq, h.entry?_eq_none, implies_true]
  exact hperm.eq_of_pairwise (fun a b _ _ => Std.le_antisymm) (names_pairwise t' d)
    (names_pairwise t d)

theorem Alike.freshName (h : t.Alike root t') (d : Location) : t'.freshName d = t.freshName d := by
  simp only [FileTree.freshName, h.names]

theorem Alike.below (h : t.Alike root t') (l : Location) : t'.below l = t.below l := by
  have hnodup (t : FileTree) : (t.below l).Nodup :=
    (List.mergeSort_perm _ _).nodup_iff.mpr (t.distinct.filter _)
  have hsorted (t : FileTree) : (t.below l).Pairwise fun a b => a.bytes ≤ b.bytes := by
    rw [FileTree.below, Location.comesBefore_eq]
    exact Location.mergeSort_pairwise _
  have hperm : (t'.below l).Perm (t.below l) := by
    rw [List.perm_ext_iff_of_nodup (hnodup t') (hnodup t)]
    simp only [mem_below, ne_eq, h.entry?_eq_none, implies_true]
  exact hperm.eq_of_pairwise
    (fun a b _ _ hab hba => Location.bytes_injective (Std.le_antisymm hab hba))
    (hsorted t') (hsorted t)

/-! ## Changes -/

theorem Alike.put (h : t.Alike root t') (l : Location) (e : Entry) :
    (t.put l e).Alike root (t'.put l e) := by
  have hput (x : Location) : FileTree.entry? (t'.put l e) x = FileTree.entry? (t.put l e) x ∨
      FileTree.entry? (t.put l e) x = t.entry? x ∧
        FileTree.entry? (t'.put l e) x = t'.entry? x := by
    by_cases hx : x = l
    · by_cases hl : l = []
      · simp [hx, hl]
      · rw [hx, entry?_put_self hl, entry?_put_self hl]
        exact .inl rfl
    · exact .inr ⟨entry?_put_of_ne hx, entry?_put_of_ne hx⟩
  refine ⟨fun x hx => ?_, fun x => ?_⟩
  · rcases hput x with hsame | ⟨he, he'⟩
    · exact hsame
    · rw [he, he', h.within x hx]
  · rcases hput x with hsame | ⟨he, he'⟩
    · rw [hsame]
    · rw [he, he', h.shape x]

/-- Restricting both trees to the same locations. -/
theorem Alike.restrict (h : t.Alike root t') (keep : Location → Bool) :
    (t.restrict keep).Alike root (t'.restrict keep) := by
  refine ⟨fun x hx => ?_, fun x => ?_⟩ <;> by_cases hnil : x = []
  · simp [hnil]
  · rw [entry?_restrict keep hnil, entry?_restrict keep hnil, h.within x hx]
  · simp [hnil]
  · rw [entry?_restrict keep hnil, entry?_restrict keep hnil]
    split_ifs
    · exact h.shape x
    · rfl

/-- Two changes are refused for the same reason, or leave trees that are alike. -/
inductive AlikeResult (root : Location) {ε : Type} : Except ε FileTree → Except ε FileTree → Prop
  | ok {t t' : FileTree} (h : t.Alike root t') : AlikeResult root (.ok t) (.ok t')
  | error (e : ε) : AlikeResult root (.error e) (.error e)

theorem AlikeResult.cases {ε : Type} {x x' : Except ε FileTree} (h : AlikeResult root x x') :
    (∃ t t', x = .ok t ∧ x' = .ok t' ∧ t.Alike root t') ∨ ∃ e, x = .error e ∧ x' = .error e := by
  cases h with
  | ok h => exact .inl ⟨_, _, rfl, rfl, h⟩
  | error e => exact .inr ⟨e, rfl, rfl⟩

theorem AlikeResult.bind {ε α : Type} (x : Except ε α) {f f' : α → Except ε FileTree}
    (h : ∀ a, AlikeResult root (f a) (f' a)) : AlikeResult root (x >>= f) (x >>= f') := by
  cases x with
  | error e => exact .error e
  | ok a => exact h a

theorem Alike.makeDirectory (h : t.Alike root t') (l : Location) :
    AlikeResult root (t.makeDirectory l) (t'.makeDirectory l) := by
  rw [FileTree.makeDirectory, FileTree.makeDirectory, h.seat]
  refine .bind _ fun p => ?_
  rcases h.entry? p with hsame | ⟨⟨_, _, he⟩, _, _, he'⟩
  · rw [hsame]
    cases t.entry? p with
    | none => exact .ok (h.put p .directory)
    | some e => exact .error _
  · rw [he, he']
    exact .error _

/-- Two outcomes give the same answer, and leave trees that are alike. -/
structure AlikeOutcome (root : Location) {α : Type} (a b : α × FileTree) : Prop where
  answer : b.1 = a.1
  tree : a.2.Alike root b.2

theorem AlikeOutcome.cases {ε α : Type} {a b : Except ε α × FileTree}
    (h : AlikeOutcome root a b) :
    (∃ x t t', a = (.ok x, t) ∧ b = (.ok x, t') ∧ t.Alike root t') ∨
      ∃ e t t', a = (.error e, t) ∧ b = (.error e, t') ∧ t.Alike root t' := by
  obtain ⟨hanswer, htree⟩ := h
  obtain ⟨e | x, t⟩ := a
  · exact .inr ⟨e, t, b.2, rfl, Prod.ext hanswer rfl, htree⟩
  · exact .inl ⟨x, t, b.2, rfl, Prod.ext hanswer rfl, htree⟩

theorem Alike.makeDirectories (h : t.Alike root t') (names : List String) :
    AlikeOutcome root (t.makeDirectories names) (t'.makeDirectories names) := by
  induction names generalizing t t' with
  | nil => exact ⟨rfl, h⟩
  | cons name above ih =>
    -- what is in the way is a directory in both trees, or in neither
    have hsettled {t t' : FileTree} (h : t.Alike root t') (l : Location) (e : SystemError) :
        AlikeOutcome root
          (if t.leadsToDirectory l then ((.ok (), t) : Except SystemError Unit × FileTree)
            else (.error e, t))
          (if t'.leadsToDirectory l then (.ok (), t') else (.error e, t')) := by
      rw [h.leadsToDirectory]
      split_ifs <;> exact ⟨rfl, h⟩
    rw [FileTree.makeDirectories, FileTree.makeDirectories]
    obtain ⟨t₁, t₁', hm, hm', h₁⟩ | ⟨e, hm, hm'⟩ := (h.makeDirectory (name :: above).reverse).cases
    · rw [hm, hm']
      exact ⟨rfl, h₁⟩
    · rw [hm, hm']
      by_cases hmissing : e = .noEntry
      · subst hmissing
        obtain ⟨⟨⟩, t₁, t₁', hd, hd', h₁⟩ | ⟨e, t₁, t₁', hd, hd', h₁⟩ := (ih h).cases
        · obtain ⟨t₂, t₂', hm, hm', h₂⟩ | ⟨e, hm, hm'⟩ :=
            (h₁.makeDirectory (name :: above).reverse).cases
          · simp only [hd, hd', hm, hm']
            exact ⟨rfl, h₂⟩
          · simp only [hd, hd', hm, hm']
            exact hsettled h₁ _ e
        · simp only [hd, hd']
          exact ⟨rfl, h₁⟩
      · simp only
        exact hsettled h _ e

theorem Alike.remove (h : t.Alike root t') (l : Location) :
    AlikeResult root (t.remove l) (t'.remove l) := by
  rw [FileTree.remove, FileTree.remove, h.seat]
  refine .bind _ fun p => ?_
  rcases h.entry? p with hsame | ⟨⟨_, _, he⟩, _, _, he'⟩
  · rw [hsame]
    split
    · exact .error _
    · exact .error _
    · exact .ok (h.restrict _)
  · rw [he, he']
    exact .ok (h.restrict _)

theorem Alike.removeDirectory (h : t.Alike root t') (l : Location) :
    AlikeResult root (t.removeDirectory l) (t'.removeDirectory l) := by
  rw [FileTree.removeDirectory, FileTree.removeDirectory, h.seat]
  refine .bind _ fun p => ?_
  rcases h.entry? p with hsame | ⟨⟨_, _, he⟩, _, _, he'⟩
  · rw [hsame, h.names]
    split
    · split_ifs
      · exact .ok (h.restrict _)
      · exact .error _
    · exact .error _
    · exact .error _
  · rw [he, he']
    exact .error _

theorem Alike.removeTree (h : t.Alike root t') (l : Location) :
    AlikeResult root (t.removeTree l) (t'.removeTree l) := by
  rw [FileTree.removeTree, FileTree.removeTree, h.seat]
  refine .bind _ fun p => ?_
  rcases h.entry? p with hsame | ⟨⟨_, _, he⟩, _, _, he'⟩
  · rw [hsame]
    split
    · exact .ok (h.restrict _)
    · exact .error _
    · exact .error _
  · rw [he, he']
    exact .error _

end FileTree

end Worksite
