import Worksite.Proofs.Walk.Alike
import Worksite.Proofs.Walk.Capped

/-!
Walks in trees of one shape. What files hold does not matter to a walk: it comes to the same files
in the same order and ends for the same reason, and only the sizes that it tells may differ.
-/
namespace Worksite

variable {s : Sandbox} {t t' : FileTree}

namespace FileTree

/-- Two trees that hold the same, but for the bytes and modes of files. -/
def SameShape (t t' : FileTree) : Prop :=
  ∀ l, (t'.entry? l).map Entry.shape = (t.entry? l).map Entry.shape

/-- They are alike for a root that is deeper than all that is in them. -/
theorem SameShape.exists_alike (h : t.SameShape t') : ∃ root, t.Alike root t' := by
  let deepest := (t.entries.map fun e => e.1.length).sum
  have hdeep {l : Location} {e : Entry} (hne : l ≠ []) (he : t.entry? l = some e) :
      l.length ≤ deepest :=
    List.le_sum_of_mem (List.mem_map.mpr ⟨(l, e), mem_entries_of_eq_some hne he, rfl⟩)
  refine ⟨List.replicate (deepest + 1) "", fun l hl => ?_, h⟩
  have hlen := hl.length_le
  rw [List.length_replicate] at hlen
  have hnone : t.entry? l = none := by
    refine Option.eq_none_iff_forall_ne_some.mpr fun e he => ?_
    have hle := hdeep (List.ne_nil_of_length_pos (by omega)) he
    omega
  have hshape := h l
  rw [hnone, Option.map_none, Option.map_eq_none_iff] at hshape
  rw [hshape, hnone]

/-- A path leads to the same in both, or to a file in both. -/
theorem SameShape.find (h : t.SameShape t') (last : Bool) (l : Location) :
    t'.find last l = t.find last l ∨ ∃ d bytes mode bytes' mode',
      t.entry? d = some (.file bytes mode) ∧ t'.entry? d = some (.file bytes' mode') ∧
        t.find last l = .ok (.file bytes mode) ∧ t'.find last l = .ok (.file bytes' mode') := by
  obtain ⟨root, halike⟩ := h.exists_alike
  simp only [FileTree.find, halike.follow]
  cases checkPath l with
  | error e => exact .inl rfl
  | ok =>
    cases t.follow last maxLinks [] l with
    | error e => exact .inl rfl
    | ok d =>
      simp only [ok_bind]
      rcases halike.entry? d with hsame | ⟨⟨bytes, mode, he⟩, bytes', mode', he'⟩
      · rw [hsame]
        exact .inl rfl
      · exact .inr ⟨d, bytes, mode, bytes', mode', he, he', by rw [he], by rw [he']⟩

end FileTree

open FileTree

namespace Walk

/-- Where a file that was found lies, and how it is named. -/
def placed (found : Location × FoundFile) : Location × Location := (found.1, found.2.relative)

theorem candidate?_sameShape (h : t.SameShape t') (filter : FileFilter) (start l : Location) :
    (candidate? s t' filter start l).map placed = (candidate? s t filter start l).map placed := by
  obtain ⟨r, halike⟩ := h.exists_alike
  rw [candidate?, candidate?, halike.isDirectory, halike.canonical]
  split_ifs
  · rfl
  rcases h.find true l with hsame | ⟨-, bytes, mode, bytes', mode', -, -, hfind, hfind'⟩
  · rw [hsame]
  · rw [hfind, hfind']
    -- all that a candidate takes from the file is its size
    dsimp only
    cases t.canonical l with
    | error e => rfl
    | ok place =>
      simp only [Option.bind_eq_bind, Option.pure_def, Option.map_bind, Function.comp_def,
        Option.map_some, placed]

/-- What a walk tells but for the sizes: the names it came to, why it ended, and the time left. -/
def outline (walk : Enumeration × Deadline) : List Location × Option Truncation × Deadline :=
  (namesOf walk.1.files, walk.1.truncated, walk.2)

theorem outline_gather {c c' : Location → Option (Location × FoundFile)}
    (h : ∀ l, (c' l).map placed = (c l).map placed) (seen : List Location) (left : Option Nat)
    (d : Deadline) (ls : List Location) :
    outline (gather c' seen left d ls) = outline (gather c seen left d ls) := by
  induction ls generalizing seen left d with
  | nil => rfl
  | cons l ls ih =>
    rw [gather_cons, gather_cons]
    by_cases hexpired : d.expired
    · rw [if_pos hexpired, if_pos hexpired]
    rw [if_neg hexpired, if_neg hexpired]
    have hl := h l
    cases hc : c l with
    | none =>
      rw [hc, Option.map_none, Option.map_eq_none_iff] at hl
      rw [hl]
      exact ih seen left d.next
    | some found =>
      obtain ⟨⟨place, f'⟩, hc', hplaced⟩ := Option.map_eq_some_iff.mp (hl.trans (by rw [hc]; rfl))
      obtain ⟨_, f⟩ := found
      obtain ⟨rfl, hname⟩ := Prod.mk.inj hplaced
      rw [hc']
      dsimp only at hname ⊢
      split_ifs
      · exact ih seen left d.next
      · simp [outline, namesOf, hname]
      · -- the file comes in front of what the rest of the walk comes to
        have hrest := ih (place :: seen) (left.map (· - 1)) d.next
        simpa [outline, namesOf, hname] using hrest

end Walk

open Walk

/-- In trees of one shape a walk is refused for the same reason, or has the same outline. -/
theorem enumerate_sameShape (h : t.SameShape t') (root : Place) (o : WalkOptions) (d : Deadline) :
    (enumerate s t' root o d).map outline = (enumerate s t root o d).map outline := by
  obtain ⟨r, halike⟩ := h.exists_alike
  simp only [enumerate]
  cases FileFilter.ofTexts o.including o.excluding with
  | error e => rfl
  | ok filter =>
    simp only [ok_bind]
    by_cases hcap : o.maxCount = some 0
    · simp only [if_pos hcap]
    simp only [if_neg hcap]
    have hgather := outline_gather (candidate?_sameShape (s := s) h filter root.absolute) []
      o.maxCount d (visited t root.absolute)
    rcases h.find true root.absolute with
      hsame | ⟨-, bytes, mode, bytes', mode', -, -, hfind, hfind'⟩
    · rw [hsame, visited_alike halike]
      split
      · rfl
      · rfl
      · exact congrArg Except.ok hgather
    · rw [hfind, hfind']
      dsimp only
      split_ifs <;> rfl

end Worksite
