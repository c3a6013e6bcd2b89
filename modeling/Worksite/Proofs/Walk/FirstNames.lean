import Worksite.Proofs.Sandbox.Stability
import Worksite.Proofs.Walk.Capped

/-!
The names of what a walk finds. A walk finds a file by the first of its names, and finds no name
twice.
-/
namespace Worksite.Walk

open FileTree

variable {s : Sandbox} {t : FileTree} {root : Place} {place r : Location} {f : FoundFile}
  {path : String} {e : Entry} {pairs : List (Location × FoundFile)}
  {c : Location → Option (Location × FoundFile)} {seen ls : List Location}

/-! ## The first of each place -/

/-- The places of what is gathered are new, each to the ones before it. -/
theorem nodup_gather {placeOf : FoundFile → Except SystemError Location} (left : Option Nat)
    (d : Deadline) (hplace : ∀ l place f, c l = some (place, f) → placeOf f = .ok place) :
    (∀ f ∈ (gather c seen left d ls).1.files, ∃ place, placeOf f = .ok place ∧ place ∉ seen) ∧
      ((gather c seen left d ls).1.files.map placeOf).Nodup := by
  induction ls generalizing seen left d with
  | nil => exact ⟨fun f hf => absurd hf List.not_mem_nil, List.nodup_nil⟩
  | cons l ls ih =>
    rw [gather_cons]
    by_cases hexpired : d.expired
    · simp [hexpired]
    rw [if_neg hexpired]
    cases hc : c l with
    | none => exact ih left d.next
    | some found =>
      obtain ⟨place, file⟩ := found
      have hfile := hplace l place file hc
      dsimp only
      split_ifs with hseen
      · exact ih left d.next
      · simpa [hfile] using hseen
      · -- the place has had its turn, so nothing later is at it
        obtain ⟨hnew, hnodup⟩ := @ih (place :: seen) (left.map (· - 1)) d.next
        refine ⟨List.forall_mem_cons.mpr ⟨⟨place, hfile, hseen⟩, fun g hg => ?_⟩, ?_⟩
        · obtain ⟨q, hq, hqnew⟩ := hnew g hg
          exact ⟨q, hq, fun hmem => hqnew (List.mem_cons_of_mem _ hmem)⟩
        · rw [List.map_cons, List.nodup_cons, List.mem_map]
          refine ⟨?_, hnodup⟩
          rintro ⟨g, hg, hsame⟩
          obtain ⟨q, hq, hqnew⟩ := hnew g hg
          rw [hq, hfile] at hsame
          exact hqnew (Except.ok.inj hsame ▸ List.mem_cons_self)

theorem nodup_visited (t : FileTree) (r : Location) : (visited t r).Nodup := by
  have hbelow : (t.below r).Nodup :=
    (List.mergeSort_perm _ _).nodup_iff.mpr (t.distinct.filter _)
  refine List.nodup_cons.mpr ⟨fun hr => ?_, hbelow.filter _⟩
  exact (mem_below.mp (List.mem_filter.mp hr).1).2.2 rfl

/-- A location is known by how it is shown. -/
theorem display_inj {l m : Location} (hl : ∀ x ∈ l, Path.IsNormal x)
    (hm : ∀ x ∈ m, Path.IsNormal x) (h : l.display = m.display) : l = m := by
  have hlocate := Path.locate_display [] hl
  rw [h, Path.locate_display [] hm] at hlocate
  exact (Option.some.inj hlocate).symm

theorem nodup_namesOf_gather (s : Sandbox) (t : FileTree) (filter : FileFilter) (start : Location)
    (seen : List Location) (left : Option Nat) (d : Deadline) :
    (namesOf (gather (candidate? s t filter start) seen left d
      (visited t start)).1.files).Nodup := by
  refine ((gather_sublist _ _ _ _ _).map _).nodup ?_
  rw [List.map_map, List.map_filterMap, List.Nodup, List.pairwise_filterMap]
  have hrelative {l r : Location}
      (hr : (candidate? s t filter start l).map (FoundFile.relative ∘ Prod.snd) = some r) :
      s.root ++ r = l := by
    obtain ⟨⟨place, f⟩, hc, rfl⟩ := Option.map_eq_some_iff.mp hr
    exact (candidate?_eq_some hc).2.1
  refine (nodup_visited t start).imp fun {l m} hne r hr r' hr' heq => hne ?_
  rw [← hrelative hr, ← hrelative hr', heq]

/-- A walk finds no file twice, whether by its names, by how they are shown or by its place. -/
theorem nodup_enumerate {o : WalkOptions} {d d' : Deadline} {e : Enumeration}
    (h : enumerate s t root o d = .ok (e, d')) :
    (namesOf e.files).Nodup ∧ (t.Named → (e.files.map FoundFile.path).Nodup) ∧
      (e.files.map fun f => t.canonical (s.root ++ f.relative)).Nodup := by
  obtain ⟨filter, -, hcases⟩ := enumerate_cases h
  rcases hcases with ⟨rfl, -⟩ | ⟨bytes, mode, -, -, rfl, -⟩ | ⟨-, -, hstart, hgather⟩
  · exact ⟨List.nodup_nil, fun _ => List.nodup_nil, List.nodup_nil⟩
  · exact ⟨List.nodup_singleton _, fun _ => List.nodup_singleton _, List.nodup_singleton _⟩
  · obtain rfl := congrArg Prod.fst (Except.ok.inj ((hgather d).symm.trans h))
    have hnames := nodup_namesOf_gather s t filter root.absolute [] o.maxCount d
    refine ⟨hnames, fun hn => ?_, (nodup_gather _ _ fun l place f hc => ?_).2⟩
    · -- what is met below the start is an entry, so it is shown by its names
      have hnormal : ∀ r ∈ namesOf (gather (candidate? s t filter root.absolute) [] o.maxCount d
          (visited t root.absolute)).1.files, ∀ x ∈ r, Path.IsNormal x := by
        intro r hr
        obtain ⟨f, hf, rfl⟩ := List.mem_map.mp hr
        obtain ⟨l, hl, place, hc⟩ := mem_gather hf
        have hne : l ≠ root.absolute := by
          rintro rfl
          simp [hc] at hstart
        have hbelow := (List.mem_cons.mp hl).resolve_left hne
        obtain ⟨-, hentry, -⟩ := mem_below.mp (List.mem_filter.mp hbelow).1
        intro x hx
        refine (hn.names hentry x ?_).1
        exact (candidate?_eq_some hc).2.1 ▸ List.mem_append_right _ hx
      have hshown := hnames.map_on fun l hl m hm => display_inj (hnormal l hl) (hnormal m hm)
      rwa [namesOf, List.map_map] at hshown
    · obtain ⟨hplace, rfl, -⟩ := candidate?_eq_some hc
      exact hplace

theorem nodup_namesOf_found (s : Sandbox) (t : FileTree) (o : WalkOptions) (root : Place) :
    (namesOf (found s t o root)).Nodup := by
  rw [found]
  split
  · next h => exact (nodup_enumerate h).1
  · exact List.nodup_nil

end Worksite.Walk
