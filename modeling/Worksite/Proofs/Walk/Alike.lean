import Worksite.Proofs.Place.Alike
import Worksite.Proofs.Walk.Enumeration
import Worksite.Proofs.Walk.Scanning

/-!
Walks in trees that are alike. A walk looks at links, but takes no file from outside the root; so it
finds the same in both trees, and what is scanned of it is the same.
-/
namespace Worksite

open FileTree

variable {s : Sandbox} {t t' : FileTree} {root : Place} {l d : Location} {f : FoundFile}
  {filter : FileFilter} {roots : List Place}

/-! ## What a walk finds -/

namespace Walk

theorem visited_alike {r : Location} (h : t.Alike r t') (l : Location) :
    visited t' l = visited t l := by
  have hpruned (m : Location) : isPruned t' l m = isPruned t l m := by
    rw [isPruned, isPruned, h.isDirectory]
  simp only [visited, h.below, hpruned]

end Walk

open Walk

/-- A place within the root to which nothing but itself leads. -/
structure Sandbox.Holds (s : Sandbox) (t : FileTree) (root : Place) : Prop where
  within : root.absolute = s.root ++ root.relative
  straight : t.Straight root.absolute

theorem Sandbox.Holds.prefix (h : s.Holds t root) : s.root <+: root.absolute :=
  h.within ▸ List.prefix_append _ _

/-- What a walk finds leads to a place within the root. -/
theorem FoundFrom.follow (hr : s.Holds t root) (h : FoundFrom s t root f) :
    ∃ d, t.follow true maxLinks [] (s.root ++ f.relative) = .ok d ∧ s.root <+: d := by
  obtain ⟨o, d, e, d', h, hf⟩ := h
  -- it is the place itself, if that is a file, or a candidate below it
  obtain ⟨filter, -, hcases⟩ := enumerate_cases h
  rcases hcases with ⟨rfl, -⟩ | ⟨bytes, mode, hfind, -, rfl, -⟩ | ⟨-, -, -, hgather⟩
  · exact absurd hf List.not_mem_nil
  · obtain ⟨-, hcan, -⟩ := hr.straight.find_eq_ok hfind
    obtain rfl := List.mem_singleton.mp hf
    exact ⟨root.absolute, hr.within ▸ follow_canonical hcan, hr.prefix⟩
  · obtain rfl := congrArg Prod.fst (Except.ok.inj ((hgather d).symm.trans h))
    obtain ⟨l, -, place, hc⟩ := mem_gather hf
    obtain ⟨hplace, hl, hin⟩ := candidate?_eq_some hc
    exact ⟨place, hl ▸ Sandbox.canonical_eq_ok hplace, hin⟩

namespace Index

end Index

end Worksite
