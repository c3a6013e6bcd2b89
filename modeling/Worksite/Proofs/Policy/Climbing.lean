import Worksite.Proofs.Path.Trimming
import Worksite.Settings

/-!
Climbs in the prefixes of a policy. A policy file is checked as it is written, but its prefixes
are compared without the white space around them, which can make a climb of the first or of the
last segment. Nothing else of an accepted policy climbs.
-/
namespace Worksite

open Worksite.Path

variable {p x : String} {prefixes : List String} {rules : PolicySettings}

/-! ## Prefixes -/

namespace WritePolicy

/-- Whether a climb opens or ends a prefix once the white space around it is dropped. -/
def ClimbsAtEnds (p : String) : Prop :=
  (segments (Text.trimText p)).head? = some ".." ∨ (segments (Text.trimText p)).getLast? = some ".."

instance (p : String) : Decidable (ClimbsAtEnds p) := inferInstanceAs (Decidable (_ ∨ _))

/-- The names of a prefix are ordinary names and climbs. -/
theorem mem_prefixOf (h : x ∈ prefixOf p) :
    IsNormal x ∨ x = ".." ∧ .up ∈ steps (Text.trimText p) := by
  obtain ⟨step, hstep, rfl⟩ := List.mem_map.mp h
  obtain ⟨hmem, hne⟩ := List.mem_filter.mp hstep
  cases step with
  | here => simp at hne
  | up => exact .inr ⟨rfl, hmem⟩
  | name s =>
    obtain ⟨hseg, hname⟩ := mem_segments_of_mem_steps hmem
    exact .inl ⟨hname, slash_notMem_of_mem_segments hseg⟩

/-- A prefix is made of ordinary names unless it climbs without the white space around it. -/
theorem forall_prefixOf_isNormal_iff :
    (∀ x ∈ prefixOf p, IsNormal x) ↔ .up ∉ steps (Text.trimText p) := by
  constructor
  · intro h hup
    have hmem : ".." ∈ prefixOf p :=
      List.mem_map.mpr ⟨.up, List.mem_filter.mpr ⟨hup, by decide⟩, rfl⟩
    exact absurd (h ".." hmem) (by decide)
  · intro h x hx
    rcases mem_prefixOf hx with hnormal | ⟨-, hup⟩
    · exact hnormal
    · exact absurd hup h

/-- Where a prefix does not climb as it is written, it can at its ends only. -/
theorem up_mem_trimText_iff (h : .up ∉ steps p) :
    .up ∈ steps (Text.trimText p) ↔ ClimbsAtEnds p := by
  rw [up_mem_steps_iff] at h ⊢
  constructor
  · intro hmem
    rcases mem_segments_trimText hmem with hhead | hlast | hinner
    · exact .inl hhead
    · exact .inr hlast
    · exact absurd hinner h
  · rintro (hhead | hlast)
    · exact List.mem_of_head? hhead
    · exact List.mem_of_getLast? hlast

end WritePolicy

/-! ## Policy files -/

namespace PolicySettings

theorem climbing?_eq_none : climbing? prefixes = none ↔ ∀ p ∈ prefixes, .up ∉ steps p := by
  unfold climbing?
  rw [List.find?_eq_none]
  constructor
  · intro h p hp
    obtain ⟨i, hi, rfl⟩ := List.getElem_of_mem hp
    have hmem : (i, prefixes[i]) ∈ prefixes.mapIdx fun i p => (i, p) :=
      List.mem_mapIdx.mpr ⟨i, hi, rfl⟩
    simpa using h _ hmem
  · intro h found hfound
    obtain ⟨i, hi, rfl⟩ := List.mem_mapIdx.mp hfound
    simpa using h _ (List.getElem_mem hi)

/-- No prefix of an accepted policy file climbs as it is written. -/
theorem up_notMem_of_validate (h : rules.validate = .ok ()) :
    ∀ p ∈ rules.allowed ++ rules.denied, .up ∉ steps p := by
  unfold validate at h
  split at h
  · simp at h
  · simp at h
  · next hallowed hdenied =>
    intro p hp
    rcases List.mem_append.mp hp with hp | hp
    · exact climbing?_eq_none.mp hallowed p hp
    · exact climbing?_eq_none.mp hdenied p hp

theorem validate_of_parse {text : String} (h : parse text = .ok rules) :
    rules.validate = .ok () := by
  unfold parse at h
  split at h
  · simp at h
  · next s _ =>
    cases hv : s.validate with
    | error e => simp [hv, Except.map] at h
    | ok u =>
      obtain rfl : s = rules := by simpa [hv, Except.map] using h
      exact hv

/-- The prefixes of an accepted policy are made of ordinary names if and only if none of them opens
or ends with a climb once the white space around it is dropped. -/
theorem policy_isNormal_iff {text : String} (h : parse text = .ok rules) :
    (∀ l ∈ rules.policy.allowed ++ rules.policy.denied, ∀ x ∈ l, IsNormal x) ↔
      ∀ p ∈ rules.allowed ++ rules.denied, ¬ WritePolicy.ClimbsAtEnds p := by
  have hwritten := up_notMem_of_validate (validate_of_parse h)
  have hpolicy : rules.policy.allowed ++ rules.policy.denied =
      (rules.allowed ++ rules.denied).map WritePolicy.prefixOf := List.map_append.symm
  rw [hpolicy, List.forall_mem_map]
  refine forall₂_congr fun p hp => ?_
  rw [WritePolicy.forall_prefixOf_isNormal_iff, WritePolicy.up_mem_trimText_iff (hwritten p hp)]

/-- White space around a name leaves a name. -/
theorem policy_isNormal_iff_blank :
    parse "write_denied_paths=[' a/']" = .ok { denied := [" a/"] } ∧
      ∀ l ∈ [["a"]], ∀ x ∈ l, IsNormal x := by
  have hparse : parse "write_denied_paths=[' a/']" = .ok { denied := [" a/"] } := by cbv
  have hiff := policy_isNormal_iff hparse
  exact ⟨hparse, hiff.mpr (by decide)⟩

/-- White space before a climb hides it: the file is accepted, and its prefix climbs. -/
theorem policy_climbs_blank :
    (parse "write_denied_paths=[' ..']").map policy = .ok { denied := [[".."]] } ∧
      ¬ ∀ x ∈ [".."], IsNormal x := by
  have hparse : parse "write_denied_paths=[' ..']" = .ok { denied := [" .."] } := by cbv
  refine ⟨?_, by decide⟩
  rw [hparse]
  decide

end PolicySettings

end Worksite
