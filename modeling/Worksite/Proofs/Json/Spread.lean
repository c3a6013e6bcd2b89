import Worksite.Proofs.Json.Rearranged
import Worksite.Response

/-!
Records with a part that is spread among their members. Every member that is no field is kept for
the part, so a record with a member that cannot be kept is no JSON to its reader.
-/
namespace Worksite

open Raw Reading

variable {β : Type} {inner : String → Shape} {js mine : List (String × Json)}
  {r : Raw} {own others rest ms : Members} {fields : List Field} {b : β} {c : FileContent}
  {n : Nat} {k : String}

/-- Whether all that an object holds beside the names can be kept whole. -/
def Raw.keeps (names : List String) : Raw → Bool
  | .object ms _ => ms.all fun m => m.1.any (· ∈ names) || m.2.isKept 126
  | _ => true

theorem keeps_object_iff {names : List String} :
    (Raw.object (ms.map member) true).keeps names = true ↔
      ∀ m ∈ ms, m.1 ∉ names → m.2.isKept 126 = true := by
  rw [Raw.keeps, List.all_map, List.all_eq_true]
  refine forall₂_congr fun m _ => ?_
  simp [member, imp_iff_not_or]

namespace FileContent

/-- The names under which a content stands among members. -/
def names : List String := ["content", "content_base64"]

theorem filter_eq_singleton {t : String × Raw} (h : rest.Perm (t :: others))
    (hothers : ∀ m ∈ others, m.1 ≠ t.1) : rest.filter (·.1 = t.1) = [t] := by
  have hnone : others.filter (·.1 = t.1) = [] := by
    rw [List.filter_eq_nil_iff]
    intro m hm
    simpa using hothers m hm
  have hfilter := h.filter (·.1 = t.1)
  rw [List.filter_cons_of_pos (by simp), hnone] at hfilter
  exact List.perm_singleton.mp hfilter

theorem soleText?_eq_some {s : String} (h : rest.Perm ((k, .text s) :: others))
    (hothers : ∀ m ∈ others, m.1 ≠ k) : soleText? rest k = some s := by
  rw [soleText?, filter_eq_singleton h hothers]

theorem soleText?_eq_none (h : ∀ m ∈ rest, m.1 ≠ k) : soleText? rest k = none := by
  have hnone : rest.filter (·.1 = k) = [] := by
    rw [List.filter_eq_nil_iff]
    intro m hm
    simpa using h m hm
  rw [soleText?, hnone]

/-- The tree of a content's only member. -/
def tree : FileContent → String × Raw
  | text s => ("content", .text s)
  | binary s => ("content_base64", .text s)

theorem eq_tree (h : RearrangedMembers inner c.members own) : own = [c.tree] := by
  cases c with
  | text s | binary s =>
    obtain ⟨r, rfl, hr⟩ := h.singleton
    rw [hr.text]
    rfl

/-- A content is found among any other members. -/
theorem ofMembers_eq (hown : RearrangedMembers inner c.members own)
    (h : rest.Perm (own ++ others)) (hothers : ∀ m ∈ others, m.1 ∉ names) :
    ofMembers rest = .ok c := by
  have hne : ∀ m ∈ others, m.1 ≠ "content" ∧ m.1 ≠ "content_base64" := by
    intro m hm
    simpa [names] using hothers m hm
  obtain rfl := eq_tree hown
  cases c with
  | text s => rw [ofMembers, soleText?_eq_some h fun m hm => (hne m hm).1]
  | binary s =>
    have hnot : ∀ m ∈ rest, m.1 ≠ "content" := by
      intro m hm
      rcases List.mem_cons.mp (h.mem_iff.mp hm) with rfl | hm
      · simp [tree]
      · exact (hne m hm).1
    rw [ofMembers, soleText?_eq_none hnot, soleText?_eq_some h fun m hm => (hne m hm).2]

/-- What a content says can always be kept. -/
theorem isKept_of_mem (hown : RearrangedMembers inner c.members own) :
    ∀ m ∈ own, m.1 ∈ names ∧ m.2.isKept 126 := by
  obtain rfl := eq_tree hown
  intro m hm
  rw [List.mem_singleton] at hm
  subst hm
  cases c <;> simp [tree, names, isKept]

end FileContent

/-! ## Records with a content -/

/-- What is met of a record with a content spread among its members, and what is left for the
content. -/
theorem Assembles.spread {k : Members → Except ReadError β} (h : Assembles inner fields mine k b)
    (hnodup : (fields.map (·.name)).Nodup) (hmine : js.filter (isField fields ·.1) = mine)
    (hcontent : (js.filter fun m => !isField fields m.1) = c.members)
    (names : List String) (hnames : names = fields.map (·.name) ++ FileContent.names)
    (hr : Rearranged (.record names inner) (.object js) r) (hsound : r.isSound) :
    ∃ met rest, k met = .ok b ∧ FileContent.ofMembers rest = .ok c ∧
      spreadFieldsOf fields r = if r.keeps names then .ok (met, rest) else .error .notJson := by
  subst hnames hmine
  obtain ⟨own, others, ms, hown, hothers, hperm, rfl⟩ := hr.members
  have hunknown : ∀ m ∈ others, isField fields m.1 = false ∧ m.1 ∉ FileContent.names := by
    intro m hm
    have hnot := hothers m hm
    rw [List.mem_append, not_or] at hnot
    exact ⟨Bool.eq_false_iff.mpr (mt isField_iff.mp hnot.1), hnot.2⟩
  obtain ⟨hchecked, hnames, hmissing, hk⟩ :=
    h.eq_ok_filter hnodup hown (fun m hm => (hunknown m hm).1) hperm (isSound_of_mem hsound)
  have hspread : RearrangedMembers inner c.members (own.filter fun m => !isField fields m.1) :=
    hcontent ▸ hown.filter fun k => !isField fields k
  have hrest := hperm.filter fun m => !isField fields m.1
  rw [List.filter_append] at hrest
  have hcontent := FileContent.ofMembers_eq hspread hrest fun m hm =>
    (hunknown m (List.mem_filter.mp hm).1).2
  refine ⟨_, _, hk, hcontent, ?_⟩
  rw [spreadFieldsOf_object hchecked hnames hmissing]
  refine if_congr ?_ rfl rfl
  rw [keeps_object_iff, List.all_eq_true]
  refine forall₂_congr fun m hm => ?_
  rw [Bool.or_eq_true, isField_iff, List.mem_append, not_or]
  by_cases hfield : m.1 ∈ fields.map (·.name)
  · exact iff_of_true (.inl hfield) fun hnot => absurd hfield hnot.1
  · rw [or_iff_right hfield]
    refine ⟨fun hkept _ => hkept, fun hkept => ?_⟩
    by_cases hname : m.1 ∈ FileContent.names
    · have hother : isField fields m.1 = false := Bool.eq_false_iff.mpr (mt isField_iff.mp hfield)
      rcases List.mem_append.mp (hperm.mem_iff.mp hm) with hm | hm
      · exact (FileContent.isKept_of_mem hspread m (List.mem_filter.mpr ⟨hm, by simp [hother]⟩)).2
      · exact absurd hname (hunknown m hm).2
    · exact hkept ⟨hfield, hname⟩

end Worksite
