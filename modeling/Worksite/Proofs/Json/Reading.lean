import Worksite.Proofs.Outcome
import Worksite.Json.Reading

/-!
Typed reading of JSON: whole texts, and the fields that are met in an object. A record takes its
fields from the members of their names, wherever these stand; any others are passed over, or end
the reading where they may not stand.
-/
namespace Worksite.Reading

variable {α : Type} {read : Reading α} {a : α} {s : String} {fields : List Field}
  {pass : Raw → Bool} {met ms : Members} {k : String} {v : Raw}

/-- A text is read if its value is read and nothing but blanks follows. -/
theorem ofText_eq_ok : ofText read s = .ok a ↔
    read (Raw.ofText s.toList).1 = .ok a ∧ Raw.skipBlank (Raw.ofText s.toList).2 = [] := by
  show (read (Raw.ofText s.toList).1 >>= fun a =>
    if (Raw.skipBlank (Raw.ofText s.toList).2).isEmpty then Except.ok a else .error .notJson) =
      .ok a ↔ _
  rw [bind_eq_ok]
  constructor
  · rintro ⟨b, hb, h⟩
    split at h
    · next hblank =>
      obtain rfl := Except.ok.inj h
      exact ⟨hb, List.isEmpty_iff.mp hblank⟩
    · simp at h
  · rintro ⟨ha, hblank⟩
    exact ⟨a, ha, if_pos (List.isEmpty_iff.mpr hblank)⟩

theorem lookup_eq_some_iff_mem (hnodup : (met.map Prod.fst).Nodup) :
    met.lookup k = some v ↔ (k, v) ∈ met := by
  induction met with
  | nil => simp
  | cons m met ih =>
    obtain ⟨l, w⟩ := m
    rw [List.map_cons, List.nodup_cons] at hnodup
    obtain ⟨hnot, hnodup⟩ := hnodup
    rw [List.lookup_cons, List.mem_cons, Prod.mk.injEq]
    by_cases hk : k = l
    · subst hk
      have hmem : (k, v) ∉ met := fun h => hnot (List.mem_map.mpr ⟨_, h, rfl⟩)
      simp [hmem, eq_comm]
    · rw [beq_eq_false_iff_ne.mpr hk]
      simp [hk, ih hnodup]

/-! ## Fields -/

/-- A member as it stands in an object. -/
def member (m : String × Raw) : Option String × Raw := (some m.1, m.2)

/-- Whether the name is that of a field. -/
def isField (fields : List Field) (k : String) : Bool := fields.any (·.name = k)

/-- Whether the members that are fields pass their checks. -/
def Checked (fields : List Field) (ms : Members) : Prop :=
  ∀ m ∈ ms, ∀ f ∈ fields, f.name = m.1 → f.check m.2 = .ok ()

theorem isField_iff : isField fields k = true ↔ k ∈ fields.map (·.name) := by
  simp [isField]

theorem find?_eq_none_iff : fields.find? (·.name = k) = none ↔ isField fields k = false := by
  simp [isField]

/-- The fields of an object are met in their order, and any others must pass. -/
theorem members_eq (hcheck : Checked fields ms)
    (hnodup : ((met ++ ms.filter (isField fields ·.1)).map Prod.fst).Nodup) :
    members fields pass true met (ms.map member) =
      if ms.all fun m => isField fields m.1 || pass m.2 then
        .ok (met ++ ms.filter (isField fields ·.1))
      else .error .notJson := by
  induction ms generalizing met with
  | nil => simp [members]
  | cons m ms ih =>
    have hrest : Checked fields ms := fun m hm => hcheck m (List.mem_cons_of_mem _ hm)
    rw [List.map_cons, member, members, List.all_cons]
    cases hfind : fields.find? (·.name = m.1) with
    | none =>
      have hother : isField fields m.1 = false := find?_eq_none_iff.mp hfind
      rw [List.filter_cons_of_neg (by simp [hother])] at hnodup ⊢
      rw [hother, Bool.false_or]
      cases hpass : pass m.2 with
      | true => exact ih hrest hnodup
      | false => rfl
    | some f =>
      have hname : f.name = m.1 := by simpa using List.find?_some hfind
      have hfield : isField fields m.1 = true :=
        isField_iff.mpr (hname ▸ List.mem_map_of_mem (List.mem_of_find?_eq_some hfind))
      have hok := hcheck m List.mem_cons_self f (List.mem_of_find?_eq_some hfind) hname
      have hfilter : (m :: ms).filter (isField fields ·.1) = m :: ms.filter (isField fields ·.1) :=
        List.filter_cons_of_pos hfield
      rw [hfilter] at hnodup ⊢
      have hnew : met.lookup m.1 = none := by
        rw [List.lookup_eq_none_iff]
        intro n hn
        rw [List.map_append, List.nodup_append] at hnodup
        have hne := hnodup.2.2 n.1 (List.mem_map_of_mem hn) m.1 (by simp)
        simpa using Ne.symm hne
      rw [List.append_cons met m (ms.filter _)] at hnodup ⊢
      rw [hfield, Bool.true_or, Bool.true_and, ← ih hrest hnodup]
      simp only [hnew, Option.isSome_none, Bool.false_eq_true, if_false, hok, ok_bind]

/-! ## What is met -/

theorem check_eq_ok {r : Raw} (h : read r = .ok a) : (read r).map (fun _ => ()) = .ok () := by
  rw [h]
  rfl

theorem required_of_lookup (h : met.lookup k = some v) : required met k read = read v := by
  rw [required, h]

theorem defaulted_of_lookup (h : met.lookup k = some v) : defaulted met k a read = read v := by
  rw [defaulted, h]

theorem optional_of_lookup (h : met.lookup k = some v) :
    optional met k read = option read v := by
  rw [optional, h]

theorem optional_of_none (h : met.lookup k = none) : optional met k read = .ok none := by
  rw [optional, h]

/-! ## Records -/

theorem besides_members :
    besides fields (ms.map member) = ms.filter fun m => !isField fields m.1 := by
  rw [besides, List.filterMap_map, ← List.filterMap_eq_filter]
  apply List.filterMap_congr
  intro m _
  show (if isField fields m.1 then none else some m) = if !isField fields m.1 then some m else none
  cases isField fields m.1 <;> rfl

variable (hcheck : Checked fields ms)
  (hnodup : ((ms.filter (isField fields ·.1)).map Prod.fst).Nodup)
  (hmissing : missing fields (ms.filter (isField fields ·.1)) = false)

include hcheck hnodup hmissing

theorem fieldsOf_object (hsound : ∀ m ∈ ms, m.2.isSound) :
    fieldsOf fields (.object (ms.map member) true) = .ok (ms.filter (isField fields ·.1)) := by
  have hall : (ms.all fun m => isField fields m.1 || m.2.isSound) = true := by
    rw [List.all_eq_true]
    intro m hm
    simp [hsound m hm]
  have hmembers : members fields Raw.isSound true [] (ms.map member) =
      .ok (ms.filter (isField fields ·.1)) :=
    (members_eq hcheck hnodup).trans (if_pos hall)
  rw [fieldsOf, hmembers]
  simp [hmissing]

/-- The members that are no fields are left for the part that is spread among them; all of them
have to be kept whole. -/
theorem spreadFieldsOf_object :
    spreadFieldsOf fields (.object (ms.map member) true) =
      if ms.all fun m => isField fields m.1 || m.2.isKept 126 then
        .ok (ms.filter (isField fields ·.1), ms.filter fun m => !isField fields m.1)
      else .error .notJson := by
  have hmembers : members fields (Raw.isKept 126) true [] (ms.map member) =
      if ms.all fun m => isField fields m.1 || m.2.isKept 126 then
        .ok (ms.filter (isField fields ·.1))
      else .error .notJson := members_eq hcheck hnodup
  rw [spreadFieldsOf, hmembers]
  by_cases hall : (ms.all fun m => isField fields m.1 || m.2.isKept 126) = true
  · rw [if_pos hall, if_pos hall, ok_bind, hmissing, besides_members]
    rfl
  · rw [if_neg hall, if_neg hall]
    rfl

end Worksite.Reading
