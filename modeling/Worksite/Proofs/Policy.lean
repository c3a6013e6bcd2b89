import Mathlib
import Worksite.Policy

/-!
What a policy allows: no denied prefix covers it, none lies below what is deleted, and where
prefixes are allowed one of them covers it.
-/
namespace Worksite.WritePolicy

variable {p : WritePolicy} {l l' d : Location} {operation : WriteOperation}

theorem authorize_eq_ok : p.authorize l operation = .ok () ↔
    (∀ d ∈ p.denied, ¬ d <+: l) ∧ (operation = .delete → ∀ d ∈ p.denied, ¬ l <+: d) ∧
      (p.allowed = [] ∨ ∃ a ∈ p.allowed, a <+: l) := by
  have hin : (p.allowed.isEmpty || p.allowed.any (·.isPrefixOf l)) = true ↔
      p.allowed = [] ∨ ∃ a ∈ p.allowed, a <+: l := by simp
  unfold authorize
  cases hd : p.denied.find? (·.isPrefixOf l) with
  | some d =>
    -- a denied prefix covers it
    have hpre : d <+: l := by
      have h := List.find?_some (p := fun d : Location => d.isPrefixOf l) hd
      exact List.isPrefixOf_iff_prefix.mp h
    exact ⟨by simp, fun h => absurd hpre (h.1 d (List.mem_of_find?_eq_some hd))⟩
  | none =>
    have hnone : ∀ d ∈ p.denied, ¬ d <+: l := by simpa using hd
    cases operation with
    | write =>
      rw [← hin]
      constructor
      · intro h
        refine ⟨hnone, by simp, ?_⟩
        by_contra hno
        simp [hno] at h
      · rintro ⟨-, -, h⟩
        simp [h]
    | delete =>
      cases hb : p.denied.find? (l.isPrefixOf ·) with
      | some d =>
        -- one lies below, which counts for a delete only
        have hpre : l <+: d := List.isPrefixOf_iff_prefix.mp (List.find?_some hb)
        exact ⟨by simp, fun h => absurd hpre (h.2.1 rfl d (List.mem_of_find?_eq_some hb))⟩
      | none =>
        have hbelow : ∀ d ∈ p.denied, ¬ l <+: d := by simpa using hb
        rw [← hin]
        constructor
        · intro h
          refine ⟨hnone, fun _ => hbelow, ?_⟩
          by_contra hno
          simp [hno] at h
        · rintro ⟨-, -, h⟩
          simp [h]

/-- What may be deleted may be deleted with all below it. -/
theorem authorize_delete_below (h : p.authorize l .delete = .ok ()) (hl : l <+: l') :
    p.authorize l' .delete = .ok () := by
  obtain ⟨hnone, hbelow, hallowed⟩ := authorize_eq_ok.mp h
  refine authorize_eq_ok.mpr ⟨fun d hd hdl => ?_, fun _ d hd hld => ?_, ?_⟩
  · rcases List.prefix_or_prefix_of_prefix hdl hl with hdl | hld
    · exact hnone d hd hdl
    · exact hbelow rfl d hd hld
  · exact hbelow rfl d hd (hl.trans hld)
  · exact hallowed.imp_right fun ⟨a, ha, hal⟩ => ⟨a, ha, hal.trans hl⟩

/-- What may be deleted may as well be written. -/
theorem authorize_write_of_delete (h : p.authorize l .delete = .ok ()) :
    p.authorize l .write = .ok () := by
  obtain ⟨hnone, -, hallowed⟩ := authorize_eq_ok.mp h
  exact authorize_eq_ok.mpr ⟨hnone, by simp, hallowed⟩

/-- What may be deleted is what may be written with all below it. -/
theorem authorize_delete_iff : p.authorize l .delete = .ok () ↔
    ∀ l', l <+: l' → p.authorize l' .write = .ok () := by
  constructor
  · intro h l' hl
    exact authorize_write_of_delete (authorize_delete_below h hl)
  · intro h
    obtain ⟨hnone, -, hallowed⟩ := authorize_eq_ok.mp (h l (List.prefix_refl l))
    refine authorize_eq_ok.mpr ⟨hnone, fun _ d hd hld => ?_, hallowed⟩
    -- a denied prefix below would itself have to be writable
    exact (authorize_eq_ok.mp (h d hld)).1 d hd (List.prefix_refl d)

/-- What a denied prefix covers is neither written nor deleted. -/
theorem authorize_of_denied (hd : d ∈ p.denied) (hl : d <+: l) :
    p.authorize l operation ≠ .ok () :=
  fun h => (authorize_eq_ok.mp h).1 d hd hl

/-- What lies above a denied prefix is not deleted. -/
theorem authorize_delete_of_denied_below (hd : d ∈ p.denied) (hl : l <+: d) :
    p.authorize l .delete ≠ .ok () :=
  fun h => (authorize_eq_ok.mp h).2.1 rfl d hd hl

/-- One more prefix is denied, and those before are as well. -/
theorem mem_denied_deny {names : Location} :
    d ∈ (p.deny names).denied ↔ d ∈ p.denied ∨ d = names := by
  unfold deny
  split_ifs with h
  · constructor
    · exact .inl
    · rintro (hd | rfl)
      · exact hd
      · exact h
  · simp

end Worksite.WritePolicy
