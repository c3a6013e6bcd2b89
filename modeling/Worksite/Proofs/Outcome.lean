import Mathlib

/-!
Outcomes that may be errors, one after the other.
-/
namespace Worksite

variable {ε α β : Type} {x : Except ε α} {f : α → Except ε β} {b : β}

@[simp] theorem ok_bind (a : α) (f : α → Except ε β) : (Except.ok a >>= f) = f a := rfl

@[simp] theorem error_bind (e : ε) (f : α → Except ε β) : (Except.error e >>= f) = .error e := rfl

theorem bind_eq_ok : (x >>= f) = .ok b ↔ ∃ a, x = .ok a ∧ f a = .ok b := by
  cases x <;> simp

/-- What follows counts only for what there is. -/
theorem bind_congr_ok {g : α → Except ε β} (h : ∀ a, x = .ok a → f a = g a) :
    (x >>= f) = x >>= g := by
  cases x with
  | error e => rfl
  | ok a => exact h a rfl

@[simp] theorem mapError_eq_ok {ε' : Type} {f : ε → ε'} {a : α} :
    x.mapError f = .ok a ↔ x = .ok a := by
  cases x <;> simp [Except.mapError]

theorem map_eq_ok {g : α → β} : x.map g = .ok b ↔ ∃ a, x = .ok a ∧ g a = b := by
  cases x <;> simp [Except.map]

theorem mapM_eq_ok {g : α → Except ε β} {as : List α} {bs : List β} :
    as.mapM g = .ok bs ↔ List.Forall₂ (fun a b => g a = .ok b) as bs := by
  induction as generalizing bs with
  | nil => cases bs <;> simp [pure, Except.pure]
  | cons a as ih =>
    rw [List.mapM_cons, bind_eq_ok]
    constructor
    · rintro ⟨b, hb, h⟩
      obtain ⟨bs, hbs, h⟩ := bind_eq_ok.mp h
      obtain rfl := Except.ok.inj h
      exact .cons hb (ih.mp hbs)
    · rintro (_ | ⟨hb, hbs⟩)
      exact ⟨_, hb, bind_eq_ok.mpr ⟨_, ih.mpr hbs, rfl⟩⟩

/-- The first error is the error of all. -/
theorem mapM_eq_error {g : α → Except ε β} {before : List α} {a : α} {e : ε}
    (hb : ∀ x ∈ before, ∃ y, g x = .ok y) (ha : g a = .error e) (after : List α) :
    (before ++ a :: after).mapM g = .error e := by
  induction before with
  | nil => simp [ha]
  | cons x before ih =>
    obtain ⟨y, hy⟩ := hb x List.mem_cons_self
    have hrest := ih fun z hz => hb z (List.mem_cons_of_mem _ hz)
    simp [hy, hrest]

theorem exists_of_mapM_eq_ok {g : α → Except ε β} {as : List α} {bs : List β} {a : α}
    (h : as.mapM g = .ok bs) (ha : a ∈ as) : ∃ b, g a = .ok b := by
  have hall := mapM_eq_ok.mp h
  clear h
  induction hall with
  | nil => exact absurd ha List.not_mem_nil
  | cons hb _ ih =>
    rcases List.mem_cons.mp ha with rfl | ha
    · exact ⟨_, hb⟩
    · exact ih ha

theorem exists_of_mem_mapM {g : α → Except ε β} {as : List α} {bs : List β}
    (h : as.mapM g = .ok bs) (hb : b ∈ bs) : ∃ a ∈ as, g a = .ok b := by
  have hall := mapM_eq_ok.mp h
  clear h
  induction hall with
  | nil => exact absurd hb List.not_mem_nil
  | cons ha _ ih =>
    rcases List.mem_cons.mp hb with rfl | hb
    · exact ⟨_, List.mem_cons_self, ha⟩
    · obtain ⟨a, hmem, ha⟩ := ih hb
      exact ⟨a, List.mem_cons_of_mem _ hmem, ha⟩

end Worksite
