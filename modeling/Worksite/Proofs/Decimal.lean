import Mathlib
import Worksite.Decimal

/-!
Runs of characters at the front of a text, and the decimal digits of a number as one of them.
-/
namespace Worksite

variable {α : Type} {p : α → Bool} {run rest : List α}

/-- What stops a run: the end, or something of another kind. -/
def Stops (p : α → Bool) (rest : List α) : Prop := ∀ a ∈ rest.head?, p a = false

theorem stops_nil : Stops p [] := by simp [Stops]

theorem stops_cons {a : α} : Stops p (a :: rest) ↔ p a = false := by simp [Stops]

theorem takeWhile_run (hrun : ∀ a ∈ run, p a) (hrest : Stops p rest) :
    (run ++ rest).takeWhile p = run := by
  rw [List.takeWhile_append_of_pos hrun]
  cases rest with
  | nil => simp
  | cons a rest => simp [stops_cons.mp hrest]

theorem dropWhile_run (hrun : ∀ a ∈ run, p a) (hrest : Stops p rest) :
    (run ++ rest).dropWhile p = rest := by
  rw [List.dropWhile_append_of_pos hrun]
  cases rest with
  | nil => simp
  | cons a rest => simp [stops_cons.mp hrest]

theorem ne_of_kind {a b : α} (ha : p a = true) (hb : p b = false) : a ≠ b := by
  rintro rfl
  simp [ha] at hb

namespace Decimal

theorem toList_toString (n : Nat) : (toString n).toList = Nat.toDigits 10 n := by
  rw [Nat.toString_eq_repr, Nat.repr_eq_ofList_toDigits, String.toList_ofList]

theorem value_toDigits (n : Nat) : value (Nat.toDigits 10 n) = n :=
  Nat.ofDigitChars_eq_foldl.symm.trans Nat.ofDigitChars_ten_toDigits

theorem isDigit_of_mem {n : Nat} : ∀ c ∈ Nat.toDigits 10 n, c.isDigit :=
  fun _ hc => Nat.isDigit_of_mem_toDigits (by omega) (by omega) hc

/-- Only the digits of zero begin with a zero. -/
theorem length_of_head?_toDigits {n : Nat} (h : (Nat.toDigits 10 n).head? = some '0') :
    (Nat.toDigits 10 n).length = 1 := by
  induction n using Nat.strong_induction_on with
  | _ n ih =>
    rw [Nat.toDigits_eq_if (by omega)] at h ⊢
    split_ifs at h ⊢ with hn
    · rfl
    · -- the digits before the last are those of a number that is not zero
      have hne : Nat.toDigits 10 (n / 10) ≠ [] := Nat.toDigits_ne_nil
      rw [List.head?_append_of_ne_nil _ hne] at h
      have hone := ih (n / 10) (by omega) h
      obtain ⟨c, hc⟩ := List.length_eq_one_iff.mp hone
      have hzero : n / 10 = 0 := by
        rw [hc] at h
        obtain rfl : c = '0' := Option.some.inj h
        have hvalue := value_toDigits (n / 10)
        rw [hc] at hvalue
        exact hvalue.symm
      omega

end Decimal

end Worksite
