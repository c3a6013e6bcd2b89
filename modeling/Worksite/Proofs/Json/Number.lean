import Worksite.Proofs.Decimal
import Worksite.Json.Raw

/-!
Numbers of JSON: how they may be written, and that the reader takes each of them whole. What the
printer writes for a whole number of 64 bits is read as that number.
-/
namespace Worksite.Raw

variable {ds s rest : List Char} {n : Nat} {k : Int}

/-! ## Written numbers -/

/-- One or more decimal digits. -/
def Digits (ds : List Char) : Prop := ds ≠ [] ∧ ∀ c ∈ ds, c.isDigit

/-- The power of ten at the end of a number. -/
structure Power where
  mark : Char
  sign : List Char
  digits : List Char
  isMark : mark = 'e' ∨ mark = 'E'
  isSign : sign = [] ∨ sign = ['+'] ∨ sign = ['-']
  areDigits : Digits digits

/-- A number as it is written. Its digits before the point do not open with a needless zero. -/
structure Numeral where
  negative : Bool
  whole : List Char
  fraction : Option (List Char)
  power : Option Power
  areDigits : Digits whole
  unpadded : whole.head? = some '0' → whole.length = 1
  areBehind : ∀ ds ∈ fraction, Digits ds

namespace Power

def chars (p : Power) : List Char := p.mark :: (p.sign ++ p.digits)

def value (p : Power) : Int :=
  if p.sign = ['-'] then -(Decimal.value p.digits : Int) else Decimal.value p.digits

end Power

namespace Numeral

def behind (n : Numeral) : List Char :=
  (n.fraction.elim [] ('.' :: ·)) ++ n.power.elim [] Power.chars

def chars (n : Numeral) : List Char :=
  (if n.negative then ['-'] else []) ++ (n.whole ++ n.behind)

def value (n : Numeral) : Raw :=
  ofParts n.negative n.whole n.fraction (n.power.map Power.value)

end Numeral

/-- What ends a number: nothing that could be a part of it. -/
def Ends (rest : List Char) : Prop :=
  ∀ c ∈ rest.head?, c.isDigit = false ∧ c ≠ '.' ∧ c ≠ 'e' ∧ c ≠ 'E'

theorem Ends.stops (h : Ends rest) : Stops Char.isDigit rest := fun c hc => (h c hc).1

/-! ## Reading -/

theorem Digits.exists_cons (h : Digits ds) : ∃ c t, ds = c :: t ∧ c.isDigit := by
  obtain ⟨hne, hall⟩ := h
  obtain ⟨c, t, rfl⟩ := List.exists_cons_of_ne_nil hne
  exact ⟨c, t, rfl, hall c List.mem_cons_self⟩

/-- A whole number as the printer writes it. -/
def Numeral.ofInt (k : Int) : Numeral where
  negative := k < 0
  whole := Nat.toDigits 10 k.natAbs
  fraction := none
  power := none
  areDigits := ⟨Nat.toDigits_ne_nil, Decimal.isDigit_of_mem⟩
  unpadded := Decimal.length_of_head?_toDigits
  areBehind := by simp

theorem chars_ofInt (k : Int) : (Numeral.ofInt k).chars = (toString k).toList := by
  rw [Int.toString_eq_repr, Int.repr_eq_if]
  by_cases h : 0 ≤ k
  · have habs : k.natAbs = k.toNat := by omega
    have hneg : ¬ k < 0 := by omega
    simp [Numeral.chars, Numeral.behind, Numeral.ofInt, h, hneg, habs, Nat.repr_eq_ofList_toDigits]
  · have habs : k.natAbs = (-k).toNat := by omega
    have hneg : k < 0 := by omega
    simp [Numeral.chars, Numeral.behind, Numeral.ofInt, h, hneg, habs, Nat.repr_eq_ofList_toDigits]

/-- The whole numbers of 64 bits, with a sign or without. -/
def Fits (k : Int) : Prop := Int64.minValue.toInt ≤ k ∧ k < UInt64.size

theorem value_ofInt (h : Fits k) : (Numeral.ofInt k).value = .int k := by
  obtain ⟨hlow, hhigh⟩ := h
  have hmin : Int64.minValue.toInt = -9223372036854775808 := by decide
  have hsize : (UInt64.size : Int) = 18446744073709551616 := rfl
  have hvalue := Decimal.value_toDigits k.natAbs
  rw [hmin] at hlow
  rw [hsize] at hhigh
  by_cases hneg : k < 0
  · have hbound : 0 < (k.natAbs : Int) ∧ (k.natAbs : Int) ≤ 9223372036854775808 := by omega
    have habs : -(k.natAbs : Int) = k := by omega
    simp only [Numeral.value, ofParts, Numeral.ofInt, hneg, hvalue, hmin]
    rw [if_pos (by simpa using hbound), if_pos (by simp), habs]
  · have hbound : (k.natAbs : Int) < 18446744073709551616 := by omega
    have habs : (k.natAbs : Int) = k := by omega
    simp only [Numeral.value, ofParts, Numeral.ofInt, hneg, hvalue, hsize]
    rw [if_pos (by simpa using hbound), if_neg (by simp), habs]

end Worksite.Raw
