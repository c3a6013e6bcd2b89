import Mathlib

/-!
Texts by their bytes. In UTF-8 the order of the characters is that of the bytes.
-/
namespace Worksite.Text

/-- The bytes of a text in UTF-8. -/
def bytes (s : String) : List UInt8 := s.toUTF8.data.toList

theorem toList_eq_data (bytes : ByteArray) : bytes.toList = bytes.data.toList := by
  have hloop (i : Nat) (done : List UInt8) : ByteArray.toList.loop bytes i done =
      done.reverse ++ bytes.data.toList.drop i := by
    induction i, done using ByteArray.toList.loop.induct bytes with
    | case1 i done hi ih =>
      have hlt : i < bytes.data.toList.length := hi
      have hget : bytes.get! i = bytes.data.toList[i] := by
        rw [ByteArray.get!, getElem!_pos bytes.data i hi, Array.getElem_toList]
      rw [ByteArray.toList.loop, if_pos hi, ih, hget, List.reverse_cons, List.append_assoc,
        List.singleton_append, List.drop_eq_getElem_cons hlt]
    | case2 i done hi =>
      have hle : bytes.data.toList.length ≤ i := not_lt.mp hi
      rw [ByteArray.toList.loop, if_neg hi, List.drop_of_length_le hle, List.append_nil]
  exact hloop 0 []

theorem toList_toUTF8 (s : String) : s.toUTF8.toList = bytes s := toList_eq_data _

theorem bytes_eq_flatMap (s : String) : bytes s = s.toList.flatMap String.utf8EncodeChar := by
  rw [bytes, String.toUTF8_eq_toByteArray, ← String.utf8Encode_toList, List.utf8Encode,
    List.data_toByteArray]

theorem bytes_injective : Function.Injective bytes := by
  intro a b h
  apply String.toByteArray_inj.mp
  have hdata : a.toByteArray.data = b.toByteArray.data := Array.toList_inj.mp h
  exact ByteArray.ext hdata

/-- The bytes of a greater character are greater, whatever follows. -/
theorem utf8EncodeChar_append_lt {c d : Char} (h : c < d) (x y : List UInt8) :
    String.utf8EncodeChar c ++ x < String.utf8EncodeChar d ++ y := by
  have hlt : c.val.toNat < d.val.toNat := UInt32.lt_iff_toNat_lt.mp h
  have hd : d.val.toNat < 0x110000 := by
    have hvalid := d.valid
    unfold UInt32.isValidChar Nat.isValidChar at hvalid
    omega
  unfold String.utf8EncodeChar
  generalize c.val.toNat = m at hlt ⊢
  generalize d.val.toNat = n at hlt hd ⊢
  simp only []
  -- the first digit in which the numbers differ, in the base of the bytes that follow the first
  have hdigit : m / 262144 < n / 262144 ∨
      m / 262144 = n / 262144 ∧ m / 4096 < n / 4096 ∨
      m / 4096 = n / 4096 ∧ m / 64 < n / 64 ∨ m / 64 = n / 64 ∧ m % 64 < n % 64 := by
    omega
  split_ifs <;>
    simp only [List.cons_append, List.nil_append, List.cons_lt_cons_iff, UInt8.lt_iff_toNat_lt,
      ← UInt8.toNat_inj, UInt8.toNat_ofNat'] <;>
    rcases hdigit with h | h | h | h <;>
    omega

theorem flatMap_utf8EncodeChar_lt {l m : List Char} (h : l < m) :
    l.flatMap String.utf8EncodeChar < m.flatMap String.utf8EncodeChar := by
  induction l generalizing m with
  | nil =>
    cases m with
    | nil => simp at h
    | cons d m =>
      obtain ⟨b, bs, hb⟩ := List.exists_cons_of_ne_nil (String.utf8EncodeChar_ne_nil (c := d))
      rw [List.flatMap_nil, List.flatMap_cons, hb, List.cons_append]
      exact List.nil_lt_cons _ _
  | cons c l ih =>
    cases m with
    | nil => simp at h
    | cons d m =>
      rw [List.flatMap_cons, List.flatMap_cons]
      rcases List.cons_lt_cons_iff.mp h with hcd | ⟨rfl, hlm⟩
      · exact utf8EncodeChar_append_lt hcd _ _
      · exact List.append_left_lt (ih hlm)

theorem bytes_lt_iff {a b : String} : bytes a < bytes b ↔ a < b := by
  have hmono : ∀ {a b : String}, a < b → bytes a < bytes b := by
    intro a b h
    rw [bytes_eq_flatMap, bytes_eq_flatMap]
    exact flatMap_utf8EncodeChar_lt h
  refine ⟨fun h => ?_, hmono⟩
  by_contra hab
  rcases Std.le_iff_lt_or_eq.mp (String.not_lt.mp hab) with hba | rfl
  · exact List.lt_asymm h (hmono hba)
  · exact List.lt_irrefl _ h

end Worksite.Text
