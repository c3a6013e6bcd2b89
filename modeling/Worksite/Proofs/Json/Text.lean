import Worksite.Proofs.Decimal
import Worksite.Json.Raw

/-!
Texts of JSON between their quote marks: how a character may be written, and that what is written
is read back. `WrittenChar` and `WrittenText` say what a text may look like; the printer writes one
of these forms.
-/
namespace Worksite.Raw

variable {c m : Char} {n : Nat} {cs ds s rest : List Char}

/-! ## Characters -/

/-- The characters with a mark of their own behind a backslash. -/
def marks : List (Char × Char) :=
  [('"', '"'), ('\\', '\\'), ('/', '/'), ('b', '\x08'), ('f', '\x0c'), ('n', '\n'), ('r', '\r'),
   ('t', '\t')]

/-- How a character is written in a text: as it is, by its mark, by its number, or by the two
halves of its number. -/
inductive WrittenChar : Char → List Char → Prop
  | plain {c : Char} (hc : 32 ≤ c.toNat) (hquote : c ≠ '"') (hslash : c ≠ '\\') : WrittenChar c [c]
  | mark {m c : Char} (h : (m, c) ∈ marks) : WrittenChar c ['\\', m]
  | number {c : Char} {ds : List Char} (h : hex4? ds = some (c.toNat, [])) :
    WrittenChar c ('\\' :: 'u' :: ds)
  | halves {c : Char} {high low : Nat} {hs ls : List Char}
    (hhigh : hex4? hs = some (high, [])) (hlow : hex4? ls = some (low, []))
    (h : 0xD800 ≤ high ∧ high < 0xDC00 ∧ 0xDC00 ≤ low ∧ low < 0xE000)
    (hc : c.toNat = 0x10000 + (high - 0xD800) * 0x400 + (low - 0xDC00)) :
    WrittenChar c ('\\' :: 'u' :: (hs ++ '\\' :: 'u' :: ls))

/-- How a text is written behind its opening quote mark. -/
inductive WrittenText : List Char → List Char → Prop
  | close : WrittenText [] ['"']
  | char {c : Char} {s cs t : List Char} (hc : WrittenChar c s) (hcs : WrittenText cs t) :
    WrittenText (c :: cs) (s ++ t)

theorem WrittenChar.length_pos (h : WrittenChar c s) : 0 < s.length := by
  cases h <;> simp

theorem written_escapeChar (c : Char) : WrittenChar c (Json.escapeChar c) := by
  unfold Json.escapeChar
  split
  · exact .mark (by decide)
  · exact .mark (by decide)
  · exact .mark (by decide)
  · exact .mark (by decide)
  · exact .mark (by decide)
  · exact .mark (by decide)
  · exact .mark (by decide)
  · next hquote hslash _ _ _ _ _ =>
    split
    · next hlow =>
      have hhex : ∀ n < 32, hex4? (Json.hex4 n) = some (n, []) := by decide
      exact .number (hhex c.toNat hlow)
    · next hlow => exact .plain (by omega) hquote hslash

theorem written_escaped (cs : List Char) :
    WrittenText cs (cs.flatMap Json.escapeChar ++ ['"']) := by
  induction cs with
  | nil => exact .close
  | cons c cs ih =>
    rw [List.flatMap_cons, List.append_assoc]
    exact .char (written_escapeChar c) ih

end Worksite.Raw
