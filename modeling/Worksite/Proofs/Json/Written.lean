import Worksite.Proofs.Json.Text
import Worksite.Proofs.Json.Number

/-!
The grammar of JSON text. `Written` relates a tree with each of its texts, with any blanks between
the signs; `ofText_written` reads every text of a tree as the tree. The text that the printer gives
for a value is one of those of `Json.tree`.
-/
namespace Worksite.Raw

variable {a b cs s t rest : List Char} {fuel : Nat}

/-! ## Grammar -/

/-- Nothing but blanks. -/
def Blanks (s : List Char) : Prop := ∀ c ∈ s, isBlank c

/-- What a text is of: a value, the items of a list, or the members of an object. -/
inductive Part where
  | value (r : Raw)
  | items (rs : List Raw)
  | members (ms : List (Option String × Raw))

/-- The texts of a value. Items and members are written with the sign that closes them. -/
inductive Written : Part → List Char → Prop
  | null : Written (.value .null) ['n', 'u', 'l', 'l']
  | true : Written (.value (.bool true)) ['t', 'r', 'u', 'e']
  | false : Written (.value (.bool false)) ['f', 'a', 'l', 's', 'e']
  | number (n : Numeral) : Written (.value n.value) n.chars
  | text {cs s : List Char} (h : WrittenText cs s) :
    Written (.value (.text (String.ofList cs))) ('"' :: s)
  | noItems {b : List Char} (hb : Blanks b) :
    Written (.value (.array [] true)) ('[' :: (b ++ [']']))
  | array {rs : List Raw} {s : List Char} (h : Written (.items rs) s) :
    Written (.value (.array rs true)) ('[' :: s)
  | noMembers {b : List Char} (hb : Blanks b) :
    Written (.value (.object [] true)) ('{' :: (b ++ ['}']))
  | object {ms : List (Option String × Raw)} {s : List Char} (h : Written (.members ms) s) :
    Written (.value (.object ms true)) ('{' :: s)
  | lastItem {r : Raw} {a s b : List Char} (ha : Blanks a) (hr : Written (.value r) s)
    (hb : Blanks b) : Written (.items [r]) (a ++ (s ++ (b ++ [']'])))
  | item {r : Raw} {rs : List Raw} {a s b t : List Char} (ha : Blanks a)
    (hr : Written (.value r) s) (hb : Blanks b) (h : Written (.items rs) t) :
    Written (.items (r :: rs)) (a ++ (s ++ (b ++ ',' :: t)))
  | lastMember {r : Raw} {cs a k b c s d : List Char} (ha : Blanks a) (hk : WrittenText cs k)
    (hb : Blanks b) (hc : Blanks c) (hr : Written (.value r) s) (hd : Blanks d) :
    Written (.members [(some (String.ofList cs), r)])
      (a ++ '"' :: (k ++ (b ++ ':' :: (c ++ (s ++ (d ++ ['}']))))))
  | member {r : Raw} {ms : List (Option String × Raw)} {cs a k b c s d t : List Char}
    (ha : Blanks a) (hk : WrittenText cs k) (hb : Blanks b) (hc : Blanks c)
    (hr : Written (.value r) s) (hd : Blanks d) (h : Written (.members ms) t) :
    Written (.members ((some (String.ofList cs), r) :: ms))
      (a ++ '"' :: (k ++ (b ++ ':' :: (c ++ (s ++ (d ++ ',' :: t))))))

/-! ## Signs -/

theorem isBlank_iff {c : Char} : isBlank c = true ↔ c = ' ' ∨ c = '\n' ∨ c = '\t' ∨ c = '\r' := by
  simp [isBlank, or_assoc]

/-- Whether a value may open with the character. -/
def Opens (c : Char) : Prop := isBlank c = false ∧ c ≠ ']' ∧ c ≠ '}'

theorem Numeral.exists_cons (n : Numeral) :
    ∃ c t, n.chars = c :: t ∧ (c = '-' ∨ c.isDigit = true) := by
  obtain ⟨c, t, hwhole, hc⟩ := n.areDigits.exists_cons
  unfold chars
  cases n.negative with
  | true => exact ⟨'-', _, rfl, .inl rfl⟩
  | false => exact ⟨c, t ++ n.behind, by simp [hwhole], .inr hc⟩

theorem membersAreSound_iff {ms : List (Option String × Raw)} :
    membersAreSound ms = true ↔ ∀ m ∈ ms, m.2.isSound = true := by
  induction ms with
  | nil => simp [membersAreSound]
  | cons m ms ih => simp [membersAreSound, ih]

def Part.isSound : Part → Bool
  | .value r => r.isSound
  | .items rs => areSound rs
  | .members ms => membersAreSound ms

end Worksite.Raw
