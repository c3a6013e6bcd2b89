import Worksite.Proofs.Json.Written

/-!
The tree of a value, and the text that the printer gives for it as one of the texts of this tree.
-/
namespace Worksite

open Raw

mutual

/-- What a value is read back as: only its numbers may change, where they do not fit. -/
def Json.tree : Json → Raw
  | .null => .null
  | .bool b => .bool b
  | .int n => (Numeral.ofInt n).value
  | .text s => .text s
  | .array vs => .array (Json.trees vs) true
  | .object ms => .object (Json.memberTrees ms) true

def Json.trees : List Json → List Raw
  | [] => []
  | v :: vs => v.tree :: Json.trees vs

def Json.memberTrees : List (String × Json) → List (Option String × Raw)
  | [] => []
  | (k, v) :: ms => (some k, v.tree) :: Json.memberTrees ms

end

namespace Json

theorem written_renderText (s : String) : ∃ t, renderText s = '"' :: t ∧ WrittenText s.toList t :=
  ⟨_, rfl, written_escaped s.toList⟩

theorem blanks_nil : Blanks [] := by simp [Blanks]

theorem written_lastItem {v : Json} (hv : Written (.value v.tree) v.chars) :
    Written (.items (trees [v])) (charsOfItems [v]) := by
  simpa [charsOfItems, trees] using Written.lastItem blanks_nil hv blanks_nil

theorem written_item {v w : Json} {vs : List Json} (hv : Written (.value v.tree) v.chars)
    (hvs : Written (.items (trees (w :: vs))) (charsOfItems (w :: vs))) :
    Written (.items (trees (v :: w :: vs))) (charsOfItems (v :: w :: vs)) := by
  rw [trees]
  simpa [charsOfItems] using Written.item blanks_nil hv blanks_nil hvs

theorem written_lastMember {k : String} {v : Json} (hv : Written (.value v.tree) v.chars) :
    Written (.members (memberTrees [(k, v)])) (charsOfMembers [(k, v)]) := by
  obtain ⟨t, ht, hk⟩ := written_renderText k
  simpa [charsOfMembers, memberTrees, ht] using
    Written.lastMember blanks_nil hk blanks_nil blanks_nil hv blanks_nil

theorem written_member {k : String} {v : Json} {m : String × Json} {ms : List (String × Json)}
    (hv : Written (.value v.tree) v.chars)
    (hms : Written (.members (memberTrees (m :: ms))) (charsOfMembers (m :: ms))) :
    Written (.members (memberTrees ((k, v) :: m :: ms))) (charsOfMembers ((k, v) :: m :: ms)) := by
  obtain ⟨t, ht, hk⟩ := written_renderText k
  rw [memberTrees]
  simpa [charsOfMembers, ht] using
    Written.member blanks_nil hk blanks_nil blanks_nil hv blanks_nil hms

mutual

/-- The printer writes a text of the tree. -/
theorem written_chars : ∀ v : Json, Written (.value v.tree) v.chars
  | .null => .null
  | .bool true => .true
  | .bool false => .false
  | .int n => by
    rw [chars, ← chars_ofInt]
    exact .number _
  | .text s => by
    obtain ⟨t, ht, hs⟩ := written_renderText s
    rw [chars, ht]
    simpa [tree] using Written.text hs
  | .array [] => .noItems blanks_nil
  | .array (v :: vs) => .array (written_items (v :: vs) (by simp))
  | .object [] => .noMembers blanks_nil
  | .object (m :: ms) => .object (written_members (m :: ms) (by simp))

theorem written_items : ∀ vs : List Json, vs ≠ [] →
    Written (.items (trees vs)) (charsOfItems vs)
  | [], h => absurd rfl h
  | [v], _ => written_lastItem (written_chars v)
  | v :: w :: vs, _ => written_item (written_chars v) (written_items (w :: vs) (by simp))

theorem written_members : ∀ ms : List (String × Json), ms ≠ [] →
    Written (.members (memberTrees ms)) (charsOfMembers ms)
  | [], h => absurd rfl h
  | [(_, v)], _ => written_lastMember (written_chars v)
  | (_, v) :: m :: ms, _ =>
    written_member (written_chars v) (written_members (m :: ms) (by simp))

end

end Json

end Worksite
