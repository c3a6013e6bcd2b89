import Mathlib
import Worksite.Language

/-!
Tags of languages. A named language is read back from its tag. Any other is kept under its name in
lower case, and where this is the tag of a named language, the two print the same and are read back
as the named one.
-/
namespace Worksite

theorem toLower_toLower (c : Char) : c.toLower.toLower = c.toLower := by
  grind [Char.toLower]

theorem asciiLower_asciiLower (s : String) : asciiLower (asciiLower s) = asciiLower s := by
  have hchars : Char.toLower ∘ Char.toLower = Char.toLower := funext toLower_toLower
  rw [asciiLower, asciiLower, String.toList_ofList, List.map_map, hchars]

namespace Language

variable {l : Language} {t : String}

/-- The languages that have a name of their own. -/
def named : List Language :=
  [python, javaScript, typeScript, go, rust, java, c, cpp, cSharp, ruby, php, kotlin, swift, shell,
   markdown, json, yaml, toml, html, css, text]

def tags : List String := named.map tag

/-- The tags that do not serve as extensions of their languages. -/
def unspelled : List String := tags.filter fun t => (ofLowerExtension t).isOther

/-- Whether the tag of the language is read as the language. -/
def ReadsBack (l : Language) : Prop := ofTag l.tag = l

instance (l : Language) : Decidable l.ReadsBack := inferInstanceAs (Decidable (_ = _))

theorem mem_named_iff : l ∈ named ↔ l.isOther = false := by
  cases l <;> simp [named, isOther]

theorem readsBack_of_named (h : l ∈ named) : l.ReadsBack := by
  have hall : ∀ l ∈ named, l.ReadsBack := by decide
  exact hall l h

theorem ofTag_of_notMem (h : t ∉ tags) : ofTag t = other (asciiLower t) := by
  unfold ofTag
  split
  case h_22 => rfl
  all_goals exact absurd (by decide) h

theorem ofTag_mem_named (h : t ∈ tags) : ofTag t ∈ named := by
  obtain ⟨l, hl, rfl⟩ := List.mem_map.mp h
  exact (readsBack_of_named hl).symm ▸ hl

/-- A language without a name is read back if its name is in lower case and no tag. -/
theorem readsBack_other : (other t).ReadsBack ↔ t ∉ tags ∧ asciiLower t = t := by
  constructor
  · intro h
    have hnot : t ∉ tags := by
      intro hmem
      have hnamed : other t ∈ named := h ▸ ofTag_mem_named hmem
      exact absurd (mem_named_iff.mp hnamed) (by simp [isOther])
    refine ⟨hnot, ?_⟩
    have heq : other (asciiLower t) = other t := (ofTag_of_notMem hnot).symm.trans h
    exact other.inj heq
  · rintro ⟨hnot, hlower⟩
    show ofTag t = other t
    rw [ofTag_of_notMem hnot, hlower]

theorem ofLowerExtension_eq_other (h : (ofLowerExtension t).isOther) :
    ofLowerExtension t = other t := by
  unfold ofLowerExtension at h ⊢
  split at h <;> first | rfl | simp [isOther] at h

theorem readsBack_ofTag : (ofTag t).ReadsBack ↔ t ∈ tags ∨ asciiLower t ∉ tags := by
  by_cases h : t ∈ tags
  · exact iff_of_true (readsBack_of_named (ofTag_mem_named h)) (.inl h)
  · rw [ofTag_of_notMem h, readsBack_other, or_iff_right h, asciiLower_asciiLower]
    exact and_iff_left rfl

theorem mem_unspelled_iff : t ∈ unspelled ↔ t ∈ tags ∧ (ofLowerExtension t).isOther :=
  List.mem_filter

theorem readsBack_ofExtension : (ofExtension t).ReadsBack ↔ asciiLower t ∉ unspelled := by
  unfold ofExtension
  rw [mem_unspelled_iff]
  cases h : (ofLowerExtension (asciiLower t)).isOther with
  | false => simpa using readsBack_of_named (mem_named_iff.mpr h)
  | true =>
    rw [ofLowerExtension_eq_other h, readsBack_other, asciiLower_asciiLower]
    simp

theorem readsBack_classify : (classify t).ReadsBack ↔
    ∀ e, Path.extension? t = some e → asciiLower e ∉ unspelled := by
  unfold classify
  cases Path.extension? t with
  | none => simpa using readsBack_of_named (l := text) (by decide)
  | some e => simpa using readsBack_ofExtension

/-- Two languages of one tag differ only where one of them has a name of its own and the other has
not. -/
theorem eq_iff_tag (l l' : Language) : l = l' ↔ l.tag = l'.tag ∧ l.isOther = l'.isOther := by
  constructor
  · rintro rfl
    exact ⟨rfl, rfl⟩
  · rintro ⟨htag, hother⟩
    cases h : l.isOther with
    | false =>
      have hl := readsBack_of_named (mem_named_iff.mpr h)
      have hl' := readsBack_of_named (mem_named_iff.mpr (hother ▸ h))
      rw [← hl, ← hl', htag]
    | true =>
      obtain ⟨t, rfl⟩ : ∃ t, l = other t := by cases l <;> simp_all [isOther]
      obtain ⟨t', rfl⟩ : ∃ t, l' = other t := by cases l' <;> simp_all [isOther]
      exact congrArg other htag

/-- Which languages are read back from their tags: those of an extension unless it is, in lower
case, a tag that is no extension of its language, those of a path by its extension, and those of a
tag unless only its lower case is the tag of a named language. -/
theorem readsBack_iff (s : String) (l l' : Language) :
    ((ofExtension s).ReadsBack ↔ asciiLower s ∉ unspelled) ∧
      ((classify s).ReadsBack ↔ ∀ e, Path.extension? s = some e → asciiLower e ∉ unspelled) ∧
      ((ofTag s).ReadsBack ↔ s ∈ tags ∨ asciiLower s ∉ tags) ∧
      (l = l' ↔ l.tag = l'.tag ∧ l.isOther = l'.isOther) :=
  ⟨readsBack_ofExtension, readsBack_classify, readsBack_ofTag, eq_iff_tag l l'⟩

/-- A tag in capitals, and an extension that is the tag of a language, both give a language that
is read back as another one. -/
theorem readsBack_fails : ¬ (ofTag "Python").ReadsBack ∧ ¬ (classify "a.python").ReadsBack := by
  decide

end Language

end Worksite
