import Worksite.Proofs.Path.Trimming
import Worksite.Proofs.Text.Lines
import Worksite.Symbol.Extract

/-!
Declared names: the name of a declaration stands in the line it is declared on.
-/
namespace Worksite

namespace Declaration

open Text (Chars)

variable {s name rest line text : Chars} {word : String} {kind : SymbolKind} {n : Nat}

theorem isPrefix_of_name? (h : name? s = some (name, rest)) : name <+: s := by
  cases s with
  | nil => cases h
  | cons c s =>
    rw [name?] at h
    split_ifs at h
    obtain ⟨rfl, rfl⟩ := Prod.mk.inj (Option.some.inj h)
    exact ⟨s.dropWhile isNameRest, by rw [List.cons_append, List.takeWhile_append_dropWhile]⟩

theorem isSuffix_of_afterLead? {lead : Chars} (h : Text.afterLead? lead s = some rest) :
    rest <:+ s := by
  rw [Text.afterLead?] at h
  split_ifs at h
  exact Option.some.inj h ▸ List.drop_suffix _ _

theorem isSuffix_trimStart (s : Chars) : Text.trimStart s <:+ s := List.dropWhile_suffix _

theorem isSuffix_of_afterWord? (h : afterWord? word s = some rest) : rest <:+ s := by
  obtain ⟨behind, hbehind, h⟩ := Option.bind_eq_some_iff.mp h
  split_ifs at h
  exact Option.some.inj h ▸ (isSuffix_trimStart behind).trans (isSuffix_of_afterLead? hbehind)

theorem isSuffix_passWord (word : String) (s : Chars) : passWord word s <:+ s := by
  rw [passWord]
  cases h : afterWord? word s with
  | none => exact List.suffix_refl s
  | some rest => exact isSuffix_of_afterWord? h

theorem isSuffix_passChar (c : Char) (s : Chars) : passChar c s <:+ s := by
  cases s with
  | nil => exact List.suffix_refl _
  | cons d s =>
    rw [passChar]
    split_ifs
    · exact List.suffix_cons d s
    · exact List.suffix_refl _

theorem isInfix_of_function? (h : function? s = some name) : name <:+: s := by
  obtain ⟨rest, hrest, h⟩ := Option.bind_eq_some_iff.mp h
  obtain ⟨⟨name', behind⟩, hname, h⟩ := Option.bind_eq_some_iff.mp h
  obtain rfl := Option.some.inj h
  have hrest : rest <:+ s := (isSuffix_of_afterLead? hrest).trans <|
    (isSuffix_passWord ..).trans <| (isSuffix_passWord ..).trans (isSuffix_passWord ..)
  exact (isPrefix_of_name? hname).isInfix.trans <|
    ((isSuffix_trimStart _).trans <| (isSuffix_passChar ..).trans <|
      (isSuffix_trimStart _).trans hrest).isInfix

theorem isInfix_of_bound? (h : bound? s = some name) : name <:+: s := by
  obtain ⟨rest, hrest, h⟩ := Option.bind_eq_some_iff.mp h
  obtain ⟨⟨name', behind⟩, hname, h⟩ := Option.bind_eq_some_iff.mp h
  obtain rfl : name' = name := by
    dsimp only at h
    split at h
    · split_ifs at h
      exact Option.some.inj h
    · cases h
  have hrest : rest <:+ passWord "export" s := by
    rcases Option.or_eq_some_iff.mp hrest with hrest | ⟨-, hrest⟩
    · exact isSuffix_of_afterWord? hrest
    · rcases Option.or_eq_some_iff.mp hrest with hrest | ⟨-, hrest⟩
      · exact isSuffix_of_afterWord? hrest
      · exact isSuffix_of_afterWord? hrest
  exact (isPrefix_of_name? hname).isInfix.trans (hrest.trans (isSuffix_passWord ..)).isInfix

theorem isInfix_of_class? (h : class? s = some name) : name <:+: s := by
  obtain ⟨rest, hrest, h⟩ := Option.bind_eq_some_iff.mp h
  obtain ⟨⟨name', behind⟩, hname, h⟩ := Option.bind_eq_some_iff.mp h
  obtain rfl := Option.some.inj h
  have hrest : rest <:+ s := (isSuffix_of_afterWord? hrest).trans <|
    (isSuffix_passWord ..).trans <| (isSuffix_passWord ..).trans (isSuffix_passWord ..)
  exact (isPrefix_of_name? hname).isInfix.trans hrest.isInfix

theorem isInfix_trim (s : Chars) : Text.trim s <:+: s := by
  obtain ⟨lead, trail, hs, -⟩ := Path.trim_eq s
  exact ⟨lead, trail, (List.append_assoc ..).trans hs.symm⟩

theorem isInfix_of_ofLine (h : ofLine line = some (kind, name)) : name <:+: line := by
  refine List.IsInfix.trans ?_ (isInfix_trim line)
  -- opened as it stands: to state its equation Lean would compute the trimmed line
  delta ofLine at h
  dsimp only at h
  cases hfound : (function? (Text.trim line)).or (bound? (Text.trim line)) with
  | some found =>
    rw [hfound] at h
    obtain ⟨-, rfl⟩ := Prod.mk.inj (Option.some.inj h)
    rcases Option.or_eq_some_iff.mp hfound with hfound | ⟨-, hfound⟩
    · exact isInfix_of_function? hfound
    · exact isInfix_of_bound? hfound
  | none =>
    rw [hfound] at h
    obtain ⟨found, hfound, heq⟩ := Option.map_eq_some_iff.mp h
    obtain ⟨-, rfl⟩ := Prod.mk.inj heq
    exact isInfix_of_class? hfound

/-- A declaration of a text is in the line of its number. -/
theorem exists_line_of_mem_ofText (h : (kind, name, n) ∈ ofText text) :
    ∃ line, 1 ≤ n ∧ (Text.splitLines text)[n - 1]? = some line ∧ name <:+: line := by
  obtain ⟨⟨shown, i⟩, hmem, h⟩ := List.mem_filterMap.mp h
  obtain ⟨⟨kind', name'⟩, hdecl, heq⟩ := Option.map_eq_some_iff.mp h
  obtain ⟨-, rfl, rfl⟩ : kind' = kind ∧ name' = name ∧ i + 1 = n := by simpa using heq
  obtain ⟨line, -, hline, rfl⟩ := Text.exists_line_of_mem_zipIdx hmem
  exact ⟨line, Nat.le_add_left 1 i, hline,
    (isInfix_of_ofLine hdecl).trans (Text.isPrefix_dropLineEnd line).isInfix⟩

end Declaration

end Worksite
