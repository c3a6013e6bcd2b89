import Mathlib
import Worksite.Python.Token
import Worksite.Proofs.Text.Words
import Worksite.Proofs.Unicode.Space

/-!
Names of modules, and the ways to write them: between their tokens there may be gaps. Such a text
begins with the whole name as a word only if it is written without gaps and what follows is set
off.
-/
namespace Worksite

namespace Dependency

open Text (Chars Blank)

variable {s t g tail : Chars} {ts : List Chars} {c : Char}

def gapChars : List Char := [' ', '\t', '\x0c']

/-- White space between the tokens of a line. -/
def IsGap (g : Chars) : Prop := ∀ c ∈ g, c ∈ gapChars

def IsIdentifier (name : Chars) : Prop :=
  ∃ c rest, name = c :: rest ∧ Python.isWordStart c ∧ ∀ d ∈ rest, Python.isWordContinue d

instance : DecidablePred IsGap := fun g =>
  decidable_of_iff (g.all (· ∈ gapChars)) (by simp [IsGap])

instance : DecidablePred IsIdentifier := fun name =>
  decidable_of_iff (name.head?.any Python.isWordStart ∧ name.tail.all Python.isWordContinue)
    (by cases name <;> simp [IsIdentifier])

/-- A dotted path, which is relative if dots stand before it. -/
structure ModuleName where
  level : Nat
  path : List Chars
  identifiers : ∀ name ∈ path, IsIdentifier name
  named : level = 0 → path ≠ []

namespace ModuleName

def tokens (m : ModuleName) : List Chars :=
  List.replicate m.level ['.'] ++ m.path.intersperse ['.']

/-- The name without gaps. -/
def text (m : ModuleName) : Chars := m.tokens.flatten

end ModuleName

/-- Tokens one after another, with gaps between. -/
inductive Spaced : List Chars → Chars → Prop
  | last (t : Chars) : Spaced [t] t
  | cons {t g s : Chars} {ts : List Chars} : IsGap g → Spaced ts s →
      Spaced (t :: ts) (t ++ (g ++ s))

/-- What follows a word does not belong to it. -/
def SetOff (tail : Chars) : Prop := ∀ c ∈ tail.head?, Unicode.isSpace c

theorem takeWhile_eq_nil_iff : tail.takeWhile (!Unicode.isSpace ·) = [] ↔ SetOff tail := by
  cases tail with
  | nil => simp [SetOff]
  | cons c tail => cases h : Unicode.isSpace c <;> simp [SetOff, h]

/-! ## Characters -/

/-- A character of an identifier, or a dot. -/
def isModuleChar (c : Char) : Bool := c = '.' || Python.isWordContinue c

/-- What has no gap inside. -/
def Solid (t : Chars) : Prop := t ≠ [] ∧ ∀ c ∈ t, isModuleChar c

/-- What holds names, dots and gaps, and no other sign. -/
def Signless (s : Chars) : Prop := ∀ c ∈ s, isModuleChar c ∨ c ∈ gapChars

theorem signless_append : Signless (s ++ t) ↔ Signless s ∧ Signless t := List.forall_mem_append

theorem Signless.of_isGap (h : IsGap g) : Signless g := fun c hc => .inr (h c hc)

theorem Signless.of_all (h : s.all isModuleChar) : Signless s := fun c hc =>
  .inl (List.all_eq_true.mp h c hc)

theorem Signless.not_mem (hs : Signless s) (h : isModuleChar c = false) (hgap : c ∉ gapChars) :
    c ∉ s := fun hc =>
  (hs c hc).elim (fun hmodule => Bool.false_ne_true (h.symm.trans hmodule)) hgap

theorem isSpace_of_isModuleChar (h : isModuleChar c) : Unicode.isSpace c = false := by
  rw [← Bool.not_eq_true]
  intro hspace
  have hcontinue := Unicode.isIdentifierContinue_of_isSpace hspace
  simp only [isModuleChar, Python.isWordContinue, hcontinue, Bool.or_false, Bool.or_eq_true,
    decide_eq_true_eq] at h
  rcases h with rfl | rfl <;> exact absurd hspace (by decide)

theorem blank_of_isGap (h : IsGap g) : Blank g := fun c hc => by
  have hall : gapChars.all Unicode.isSpace := by decide
  exact List.all_eq_true.mp hall c (h c hc)

theorem IsIdentifier.ne_nil (h : IsIdentifier s) : s ≠ [] := by
  obtain ⟨c, rest, rfl, -⟩ := h
  exact List.cons_ne_nil c rest

theorem IsIdentifier.isModuleChar (h : IsIdentifier s) : ∀ c ∈ s, isModuleChar c := by
  obtain ⟨c, rest, rfl, hstart, hrest⟩ := h
  have hword : Python.isWordContinue c := by
    simp only [Python.isWordStart, Bool.or_eq_true] at hstart
    simp only [Python.isWordContinue, Bool.or_eq_true]
    exact hstart.imp_right Unicode.isIdentifierContinue_of_isIdentifierStart
  refine List.forall_mem_cons.mpr ⟨?_, fun d hd => ?_⟩
  · simp [Dependency.isModuleChar, hword]
  · simp [Dependency.isModuleChar, hrest d hd]

theorem mem_intersperse {dot : Chars} {path : List Chars} (h : t ∈ path.intersperse dot) :
    t = dot ∨ t ∈ path := by
  match path with
  | [] => cases h
  | [name] => exact .inr h
  | name :: name' :: path =>
    rw [List.intersperse_cons_cons] at h
    rcases List.mem_cons.mp h with rfl | h
    · exact .inr List.mem_cons_self
    · rcases List.mem_cons.mp h with rfl | h
      · exact .inl rfl
      · exact (mem_intersperse h).imp_right (List.mem_cons_of_mem _)

namespace ModuleName

theorem tokens_ne_nil (m : ModuleName) : m.tokens ≠ [] := by
  intro h
  obtain ⟨hdots, hpath⟩ := List.append_eq_nil_iff.mp h
  refine m.named (List.replicate_eq_nil_iff _ |>.mp hdots) ?_
  cases hpath' : m.path with
  | nil => rfl
  | cons name path => cases path <;> simp [hpath'] at hpath

theorem mem_tokens {m : ModuleName} (h : t ∈ m.tokens) : t = ['.'] ∨ IsIdentifier t := by
  rcases List.mem_append.mp h with hdot | hpath
  · exact .inl (List.eq_of_mem_replicate hdot)
  · exact (mem_intersperse hpath).imp_right (m.identifiers t)

theorem solid_of_mem_tokens {m : ModuleName} (h : t ∈ m.tokens) : Solid t := by
  rcases mem_tokens h with rfl | hname
  · exact ⟨List.cons_ne_nil _ _, List.forall_mem_singleton.mpr rfl⟩
  · exact ⟨hname.ne_nil, hname.isModuleChar⟩

theorem isModuleChar_of_mem_text {m : ModuleName} (h : c ∈ m.text) : isModuleChar c := by
  obtain ⟨t, ht, hc⟩ := List.mem_flatten.mp h
  exact (solid_of_mem_tokens ht).2 c hc

end ModuleName

/-! ## Tokens with gaps -/

namespace Spaced

/-- Without gaps. -/
theorem flatten (hne : ts ≠ []) : Spaced ts ts.flatten := by
  induction ts with
  | nil => exact absurd rfl hne
  | cons t ts ih =>
    cases ts with
    | nil => simpa using last t
    | cons next ts => exact cons (g := []) nofun (ih (List.cons_ne_nil next ts))

theorem signless (h : Spaced ts s) (hts : ∀ t ∈ ts, Solid t) : Signless s := by
  induction h with
  | last t => exact fun c hc => .inl ((hts t List.mem_cons_self).2 c hc)
  | cons hg _ ih =>
    obtain ⟨ht, hrest⟩ := List.forall_mem_cons.mp hts
    refine signless_append.mpr ⟨fun c hc => .inl (ht.2 c hc), ?_⟩
    exact signless_append.mpr ⟨.of_isGap hg, ih hrest⟩

theorem exists_cons (h : Spaced ts s) (hts : ∀ t ∈ ts, Solid t) :
    ∃ c rest, s = c :: rest ∧ isModuleChar c := by
  have hfirst : ∀ t u : Chars, Solid t → ∃ c rest, t ++ u = c :: rest ∧ isModuleChar c := by
    rintro t u ⟨hne, hchars⟩
    obtain ⟨c, t, rfl⟩ := List.exists_cons_of_ne_nil hne
    exact ⟨c, t ++ u, rfl, hchars c List.mem_cons_self⟩
  cases h with
  | last => simpa using hfirst s [] (hts s List.mem_cons_self)
  | @cons t g s => exact hfirst t (g ++ s) (hts t List.mem_cons_self)

theorem flatten_ne_nil (h : Spaced ts s) (hts : ∀ t ∈ ts, Solid t) : ts.flatten ≠ [] := by
  obtain ⟨t, ht⟩ : ∃ t, t ∈ ts := by
    cases h <;> exact ⟨_, List.mem_cons_self⟩
  exact fun hnil => (hts t ht).1 (List.flatten_eq_nil_iff.mp hnil t ht)

/-- The first word is all the tokens only if there are no gaps and the tail is set off. -/
theorem takeWhile_eq_iff (h : Spaced ts s) (hts : ∀ t ∈ ts, Solid t) :
    (s ++ tail).takeWhile (!Unicode.isSpace ·) = ts.flatten ↔
      s = ts.flatten ∧ SetOff tail := by
  have hword : ∀ t, Solid t → ∀ u, (t ++ u).takeWhile (!Unicode.isSpace ·) =
      t ++ u.takeWhile (!Unicode.isSpace ·) := fun t ht u =>
    List.takeWhile_append_of_pos fun c hc => by simp [isSpace_of_isModuleChar (ht.2 c hc)]
  induction h with
  | last t =>
    rw [hword t (hts t List.mem_cons_self), List.flatten_singleton, List.append_right_eq_self,
      takeWhile_eq_nil_iff, eq_self, true_and]
  | @cons t g s ts hg hs ih =>
    obtain ⟨ht, hrest⟩ := List.forall_mem_cons.mp hts
    rw [List.append_assoc, hword t ht, List.flatten_cons, List.append_cancel_left_eq,
      List.append_cancel_left_eq]
    cases g with
    | nil => exact ih hrest
    | cons c g =>
      -- what comes behind a gap is not in the first word
      have hspace : Unicode.isSpace c := blank_of_isGap hg c List.mem_cons_self
      have hgap : c ∉ ts.flatten := fun hc => by
        obtain ⟨t, ht, hc⟩ := List.mem_flatten.mp hc
        exact Bool.false_ne_true
          ((isSpace_of_isModuleChar ((hrest t ht).2 c hc)).symm.trans hspace)
      rw [List.cons_append, List.cons_append, List.takeWhile_cons_of_neg (by simp [hspace])]
      refine iff_of_false (hs.flatten_ne_nil hrest).symm fun hboth => hgap ?_
      exact hboth.1 ▸ List.mem_cons_self

end Spaced

theorem ModuleName.spaced_text (m : ModuleName) : Spaced m.tokens m.text :=
  Spaced.flatten m.tokens_ne_nil

end Dependency

end Worksite
