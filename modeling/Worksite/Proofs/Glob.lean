import Worksite.Glob
import Worksite.Path
import Worksite.Proofs.Outcome

/-!
Patterns as they are written: what the patterns of a walk match, and that a walk without patterns to
include is after every path.
-/
namespace Worksite

namespace Glob

variable {text : String} {s : Bytes}

/-- A text is a pattern that matches a location below some start. -/
def Matches (text : String) (l : Location) : Prop :=
  ∃ gs, parse text = .ok gs ∧ matchesPath gs l.relativeText

instance (text : String) (l : Location) : Decidable (Matches text l) :=
  match h : parse text with
  | .ok gs => decidable_of_iff (matchesPath gs l.relativeText) (by simp [Matches, h])
  | .error e => .isFalse (by simp [Matches, h])

theorem nil_mem_afterStar (h : slash ∉ s) : [] ∈ afterStar s := by
  induction s with
  | nil => simp [afterStar]
  | cons b rest ih =>
    rw [List.mem_cons, not_or] at h
    rw [afterStar, if_neg (Ne.symm h.1)]
    exact List.mem_cons_of_mem _ (ih h.2)

/-- The last name of a path is what is left of it behind some directory, or all of it. -/
theorem exists_mem_afterSlashes (s : Bytes) : ∃ name ∈ s :: afterSlashes s, slash ∉ name := by
  induction s with
  | nil => exact ⟨[], by simp⟩
  | cons b rest ih =>
    obtain ⟨name, hname, hslash⟩ := ih
    by_cases hb : b = slash
    · refine ⟨name, List.mem_cons_of_mem _ ?_, hslash⟩
      rwa [afterSlashes, if_pos hb]
    · rw [afterSlashes, if_neg hb]
      rcases List.mem_cons.mp hname with rfl | hname
      · refine ⟨b :: name, List.mem_cons_self, ?_⟩
        simp [Ne.symm hb, hslash]
      · exact ⟨name, List.mem_cons_of_mem _ hname, hslash⟩

/-- Two stars and a star match every path. -/
theorem matchesPath_everything (path : String) : matchesPath [.directories, .star] path := by
  obtain ⟨name, hname, hslash⟩ := exists_mem_afterSlashes path.toUTF8.toList
  have hrest : [] ∈ rests [.star] name := by
    simp only [rests, restsOne, List.mem_eraseDups, List.mem_flatMap, List.mem_singleton]
    exact ⟨[], nil_mem_afterStar hslash, rfl⟩
  have hall : [] ∈ rests [.directories, .star] path.toUTF8.toList := by
    rw [rests, List.mem_eraseDups, List.mem_flatMap]
    exact ⟨name, hname, hrest⟩
  have hname : needsName [.directories, .star] = false := rfl
  simp only [matchesPath, isWholeTree, hname, Bool.false_eq_true, ↓reduceIte, Bool.false_and]
  simpa using hall

theorem matches_everything (l : Location) : Matches "**/*" l :=
  ⟨[.directories, .star], rfl, matchesPath_everything _⟩

end Glob

namespace FileFilter

variable {texts including excluding : List String} {gss : List (List Glob)} {f : FileFilter}

theorem compile_eq_ok :
    compile texts = .ok gss ↔ List.Forall₂ (fun text gs => Glob.parse text = .ok gs) texts gss := by
  rw [compile, mapM_eq_ok]
  simp only [mapError_eq_ok]

theorem any_of_compile (h : compile texts = .ok gss) (l : Location) :
    gss.any (Glob.matchesPath · l.relativeText) ↔ ∃ text ∈ texts, Glob.Matches text l := by
  rw [compile_eq_ok] at h
  induction h with
  | nil => simp
  | cons hgs _ ih => simp only [List.any_cons, Bool.or_eq_true, ih, List.exists_mem_cons_iff,
      Glob.Matches, hgs, Except.ok.injEq, exists_eq_left']

theorem exists_compile (h : ∀ text ∈ texts, ∃ gs, Glob.parse text = .ok gs) :
    ∃ gss, compile texts = .ok gss := by
  simp only [compile_eq_ok]
  induction texts with
  | nil => exact ⟨[], .nil⟩
  | cons text texts ih =>
    obtain ⟨gs, hgs⟩ := h text List.mem_cons_self
    obtain ⟨gss, hgss⟩ := ih fun text ht => h text (List.mem_cons_of_mem _ ht)
    exact ⟨gs :: gss, .cons hgs hgss⟩

theorem ofTexts_eq_ok (h : ofTexts including excluding = .ok f) :
    compile (if including.isEmpty then ["**/*"] else including) = .ok f.including ∧
      compile (Exclusion.files ++ excluding) = .ok f.excluding := by
  obtain ⟨inc, hinc, h⟩ := bind_eq_ok.mp h
  obtain ⟨exc, hexc, h⟩ := bind_eq_ok.mp h
  obtain rfl := Except.ok.inj h
  exact ⟨hinc, hexc⟩

theorem parse_files : ∀ text ∈ Exclusion.files, ∃ gs, Glob.parse text = .ok gs := by
  have hall : Exclusion.files.all fun text => (Glob.parse text).isOk := by cbv
  intro text ht
  have hok := List.all_eq_true.mp hall text ht
  cases hp : Glob.parse text with
  | ok gs => exact ⟨gs, rfl⟩
  | error e => simp [hp, Except.isOk, Except.toBool] at hok

/-- Patterns of which each can be read make a filter. -/
theorem exists_ofTexts (h : ∀ text ∈ including ++ excluding, ∃ gs, Glob.parse text = .ok gs) :
    ∃ f, ofTexts including excluding = .ok f := by
  have hinc : ∃ gss, compile (if including.isEmpty then ["**/*"] else including) = .ok gss := by
    apply exists_compile
    split_ifs
    · exact List.forall_mem_singleton.mpr ⟨_, rfl⟩
    · exact fun text ht => h text (List.mem_append_left _ ht)
  have hexc : ∃ gss, compile (Exclusion.files ++ excluding) = .ok gss := by
    apply exists_compile
    intro text ht
    rcases List.mem_append.mp ht with ht | ht
    · exact parse_files text ht
    · exact h text (List.mem_append_right _ ht)
  obtain ⟨inc, hinc⟩ := hinc
  obtain ⟨exc, hexc⟩ := hexc
  exact ⟨{ including := inc, excluding := exc }, by simp only [ofTexts, hinc, hexc]; rfl⟩

theorem excludes_iff (h : ofTexts including excluding = .ok f) (l : Location) :
    f.excludes l.relativeText ↔ ∃ text ∈ Exclusion.files ++ excluding, Glob.Matches text l :=
  any_of_compile (ofTexts_eq_ok h).2 l

/-- Without patterns to include, every path is after one. -/
theorem including_iff (h : ofTexts including excluding = .ok f) (l : Location) :
    f.including.any (Glob.matchesPath · l.relativeText) ↔
      including = [] ∨ ∃ text ∈ including, Glob.Matches text l := by
  rw [any_of_compile (ofTexts_eq_ok h).1 l]
  cases including with
  | nil => simpa using Glob.matches_everything l
  | cons text texts => simp

end FileFilter

end Worksite
