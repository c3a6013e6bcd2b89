import Worksite.Index
import Worksite.Proofs.Outcome
import Worksite.Search

/-!
What is scanned. A search and a rebuild look into no file but those that walks found.
-/
namespace Worksite

variable {s : Sandbox} {t : FileTree} {root : Place} {f : FoundFile} {text : String}
  {d d' : Deadline}

/-- Some walk from a place finds the file. -/
def FoundFrom (s : Sandbox) (t : FileTree) (root : Place) (f : FoundFile) : Prop :=
  ∃ o d e d', enumerate s t root o d = .ok (e, d') ∧ f ∈ e.files

/-! ## Searches -/

theorem Search.mem_scan {load : FoundFile → Option String} {p : Pattern}
    {truncated : Option Truncation} {left : Option Nat} {files : List FoundFile} {m : SearchMatch}
    (h : m ∈ (scan load p truncated left d files).found) :
    ∃ f ∈ files, ∃ text, load f = some text ∧ m ∈ inText p f.path text.toList := by
  have hcons {f : FoundFile} {files : List FoundFile} :
      (∃ g ∈ files, ∃ text, load g = some text ∧ m ∈ inText p g.path text.toList) →
        ∃ g ∈ f :: files, ∃ text, load g = some text ∧ m ∈ inText p g.path text.toList :=
    fun ⟨g, hg, hm⟩ => ⟨g, List.mem_cons_of_mem _ hg, hm⟩
  fun_induction scan load p truncated left d files with
  | case1 => simp at h
  | case2 => simp at h
  | case3 left d f rest _ _ ih => exact hcons (ih h)
  | case4 left d f rest _ text hload =>
    exact ⟨f, List.mem_cons_self, text, hload, List.mem_of_mem_take h⟩
  | case5 left d f rest _ text hload _ _ _ ih =>
    rcases List.mem_append.mp h with h | h
    · exact ⟨f, List.mem_cons_self, text, hload, h⟩
    · exact hcons (ih h)

/-- Each match of a search is one in the text of a file that a walk found. -/
theorem exists_of_mem_search {walk : WalkOptions} {o : SearchOptions} {outcome : SearchOutcome}
    {m : SearchMatch} (h : search s t root walk o d = .ok outcome) (hm : m ∈ outcome.found) :
    ∃ p f text, o.query.pattern = .ok p ∧ FoundFrom s t root f ∧
      t.loadText (s.root ++ f.relative) o.maxFileBytes = some text ∧
      m ∈ Search.inText p f.path text.toList := by
  obtain ⟨p, hp, h⟩ := bind_eq_ok.mp h
  split_ifs at h with hlimit
  · obtain rfl := Except.ok.inj h
    simp at hm
  · obtain ⟨⟨e, d'⟩, he, h⟩ := bind_eq_ok.mp h
    obtain rfl := Except.ok.inj h
    obtain ⟨f, hf, text, hload, hm⟩ := Search.mem_scan hm
    exact ⟨p, f, text, hp, ⟨walk, d, e, d', he, hf⟩, hload, hm⟩

/-! ## Rebuilds -/

namespace Index

variable {scope : IndexScope} {files files' found : List FoundFile} {roots : List Place}

theorem mem_addFiles {languages : List Language} (h : f ∈ addFiles languages files found) :
    f ∈ files ∨ f ∈ found := by
  induction found generalizing files with
  | nil => exact .inl h
  | cons g found ih =>
    rw [addFiles, List.foldl_cons] at h
    rcases ih h with h | h
    · split_ifs at h with hwanted
      · rcases List.mem_append.mp h with h | h
        · exact .inl h
        · exact .inr (List.mem_singleton.mp h ▸ List.mem_cons_self)
      · exact .inl h
    · exact .inr (List.mem_cons_of_mem _ h)

theorem mem_collect (h : collect s t scope files d roots = .ok (files', d')) (hf : f ∈ files') :
    f ∈ files ∨ ∃ root ∈ roots, FoundFrom s t root f := by
  induction roots generalizing files d with
  | nil =>
    obtain ⟨rfl, -⟩ := Prod.mk.inj (Except.ok.inj h)
    exact .inl hf
  | cons root roots ih =>
    rw [collect] at h
    split_ifs at h with hleft hexpired
    · obtain ⟨rfl, -⟩ := Prod.mk.inj (Except.ok.inj h)
      exact .inl hf
    · obtain ⟨rfl, -⟩ := Prod.mk.inj (Except.ok.inj h)
      exact .inl hf
    · obtain ⟨⟨e, d₁⟩, he, h⟩ := bind_eq_ok.mp h
      have hadded : f ∈ addFiles scope.languages files e.files →
          f ∈ files ∨ ∃ r ∈ root :: roots, FoundFrom s t r f := by
        intro hf
        rcases mem_addFiles hf with hf | hf
        · exact .inl hf
        · exact .inr ⟨root, List.mem_cons_self, _, _, e, d₁, he, hf⟩
      dsimp only at h
      split_ifs at h with htime
      · obtain ⟨rfl, -⟩ := Prod.mk.inj (Except.ok.inj h)
        exact hadded hf
      · rcases ih h with hf | ⟨r, hr, hf⟩
        · exact hadded hf
        · exact .inr ⟨r, List.mem_cons_of_mem _ hr, hf⟩

theorem mem_load {maxBytes : Nat} (h : (f, text) ∈ load s t maxBytes d files) :
    f ∈ files ∧ t.loadText (s.root ++ f.relative) maxBytes = some text := by
  fun_induction load s t maxBytes d files with
  | case1 => simp at h
  | case2 => simp at h
  | case3 d g rest _ ih =>
    rcases List.mem_append.mp h with h | h
    · obtain ⟨text', htext, heq⟩ := List.mem_map.mp h
      obtain ⟨rfl, rfl⟩ := Prod.mk.inj heq
      exact ⟨List.mem_cons_self, Option.mem_toList.mp htext⟩
    · exact ⟨List.mem_cons_of_mem _ (ih h).1, (ih h).2⟩

/-- Each text that a rebuild scans is that of a file that a walk from one of its roots found. -/
theorem exists_of_mem_scan {scanned : List (FoundFile × String)}
    (h : scan s t scope d = .ok scanned) (hf : (f, text) ∈ scanned) :
    (∃ root ∈ scope.roots, FoundFrom s t root f) ∧
      t.loadText (s.root ++ f.relative) scope.maxFileBytes = some text := by
  obtain ⟨⟨files, d'⟩, hfiles, h⟩ := bind_eq_ok.mp h
  obtain rfl := Except.ok.inj h
  obtain ⟨hmem, hload⟩ := mem_load hf
  exact ⟨(mem_collect hfiles hmem).resolve_left (by simp), hload⟩

end Index

end Worksite
