import Worksite.Proofs.Sandbox.Links
import Worksite.Proofs.Walk.Enumeration
import Worksite.Proofs.Walk.Scanning

/-!
Content that is never shown. A walk looks at the names by which it comes to a file, and a link can
have other names than the file that it leads to. So what is never shown stays unseen as long as the
links to it have names that are never shown either.
-/
namespace Worksite

open FileTree Walk

/-- A location below the workspace root that is never shown: below a directory of such a name, or
that of such a file. -/
def Exclusion.Covers (l : Location) : Prop :=
  (∃ name ∈ l.dropLast, name ∈ directories) ∨ ∃ text ∈ files, Glob.Matches text l

instance (l : Location) : Decidable (Exclusion.Covers l) :=
  inferInstanceAs (Decidable ((∃ name ∈ l.dropLast, _) ∨ _))

theorem WalkOptions.Admits.not_covers {o : WalkOptions} {below inWorkspace : Location}
    (h : o.Admits below inWorkspace) : ¬ Exclusion.Covers inWorkspace := by
  rintro (⟨name, hname, hshown⟩ | ⟨text, ht, hmatches⟩)
  · exact h.shown name hname hshown
  · exact (h.notExcluded text (List.mem_append_left _ ht)).2 hmatches

/-- Without options, all but what is never shown is admitted. -/
theorem WalkOptions.admits_of_not_covers {l : Location} (h : ¬ Exclusion.Covers l) :
    ({} : WalkOptions).Admits l l where
  shown name hname hshown := h (.inl ⟨name, hname, hshown⟩)
  notExcluded text ht := by
    have hmatches : ¬ Glob.Matches text l := fun hm => h (.inr ⟨text, by simpa using ht, hm⟩)
    exact ⟨hmatches, hmatches⟩
  included := .inl rfl

namespace Sandbox

variable {s : Sandbox} {t : FileTree} {f : FoundFile} {root : Place} {l r : Location}
  {path : String}

/-- Some walk from a place that is resolved finds the file. -/
def Exposes (s : Sandbox) (t : FileTree) (f : FoundFile) : Prop :=
  ∃ path root, s.resolve t path = .ok root ∧ FoundFrom s t root f

/-- Links below the root to files that are never shown have names that are never shown. -/
def Sheltered (s : Sandbox) (t : FileTree) : Prop :=
  ∀ l r target bytes mode, t.entry? (s.root ++ l) = some (.link target) →
    t.find true (s.root ++ l) = .ok (.file bytes mode) →
    t.canonical (s.root ++ l) = .ok (s.root ++ r) → Exclusion.Covers r → Exclusion.Covers l

/-- What is found stands there, leads to a file, and has names that may be shown. -/
theorem Exposes.shown (ha : s.Anchored t) (hn : t.Named) (h : s.Exposes t f) :
    ¬ Exclusion.Covers f.relative ∧ t.entry? (s.root ++ f.relative) ≠ none ∧
      ∃ bytes mode, t.find true (s.root ++ f.relative) = .ok (.file bytes mode) := by
  obtain ⟨path, root, hp, o, d, e, d', he, hf⟩ := h
  obtain ⟨hroot, hreached⟩ := resolve_eq_ok ha hp
  rcases exists_of_mem_enumerate hn hroot hreached.straight he hf with
    ⟨bytes, mode, hfind, rfl, hnames, htexts⟩ | ⟨l, place, hl, hentry, hkept⟩
  · -- the walk starts from the file
    have hentry := (hreached.straight.find_eq_ok hfind).2.2
    rw [hroot] at hfind hentry
    refine ⟨?_, by simp [hentry], bytes, mode, hfind⟩
    rintro (⟨name, hname, hshown⟩ | ⟨text, ht, hmatches⟩)
    · exact hnames name hname hshown
    · exact htexts text (List.mem_append_left _ ht) hmatches
  · obtain ⟨⟨bytes, mode, hfind, -⟩, -, -, -, hadmits⟩ := kept?_eq_some.mp hkept
    have hwithin : s.root <+: l := (List.prefix_append _ _).trans (hroot ▸ hl)
    obtain rfl := append_relative_of_kept? hkept hwithin
    exact ⟨hadmits.not_covers, hentry, bytes, mode, hfind⟩

/-- A file that is no link is where it stands. -/
theorem canonical_of_file {bytes : ByteArray} {mode : Nat} (hc : t.Closed) (hn : t.Named)
    (he : ∃ e, t.entry? l = some e ∧ ∀ target, e ≠ .link target)
    (hf : t.find true l = .ok (.file bytes mode)) : t.canonical l = .ok l := by
  have hchecked : checkPath l = .ok () := (find_eq_ok.mp hf).1
  have hnames : ∀ x ∈ l, Path.IsName x ∧ x.utf8ByteSize ≤ maxName := by
    obtain ⟨e, he, -⟩ := he
    exact fun x hx => ⟨(hn.names (by simp [he]) x hx).1.1, (hn.names (by simp [he]) x hx).2⟩
  rw [canonical_of_nulFree (contains_nul_of_checkPath hchecked),
    follow_canonical (hc.canonical hnames he)]

/-- The blank path is resolved to the root. -/
theorem resolve_blank (ha : s.Anchored t) (hchecked : checkPath s.root = .ok ()) :
    s.resolve t "" = .ok { absolute := s.root, relative := [] } := by
  have hlocate : Path.locate s.root "" = some s.root := rfl
  have hprefix := existingPrefix_of_clear ha.canonical.names
    (contains_nul_of_checkPath hchecked) (ha.canonical.clear ha.directory)
  have hroot := resolveNames_of_existingPrefix (s := s) (l := []) (q := []) ""
    (by simpa using hprefix)
  rw [resolve_of_locate hlocate]
  simpa using hroot

/-- A file with names that may be shown is found, if not under these then under others. -/
theorem exists_exposes {bytes : ByteArray} {mode : Nat} (ha : s.Anchored t) (hn : t.Named)
    (he : ∃ e, t.entry? (s.root ++ l) = some e ∧ e ≠ .directory)
    (hf : t.find true (s.root ++ l) = .ok (.file bytes mode))
    (hc : t.canonical (s.root ++ l) = .ok (s.root ++ r)) (hl : ¬ Exclusion.Covers l) :
    ∃ f, s.Exposes t f ∧ t.canonical (s.root ++ f.relative) = .ok (s.root ++ r) := by
  have hchecked : checkPath s.root = .ok () :=
    checkPath_above (find_eq_ok.mp hf).1 (List.prefix_append _ _)
  have hfind : t.find true s.root = .ok .directory :=
    ha.canonical.find hchecked (isDirectory_iff.mp ha.directory)
  have hkept : kept? s t { absolute := s.root, relative := [] } {} (s.root ++ l) =
      some (s.root ++ r, { relative := l, size := bytes.size }) := by
    have hadmits := WalkOptions.admits_of_not_covers hl
    rw [kept?_of_found hf hc, if_pos ⟨List.prefix_append _ _, by simpa using hadmits⟩,
      List.drop_left]
  have hfound : (s.root ++ r, { relative := l, size := bytes.size }) ∈
      (t.listing s.root).filterMap (kept? s t { absolute := s.root, relative := [] } {}) :=
    List.mem_filterMap.mpr ⟨_, mem_listing.mpr ⟨List.prefix_append _ _, he⟩, hkept⟩
  obtain ⟨f, hf, hfirst⟩ := exists_mem_firstOfEach hfound
  obtain ⟨l', hl', hkept'⟩ := List.mem_filterMap.mp hf
  obtain ⟨-, -, hc', -, -⟩ := kept?_eq_some.mp hkept'
  obtain rfl := append_relative_of_kept? hkept' (mem_listing.mp hl').1
  have hwalk : enumerate s t { absolute := s.root, relative := [] } {} .unbounded = _ :=
    enumerate_of_directory hn (by simp) ha.directory hfind rfl (by simp)
  exact ⟨f, ⟨"", _, resolve_blank ha hchecked, _, _, _, _, hwalk, hfirst⟩, hc'⟩

theorem Sheltered.not_covers (hs : s.Sheltered t) (ha : s.Anchored t) (hc : t.Closed)
    (hn : t.Named) (hf : s.Exposes t f)
    (hplace : t.canonical (s.root ++ f.relative) = .ok (s.root ++ r)) : ¬ Exclusion.Covers r := by
  intro hr
  obtain ⟨hshown, hentry, bytes, mode, hfind⟩ := hf.shown ha hn
  obtain ⟨e, he⟩ := Option.ne_none_iff_exists'.mp hentry
  by_cases hlink : ∃ target, e = .link target
  · obtain ⟨target, rfl⟩ := hlink
    exact hshown (hs _ _ _ _ _ he hfind hplace hr)
  · -- a file that is no link has the names under which it was found
    push Not at hlink
    rw [canonical_of_file hc hn ⟨e, he, hlink⟩ hfind, Except.ok.injEq,
      List.append_cancel_left_eq] at hplace
    exact hshown (hplace ▸ hr)

/-- A search looks into nothing but what walks find. -/
theorem exists_exposes_of_mem_search {root : Place} {walk : WalkOptions} {o : SearchOptions}
    {d : Deadline} {outcome : SearchOutcome} {m : SearchMatch} (hp : s.resolve t path = .ok root)
    (h : search s t root walk o d = .ok outcome) (hm : m ∈ outcome.found) :
    ∃ p f text, o.query.pattern = .ok p ∧ s.Exposes t f ∧
      t.loadText (s.root ++ f.relative) o.maxFileBytes = some text ∧
      m ∈ Search.inText p f.path text.toList := by
  obtain ⟨p, f, text, hpattern, hfound, hload, hm⟩ := exists_of_mem_search h hm
  exact ⟨p, f, text, hpattern, ⟨path, root, hp, hfound⟩, hload, hm⟩

/-- A rebuild looks into nothing but what walks find. -/
theorem exposes_of_mem_scan {scope : IndexScope} {d : Deadline}
    {scanned : List (FoundFile × String)} {text : String}
    (hroots : ∀ root ∈ scope.roots, ∃ path, s.resolve t path = .ok root)
    (h : Index.scan s t scope d = .ok scanned) (hf : (f, text) ∈ scanned) :
    s.Exposes t f ∧ t.loadText (s.root ++ f.relative) scope.maxFileBytes = some text := by
  obtain ⟨⟨root, hroot, hfound⟩, hload⟩ := Index.exists_of_mem_scan h hf
  obtain ⟨path, hp⟩ := hroots root hroot
  exact ⟨⟨path, root, hp, hfound⟩, hload⟩

/-- Walks find nothing of what is never shown just if the links to it have names that are never
shown; and a search or a rebuild looks into nothing but what walks find. -/
theorem sheltered_iff (ha : s.Anchored t) (hc : t.Closed) (hn : t.Named) :
    (s.Sheltered t ↔ ∀ f r, s.Exposes t f →
      t.canonical (s.root ++ f.relative) = .ok (s.root ++ r) → ¬ Exclusion.Covers r) ∧
    (∀ path root walk o d outcome m, s.resolve t path = .ok root →
      search s t root walk o d = .ok outcome → m ∈ outcome.found →
        ∃ p f text, o.query.pattern = .ok p ∧ s.Exposes t f ∧
          t.loadText (s.root ++ f.relative) o.maxFileBytes = some text ∧
          m ∈ Search.inText p f.path text.toList) ∧
    ∀ scope d scanned f text, (∀ root ∈ scope.roots, ∃ path, s.resolve t path = .ok root) →
      Index.scan s t scope d = .ok scanned → (f, text) ∈ scanned →
        s.Exposes t f ∧ t.loadText (s.root ++ f.relative) scope.maxFileBytes = some text := by
  refine ⟨⟨fun hs f r => hs.not_covers ha hc hn, fun h l r target bytes mode he hf hplace hr => ?_⟩,
    fun path root walk o d outcome m hp h hm => ?_, fun scope d scanned f text hroots h hf => ?_⟩
  · by_contra hl
    obtain ⟨f, hexposes, hplace'⟩ := exists_exposes ha hn ⟨_, he, by simp⟩ hf hplace hl
    exact h f r hexposes hplace' hr
  · exact exists_exposes_of_mem_search hp h hm
  · exact exposes_of_mem_scan hroots h hf

/-- The links of the tree lead to a file with names that may be shown, and to one outside. -/
theorem sheltered_linked : Sheltered { root := ["ws"] } linked := by
  intro l r target bytes mode he hf hc hr
  have hmem := mem_entries_of_eq_some (by simp) he
  simp only [linked, List.mem_cons, List.not_mem_nil, or_false, Prod.mk.injEq, reduceCtorEq,
    and_false, false_or, Entry.link.injEq] at hmem
  have hb : linked.canonical ["ws", "a"] = .ok ["ws", "b"] := by cbv
  have hx : linked.canonical ["ws", "c"] = .ok ["x"] := by cbv
  rcases hmem with ⟨hl, -⟩ | ⟨hl, -⟩
  · rw [hl, hb] at hc
    obtain rfl : ["b"] = r := by simpa using hc
    exact absurd hr (by decide +kernel)
  · rw [hl, hx] at hc
    simp at hc

theorem sheltered_iff_linked :
    Sheltered { root := ["ws"] } linked ∧ ∀ f r, Exposes { root := ["ws"] } linked f →
      linked.canonical (["ws"] ++ f.relative) = .ok (["ws"] ++ r) → ¬ Exclusion.Covers r := by
  have ha : Anchored { root := ["ws"] } linked :=
    ⟨Closed.canonical (by decide) (by decide) ⟨.directory, rfl, by simp⟩, rfl⟩
  exact ⟨sheltered_linked,
    (sheltered_iff ha (by decide) (by decide +kernel)).1.mp sheltered_linked⟩

/-- A link to a file in a directory that is not shown. -/
def unsheltered : FileTree where
  entries := [(["ws"], .directory), (["ws", "a"], .link "out/x"), (["ws", "out"], .directory),
    (["ws", "out", "x"], .file "x".toUTF8 0o644)]
  distinct := by decide

/-- A walk finds the file by the name of the link. -/
theorem exposes_covered_unsheltered :
    ∃ f r, Exposes { root := ["ws"] } unsheltered f ∧
      unsheltered.canonical (["ws"] ++ f.relative) = .ok (["ws"] ++ r) ∧ Exclusion.Covers r := by
  have ha : Anchored { root := ["ws"] } unsheltered :=
    ⟨Closed.canonical (by decide) (by decide) ⟨.directory, rfl, by simp⟩, rfl⟩
  have hfind : unsheltered.find true ["ws", "a"] = .ok (.file "x".toUTF8 0o644) := by cbv
  have hplace : unsheltered.canonical ["ws", "a"] = .ok ["ws", "out", "x"] := by cbv
  obtain ⟨f, hf, hplace⟩ := exists_exposes (l := ["a"]) (r := ["out", "x"]) ha (by decide +kernel)
    ⟨_, rfl, by simp⟩ hfind hplace (by decide +kernel)
  exact ⟨f, ["out", "x"], hf, hplace, by decide +kernel⟩

end Sandbox

end Worksite
