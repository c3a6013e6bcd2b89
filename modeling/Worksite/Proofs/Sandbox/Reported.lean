import Worksite.Proofs.Sandbox.Stability
import Worksite.Proofs.Walk.Shelter

/-!
Paths that were shown and come back: that of a listed entry names the entry, and that of a file that
a walk found names what stands there and leads to the bytes that were counted or read.
-/
namespace Worksite

open FileTree Walk

namespace Sandbox

variable {s : Sandbox} {t : FileTree} {f : FoundFile} {d l r : Location} {path text : String}
  {p : Place} {x : Entry}

/-- A file system in which all names can stand in a path, with the root in its place. -/
structure Sound (s : Sandbox) (t : FileTree) : Prop where
  anchored : s.Anchored t
  closed : t.Closed
  named : t.Named
  nulFree : t.NulFree

/-- What stands below the root is resolved by how it is shown, a link as itself. -/
theorem Sound.resolveEntry_display (h : s.Sound t) (he : t.entry? (s.root ++ r) ≠ none) :
    s.resolveEntry t r.display = .ok { absolute := s.root ++ r, relative := r } := by
  have hnames := h.named.names he
  cases r using List.reverseRecOn with
  | nil =>
    have hroot := resolveEntry_display_root h.anchored.canonical (h.anchored.canonical.nulFree
      h.nulFree)
    rw [hroot, List.append_nil]
  | append_singleton d x =>
    have hne : s.root ++ d ≠ s.root ++ (d ++ [x]) := by simp
    have hpre : s.root ++ d <+: s.root ++ (d ++ [x]) := by simp
    have hdir := h.closed.isDirectory_of_prefix he hpre hne
    have hcan : t.Canonical (s.root ++ d) := by
      refine h.closed.canonical (fun y hy => ?_) ⟨_, isDirectory_iff.mp hdir, by simp⟩
      have hname := hnames y (hpre.subset hy)
      exact ⟨hname.1.1, hname.2⟩
    have hnormal : ∀ y ∈ d ++ [x], Path.IsNormal y := fun y hy =>
      (hnames y (List.mem_append_right _ hy)).1
    rw [Sandbox.resolveEntry_display hcan (hcan.nulFree h.nulFree) hnormal, List.append_assoc]

/-! ## Listings -/

/-- A path was shown for a file of these bytes: it names what stands where the file was found, and
it leads to a file below the root that holds them. -/
structure Reported (s : Sandbox) (t : FileTree) (f : FoundFile) (path : String)
    (bytes : ByteArray) : Prop where
  found : s.Exposes t f
  shown : path = f.path
  size : f.size = bytes.size
  there : t.entry? (s.root ++ f.relative) ≠ none
  entry : s.resolveEntry t path = .ok { absolute := s.root ++ f.relative, relative := f.relative }
  file : ∃ p mode, s.resolve t path = .ok p ∧ p.absolute = s.root ++ p.relative ∧
    t.entry? p.absolute = some (.file bytes mode)

/-- What a walk finds stands there and leads to a file below the root, of the size that is told. -/
theorem Exposes.exists_place (h : s.Exposes t f) (ha : s.Anchored t) (hn : t.Named) :
    ∃ place bytes mode, t.entry? (s.root ++ f.relative) ≠ none ∧
      t.find true (s.root ++ f.relative) = .ok (.file bytes mode) ∧ f.size = bytes.size ∧
      t.canonical (s.root ++ f.relative) = .ok place ∧ s.root <+: place := by
  obtain ⟨path, root, hp, o, d, e, d', he, hf⟩ := h
  obtain ⟨hroot, hreached⟩ := resolve_eq_ok ha hp
  rcases exists_of_mem_enumerate hn hroot hreached.straight he hf with
    ⟨bytes, mode, hfind, rfl, -, -⟩ | ⟨l, place, hl, hentry, hkept⟩
  · obtain ⟨hchecked, hcan, hentry⟩ := hreached.straight.find_eq_ok hfind
    have hplace : t.canonical root.absolute = .ok root.absolute := by
      rw [canonical_of_nulFree (contains_nul_of_checkPath hchecked), follow_canonical hcan]
    rw [hroot] at hfind hentry hplace
    exact ⟨_, bytes, mode, by simp [hentry], hfind, rfl, hplace, List.prefix_append _ _⟩
  · obtain ⟨⟨bytes, mode, hfind, hsize⟩, -, hplace, hwithin, -⟩ := kept?_eq_some.mp hkept
    obtain rfl := append_relative_of_kept? hkept ((List.prefix_append _ _).trans (hroot ▸ hl))
    exact ⟨place, bytes, mode, hentry, hfind, hsize, hplace, hwithin⟩

theorem Exposes.reported (h : s.Exposes t f) (hs : s.Sound t) :
    ∃ bytes mode, t.find true (s.root ++ f.relative) = .ok (.file bytes mode) ∧
      s.Reported t f f.path bytes := by
  obtain ⟨place, bytes, mode, hentry, hfind, hsize, hplace, q, rfl⟩ :=
    h.exists_place hs.anchored hs.named
  have hnormal : ∀ x ∈ f.relative, Path.IsNormal x := fun x hx =>
    (hs.named.names hentry x (List.mem_append_right _ hx)).1
  refine ⟨bytes, mode, hfind, h, rfl, hsize, hentry, hs.resolveEntry_display hentry,
    { absolute := s.root ++ q, relative := q }, mode, ?_, rfl, ?_⟩
  · -- the path is followed to where the bytes are
    have hwithin : Location.isWithin (s.root ++ f.relative) s.root = true := by
      simp [Location.isWithin]
    have hrelative : Location.relativeTo? (s.root ++ q) s.root = some q :=
      Location.relativeTo?_eq_some.mpr rfl
    rw [FoundFile.path, resolve_of_locate (Path.locate_display s.root hnormal)]
    simp only [resolveNames, hwithin, existingPrefix_of_canonical hplace, hrelative, Bool.not_true,
      Bool.false_eq_true, ↓reduceIte]
  · obtain ⟨-, l, hfollow, hx⟩ := find_eq_ok.mp hfind
    obtain rfl : l = s.root ++ q := Except.ok.inj (hfollow.symm.trans (canonical_eq_ok hplace))
    exact hx

/-- A path was shown for a text that was scanned. -/
def Scanned (s : Sandbox) (t : FileTree) (path text : String) : Prop :=
  ∃ f bytes, s.Reported t f path bytes ∧ String.fromUTF8? bytes = some text

theorem Exposes.scanned {maxBytes : Nat} (h : s.Exposes t f) (hs : s.Sound t)
    (ht : t.loadText (s.root ++ f.relative) maxBytes = some text) :
    s.Scanned t f.path text := by
  obtain ⟨bytes, mode, hfind, hreported⟩ := h.reported hs
  simp only [loadText, hfind] at ht
  split_ifs at ht
  exact ⟨f, bytes, hreported, ht⟩

end Sandbox

end Worksite
