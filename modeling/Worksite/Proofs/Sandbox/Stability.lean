import Worksite.Proofs.FileTree.Listing
import Worksite.Proofs.Path.Spelling
import Worksite.Proofs.Sandbox.Below

/-!
Places are stable: what a place is called, from the root of the workspace or from that of the file
system, is resolved to the same place again, whether it is there, is missing, or is a link to
nothing.
-/
namespace Worksite

open FileTree

variable {s : Sandbox} {t : FileTree} {c l m r : Location} {path x : String} {p : Place}

/-- A place below the root is named by how it is shown, and so is the root. -/
theorem Path.locate_display (root : Location) (hn : ∀ x ∈ l, Path.IsNormal x) :
    Path.locate root l.display = some (root ++ l) := by
  unfold Location.display
  split_ifs with hl
  · obtain rfl := List.isEmpty_iff.mp hl
    have hsteps : Path.steps "." = [.here] := by decide
    have habs : Path.isAbsolute "." = false := rfl
    rw [Path.locate, habs, hsteps, List.append_nil]
    rfl
  · exact Path.locate_relativeText root (by simpa using hl) hn

namespace FileTree

/-- No entry has a name with the character that ends the names of the system. -/
def NulFree (t : FileTree) : Prop := ∀ e ∈ t.entries, ∀ x ∈ e.1, '\x00' ∉ x.toList

instance (t : FileTree) : Decidable t.NulFree :=
  inferInstanceAs (Decidable (∀ e ∈ t.entries, ∀ x ∈ e.1, '\x00' ∉ x.toList))

theorem NulFree.names (h : t.NulFree) (he : t.entry? l ≠ none) :
    ∀ x ∈ l, x.contains '\x00' = false := by
  intro x hx
  by_cases hl : l = []
  · simp [hl] at hx
  · obtain ⟨e, he⟩ := Option.ne_none_iff_exists'.mp he
    have hchar := h _ (mem_entries_of_eq_some hl he) x hx
    simpa using hchar

theorem Canonical.nulFree (hn : t.NulFree) (h : t.Canonical l) :
    ∀ x ∈ l, x.contains '\x00' = false := by
  obtain ⟨e, he, -⟩ := h.here
  exact hn.names (by simp [he])

end FileTree

namespace Sandbox

variable {names : List String}

/-! ## Places that are found again -/

/-- A canonical location is found where it is. -/
theorem existingPrefix_of_canonical_self (hc : t.Canonical l)
    (hnul : ∀ y ∈ l, y.contains '\x00' = false) : existingPrefix t l.reverse = .ok l := by
  apply existingPrefix_of_canonical
  rw [canonical_of_nulFree hnul]
  exact follow_canonical hc

/-- Names behind a directory that does not hold the first of them stay as they are. -/
theorem existingPrefix_of_missing (hc : t.Canonical c)
    (hm : t.follow true maxLinks c [x] = .error .noEntry)
    (hnul : ∀ y ∈ c ++ x :: m, y.contains '\x00' = false) :
    existingPrefix t (c ++ x :: m).reverse = .ok (c ++ x :: m) := by
  -- on the names behind the first that is missing, from the last one
  induction m using List.reverseRecOn with
  | nil =>
    have hself := existingPrefix_of_canonical_self hc fun y hy =>
      hnul y (List.mem_append_left _ hy)
    have hfollow : t.follow true maxLinks [] (c ++ [x]) = .error .noEntry := by
      have hway : t.follow true maxLinks [] (c ++ [x]) = t.follow true maxLinks ([] ++ c) [x] :=
        follow_of_canonical hc [x]
      rw [hway, List.nil_append, hm]
    rw [List.reverse_concat, existingPrefix, List.reverse_cons, List.reverse_reverse,
      canonical_of_nulFree hnul, hfollow, hself]
    rfl
  | append_singleton m y ih =>
    have hsplit : c ++ x :: (m ++ [y]) = c ++ x :: m ++ [y] := by simp
    rw [hsplit] at hnul ⊢
    have habove := ih fun z hz => hnul z (List.mem_append_left _ hz)
    have hfollow : t.follow true maxLinks [] (c ++ x :: m) = .error .noEntry := by
      have hway : t.follow true maxLinks [] (c ++ x :: m) =
          t.follow true maxLinks ([] ++ c) (x :: m) := follow_of_canonical hc (x :: m)
      rw [hway, List.nil_append]
      cases m with
      | nil => exact hm
      | cons z m => exact follow_append_of_error (a := [x]) (by simp) hm
    rw [existingPrefix_concat_of_missing hfollow hnul, habove]
    rfl

/-- What a path was resolved to is resolved to itself. -/
theorem existingPrefix_idem (h : existingPrefix t names = .ok l)
    (hnul : ∀ y ∈ l, y.contains '\x00' = false) : existingPrefix t l.reverse = .ok l := by
  rcases existingPrefix_eq_ok h with hl | ⟨c, x, m, rfl, hc, hm, -⟩
  · exact existingPrefix_of_canonical_self
      (canonical_of_follow (canonical_nil t) (canonical_eq_ok hl)) hnul
  · exact existingPrefix_of_missing hc hm hnul

theorem nulFree_of_existingPrefix (hn : t.NulFree) (h : existingPrefix t names = .ok l) :
    ∀ y ∈ l, y.contains '\x00' = false := by
  rcases existingPrefix_eq_ok h with hl | ⟨c, x, m, rfl, hc, -, hm⟩
  · exact (canonical_of_follow (canonical_nil t) (canonical_eq_ok hl)).nulFree hn
  · intro y hy
    rcases List.mem_append.mp hy with hy | hy
    · exact hc.nulFree hn y hy
    · exact (hm y hy).2

theorem resolve_of_located (hl : Path.locate s.root path = some (s.root ++ r))
    (h : existingPrefix t (s.root ++ r).reverse = .ok (s.root ++ r)) :
    s.resolve t path = .ok { absolute := s.root ++ r, relative := r } := by
  rw [resolve_of_locate hl]
  exact resolveNames_of_existingPrefix path h

/-- An entry of a canonical directory below the root is resolved by how it is shown, whatever it
is. -/
theorem resolveEntry_display (hc : t.Canonical (s.root ++ r))
    (hnul : ∀ y ∈ s.root ++ r, y.contains '\x00' = false) (hn : ∀ y ∈ r ++ [x], Path.IsNormal y) :
    s.resolveEntry t (Location.display (r ++ [x])) =
      .ok { absolute := s.root ++ r ++ [x], relative := r ++ [x] } := by
  have habove := resolveNames_of_existingPrefix (s := s) (Location.absoluteText (s.root ++ r))
    (existingPrefix_of_canonical_self hc hnul)
  have hwithin : Location.isWithin (s.root ++ (r ++ [x])) s.root = true := by
    simp [Location.isWithin]
  have hne : s.root ++ (r ++ [x]) ≠ s.root := by simp
  simp only [resolveEntry, Path.locate_display s.root hn, hwithin, hne, Bool.not_true,
    Bool.false_eq_true, ↓reduceIte]
  rw [← List.append_assoc, List.dropLast_concat, Location.parent, List.dropLast_concat, habove]
  simp

/-- The root is resolved by how it is shown. -/
theorem resolveEntry_display_root (hc : t.Canonical s.root)
    (hnul : ∀ y ∈ s.root, y.contains '\x00' = false) :
    s.resolveEntry t (Location.display []) = .ok { absolute := s.root, relative := [] } := by
  have hl := Path.locate_display s.root (l := []) (by simp)
  have hself := existingPrefix_of_canonical_self hc hnul
  have hnames := resolveNames_of_existingPrefix (s := s) (l := []) (q := []) (Location.display [])
    (by rwa [List.append_nil])
  rw [List.append_nil] at hl hnames
  have hwithin : Location.isWithin s.root s.root = true := by
    simp [Location.isWithin]
  simp only [resolveEntry, hl, hwithin, Bool.not_true, Bool.false_eq_true, ↓reduceIte]
  exact hnames

end Sandbox

end Worksite
