import Worksite.Proofs.Place.Deleting
import Worksite.Proofs.Sandbox.Below

/-!
Resolving after a removal. What still leads anywhere leads where it did before; what led past the
entry that is gone leads nowhere, so that the names behind it are taken as they are written.
-/
namespace Worksite

open FileTree

variable {t t' : FileTree} {l d c above : Location} {last : Bool} {names m : List String} {n : Nat}
  {x name path shown : String} {s : Sandbox} {p : Place} {recursive : Bool}

namespace FileTree

/-- Names that are walked past an entry that is gone lead to nothing, and all others where they led
before. -/
theorem Removed.course (h : t.Removed l t') (last : Bool) (names : List String) (hd : ¬ l <+: d) :
    t'.course last d names = .refused .noEntry ∨
      t'.course last d names = t.course last d names ∧
        ∀ d' target rest, t.course last d names = .led d' target rest → ¬ l <+: d' := by
  induction names generalizing d with
  | nil => exact .inr ⟨by rw [FileTree.course, FileTree.course], by simp [FileTree.course]⟩
  | cons s rest ih =>
    have hdir : t'.isDirectory d = t.isDirectory d := by rw [isDirectory, isDirectory, h.kept d hd]
    rw [FileTree.course, FileTree.course, hdir]
    split_ifs
    · exact .inr ⟨rfl, by simp⟩
    · exact ih hd
    · exact ih fun hl => hd (hl.trans (List.dropLast_prefix d))
    · exact .inr ⟨rfl, by simp⟩
    -- a last link that is kept, and one that is followed
    all_goals
      by_cases hl : l <+: d ++ [s]
      · rw [h.gone _ hl]
        exact .inl rfl
      · rw [h.kept _ hl]
        rcases t.entry? (d ++ [s]) with - | e
        · exact .inl rfl
        · cases e with
          | link target =>
            refine .inr ⟨rfl, fun d' _ _ hled => ?_⟩
            cases hled <;> exact hd
          | file | directory | socket => exact ih hl

theorem Removed.follow (h : t.Removed l t') (hl : l ≠ []) (hd : ¬ l <+: d) :
    t'.follow last n d names = .error .noEntry ∨
      t'.follow last n d names = t.follow last n d names := by
  -- on the links that may be followed
  induction n generalizing d names with
  | zero =>
    rw [FileTree.follow, FileTree.follow]
    rcases h.course last names hd with hc | ⟨hc, -⟩
    · exact .inl (by rw [hc])
    · exact .inr (by rw [hc])
  | succ n ih =>
    rw [FileTree.follow, FileTree.follow]
    rcases h.course last names hd with hc | ⟨hc, hled⟩
    · exact .inl (by rw [hc])
    · rw [hc]
      cases hcourse : t.course last d names with
      | arrived | refused => exact .inr rfl
      | led d' target rest =>
        apply ih
        split_ifs
        · exact fun hnil => hl (List.prefix_nil.mp hnil)
        · exact hled d' target rest hcourse

theorem Removed.canonical (h : t.Removed l t') (hl : l ≠ []) (names : List String) :
    t'.canonical names = .error .noEntry ∨ t'.canonical names = t.canonical names := by
  unfold FileTree.canonical
  split_ifs
  · exact .inr rfl
  · exact h.follow hl fun hnil => hl (List.prefix_nil.mp hnil)

theorem canonical_of_concat (h : t.canonical (names ++ [x]) = .ok d) :
    ∃ d', t.canonical names = .ok d' := by
  have hf := Sandbox.canonical_eq_ok h
  unfold FileTree.canonical at h ⊢
  split_ifs at h with hnul
  rw [List.any_append, Bool.or_eq_true, not_or] at hnul
  rw [if_neg hnul.1]
  cases hfollow : t.follow true maxLinks [] names with
  | ok d' => exact ⟨d', rfl⟩
  | error e =>
    rw [follow_append_of_error (by simp) hfollow] at hf
    cases hf

/-- Nothing is found behind a name that leads nowhere. -/
theorem find_of_missing (hc : t.Canonical c) (hx : t.follow true maxLinks c [x] = .error .noEntry)
    (hm : m ≠ []) (hp : checkPath (c ++ x :: m) = .ok ()) :
    t.find last (c ++ x :: m) = .error .noEntry := by
  have hfollow : t.follow last maxLinks [] (c ++ x :: m) = .error .noEntry := by
    have hstart : t.follow last maxLinks [] (c ++ x :: m) =
      t.follow last maxLinks ([] ++ c) (x :: m) := follow_of_canonical hc (x :: m)
    rw [hstart, List.nil_append]
    exact follow_append_of_error hm hx
  rw [find, hp, ok_bind, hfollow, error_bind]

/-- Nothing is found under the name of an entry that is gone. -/
theorem Removed.find (h : t.Removed (d ++ [x]) t') (hc : t.Canonical d) (hd : t.isDirectory d)
    (hs : Path.IsName x) (hlen : x.utf8ByteSize ≤ maxName) (hp : checkPath (d ++ [x]) = .ok ()) :
    t'.find last (d ++ [x]) = .error .noEntry := by
  have hkept : ∀ q, q <+: d → t'.entry? q = t.entry? q := by
    intro q hq
    apply h.kept
    intro hpre
    have hlen := (hpre.trans hq).length_le
    simp at hlen
  have hc' : t'.Canonical d := hc.congr hkept
  have hd' : t'.isDirectory d := by
    rw [isDirectory_iff, hkept d (List.prefix_refl d)]
    exact isDirectory_iff.mp hd
  have hstart : t'.follow last maxLinks [] (d ++ [x]) = t'.follow last maxLinks ([] ++ d) [x] :=
    follow_of_canonical hc' [x]
  rw [FileTree.find, hp, ok_bind, hstart, List.nil_append,
    follow_absent hd' hs (h.gone _ (List.prefix_refl _)), if_neg (by omega), error_bind]

end FileTree

namespace Sandbox

/-- What existed as a whole is resolved after a removal, if not to the same. -/
theorem existingPrefix_removed (h : t.Removed l t') (hl : l ≠ [])
    (hc : t.canonical above = .ok d) : ∃ d', existingPrefix t' above.reverse = .ok d' := by
  induction above using List.reverseRecOn generalizing d with
  | nil => exact ⟨[], rfl⟩
  | append_singleton above x ih =>
    rcases h.canonical hl (above ++ [x]) with hgone | hsame
    · obtain ⟨d', habove⟩ := canonical_of_concat hc
      obtain ⟨d'', hd⟩ := ih habove
      refine ⟨d'' ++ [x], ?_⟩
      rw [List.reverse_concat, existingPrefix, List.reverse_cons, List.reverse_reverse, hgone, hd]
      rfl
    · exact ⟨d, existingPrefix_of_canonical (hsame.trans hc)⟩

/-- What is resolved to a canonical location exists as a whole. -/
theorem canonical_of_existingPrefix (hp : existingPrefix t above.reverse = .ok l)
    (hc : t.Canonical l) : t.canonical above = .ok l := by
  rcases existingPrefix_eq_ok hp with h | ⟨c, x, m, rfl, -, hx, -⟩
  · rwa [List.reverse_reverse] at h
  · have hcx : t.Canonical (c ++ [x]) := hc.of_prefix ⟨m, by simp⟩
    have hfollow : t.follow true maxLinks c ([x] ++ []) = t.follow true maxLinks (c ++ [x]) [] :=
      follow_of_canonical hcx []
    rw [List.append_nil, hx] at hfollow
    simp [FileTree.follow, FileTree.course] at hfollow

/-! ## Entries that are named -/

/-- What was found is a place if it is below the root, and escapes otherwise. -/
theorem resolveNames_of_found (shown : String) (hw : Location.isWithin above s.root)
    (h : existingPrefix t above.reverse = .ok l) :
    (∃ relative, l.relativeTo? s.root = some relative ∧
      s.resolveNames t shown above = .ok { absolute := l, relative }) ∨
      s.resolveNames t shown above = .error (.pathEscape shown) := by
  unfold resolveNames
  rw [hw, if_neg (by simp), h]
  cases hr : l.relativeTo? s.root with
  | none => exact .inr (by simp only [hr])
  | some relative => exact .inl ⟨relative, rfl, by simp only [hr]⟩

/-- The names of the root lead to nothing but the root. -/
theorem relative_of_resolveNames_root (ha : s.Anchored t)
    (h : s.resolveNames t shown s.root = .ok p) : p.relative = [] := by
  obtain ⟨hfound, hbelow⟩ := existingPrefix_of_resolveNames h
  obtain ⟨a, b, d, hroot, hd, habsolute, -⟩ := leadsTo_of_existingPrefix hfound
  have ha' : t.Canonical a := ha.canonical.of_prefix ⟨b, hroot.symm⟩
  obtain rfl : a = d := Except.ok.inj ((follow_canonical ha').symm.trans (canonical_eq_ok hd))
  rw [← hroot, hbelow] at habsolute
  exact List.append_right_eq_self.mp habsolute

theorem resolveEntry_of_concat (hl : Path.locate s.root path = some (above ++ [name]))
    (hw : Location.isWithin (above ++ [name]) s.root) (hne : above ++ [name] ≠ s.root) :
    s.resolveEntry t path = (s.resolveNames t above.absoluteText above).map fun a =>
      { absolute := a.absolute ++ [name], relative := a.relative ++ [name] } := by
  simp only [resolveEntry, hl, hw, hne, Bool.not_true, Bool.false_eq_true, ↓reduceIte,
    Location.parent, List.dropLast_concat, List.getLast?_concat, Option.toList_some]
  cases s.resolveNames t above.absoluteText above <;> simp [Except.map, pure, Except.pure]

/-- A path that names an entry: its last name is kept, and the others are followed. -/
theorem resolveEntry_cases (ha : s.Anchored t) (h : s.resolveEntry t path = .ok p)
    (hroot : p.relative ≠ []) : ∃ (above : Location) (name : String) (a : Place),
      Path.locate s.root path = some (above ++ [name]) ∧
      Location.isWithin (above ++ [name]) s.root ∧ above ++ [name] ≠ s.root ∧
      s.resolveNames t above.absoluteText above = .ok a ∧
      p = { absolute := a.absolute ++ [name], relative := a.relative ++ [name] } := by
  cases hl : Path.locate s.root path with
  | none => simp [resolveEntry, hl] at h
  | some names =>
    by_cases hw : names.isWithin s.root
    · by_cases hne : names = s.root
      · subst hne
        simp only [resolveEntry, hl, hw, Bool.not_true, Bool.false_eq_true, ↓reduceIte] at h
        exact absurd (relative_of_resolveNames_root ha h) hroot
      · have hnil : names ≠ [] := by
          rintro rfl
          have hpre : s.root <+: [] :=
            List.isPrefixOf_iff_prefix.mp (by simpa [Location.isWithin] using hw)
          exact hne (List.prefix_nil.mp hpre).symm
        rw [← List.dropLast_append_getLast hnil] at hl hw hne
        rw [resolveEntry_of_concat hl hw hne] at h
        obtain ⟨a, ha, hp⟩ := map_eq_ok.mp h
        have hnames := congrArg some (List.dropLast_append_getLast hnil).symm
        exact ⟨_, _, a, hnames, hw, hne, ha, hp.symm⟩
    · simp [resolveEntry, hl, hw] at h

/-- The entry that a path names: its last name, where the others lead. -/
theorem follow_of_resolveEntry (ha : s.Anchored t) (h : s.resolveEntry t path = .ok p)
    (hroot : p.relative ≠ []) (hc : t.Canonical p.absolute.dropLast) :
    ∃ (above : Location) (name : String), Path.locate s.root path = some (above ++ [name]) ∧
      t.follow true maxLinks [] above = .ok p.absolute.dropLast ∧
      p.absolute = p.absolute.dropLast ++ [name] := by
  obtain ⟨above, name, a, hl, -, -, hr, rfl⟩ := resolveEntry_cases ha h hroot
  rw [List.dropLast_concat] at hc ⊢
  have hcanonical := canonical_of_existingPrefix (existingPrefix_of_resolveNames hr).1 hc
  exact ⟨above, name, hl, canonical_eq_ok hcanonical, rfl⟩

/-- After the entry of a path is gone, the path escapes or is resolved to a place where nothing is
found. -/
theorem resolveEntry_removed {q : Location} (ha : s.Anchored t) (h : s.resolveEntry t path = .ok p)
    (hroot : p.relative ≠ []) (hseat : t.seat p.absolute = .ok q)
    (hremoved : t.Removed p.absolute t') :
    (∃ shown, s.resolveEntry t' path = .error (.pathEscape shown)) ∨
      ∃ p', s.resolveEntry t' path = .ok p' ∧ p'.relative ≠ [] ∧
        ∀ last, checkPath p'.absolute = .ok () → t'.find last p'.absolute = .error .noEntry := by
  obtain ⟨-, hnames, hstraight⟩ := resolveEntry_eq_ok ha h
  obtain ⟨-, hc, hd, -, hlen⟩ := seat_eq_ok hstraight hseat
  obtain ⟨above, name, a, hl, hw, hne, hr, rfl⟩ := resolveEntry_cases ha h hroot
  obtain ⟨hfound, -⟩ := existingPrefix_of_resolveNames hr
  dsimp only at hnames hc hd hlen hremoved
  rw [List.dropLast_concat] at hc hd
  have hcanonical := canonical_of_existingPrefix hfound hc
  have hwithin : Location.isWithin above s.root := by
    by_contra hout
    rw [resolveNames, if_pos (by simpa using hout)] at hr
    cases hr
  rw [resolveEntry_of_concat hl hw hne]
  rcases hremoved.canonical (by simp) above with hgone | hsame
  · -- the part above leads past what is gone
    obtain ⟨d, hd'⟩ := existingPrefix_removed hremoved (by simp) hcanonical
    rcases existingPrefix_eq_ok hd' with hstill | ⟨c, x, m, rfl, hcc, hx, -⟩
    · rw [List.reverse_reverse] at hstill
      cases hgone.symm.trans hstill
    rcases resolveNames_of_found above.absoluteText hwithin hd' with ⟨relative, -, hr'⟩ | hr'
    · rw [hr']
      refine .inr ⟨_, rfl, by simp, fun last hp => ?_⟩
      have hbehind : c ++ x :: m ++ [name] = c ++ x :: (m ++ [name]) := by simp
      dsimp only at hp ⊢
      rw [hbehind] at hp ⊢
      exact find_of_missing hcc hx (by simp) hp
    · rw [hr']
      exact .inl ⟨_, rfl⟩
  · -- it leads where it led before
    have hsame' := existingPrefix_of_canonical (hsame.trans hcanonical)
    rcases resolveNames_of_found above.absoluteText hwithin hsame' with ⟨relative, -, hr'⟩ | hr'
    · rw [hr']
      refine .inr ⟨_, rfl, by simp, fun last hp => ?_⟩
      exact hremoved.find hc hd (hnames name (by simp)) (hlen name (by simp)) hp
    · rw [hr']
      exact .inl ⟨_, rfl⟩

end Sandbox

end Worksite
