import Worksite.Proofs.FileTree.Obstruction
import Worksite.Proofs.Sandbox.Removal

/-!
Paths that name nothing. Where a name is missing the path is resolved to a place where nothing is
found; where the way is obstructed by what is no directory, resolving it or looking at its place is
refused for that.
-/
namespace Worksite

open FileTree

variable {s : Sandbox} {t : FileTree} {l : Location} {path : String} {p : Place}
  {names : Location} {last : Bool} {cause : SystemError}

namespace FileTree

theorem find_of_follow_error (hp : checkPath l = .ok ())
    (h : t.follow last maxLinks [] l = .error cause) : t.find last l = .error cause := by
  rw [find, hp, ok_bind, h, error_bind]

theorem find_congr_follow {m : Location} (hl : checkPath l = .ok ()) (hm : checkPath m = .ok ())
    (h : t.follow last maxLinks [] l = t.follow last maxLinks [] m) :
    t.find last l = t.find last m := by
  rw [find, find, hl, hm, h]

/-- An entry is found where the names above its own lead. The last name needs no links, so it does
not matter how many were followed before it. -/
theorem find_concat_of_follow {above c : Location} {x : String} (hx : Path.IsName x)
    (hf : t.follow true maxLinks [] above = .ok c) (hp : checkPath (above ++ [x]) = .ok ())
    (hc : checkPath (c ++ [x]) = .ok ()) :
    t.find false (c ++ [x]) = t.find false (above ++ [x]) := by
  obtain ⟨k, -, hk⟩ : ∃ k ≤ maxLinks,
      t.follow false maxLinks [] (above ++ [x]) = t.follow false k c [x] :=
    follow_append_of_ok (by simp) hf
  have hstart : t.follow false maxLinks [] (c ++ [x]) = t.follow false maxLinks ([] ++ c) [x] :=
    follow_of_canonical (canonical_of_follow (canonical_nil t) hf) [x]
  exact find_congr_follow hc hp (hstart.trans ((follow_kept hx maxLinks k).trans hk.symm))

/-- Where nothing is found, the way is refused, or it ends where nothing stands. -/
theorem follow_of_find_error (hp : checkPath l = .ok ()) (h : t.find last l = .error cause) :
    t.follow last maxLinks [] l = .error cause ∨
      cause = .noEntry ∧ ∃ d, t.follow last maxLinks [] l = .ok d ∧ t.entry? d = none := by
  rw [find, hp, ok_bind] at h
  cases hf : t.follow last maxLinks [] l with
  | error e =>
    rw [hf, error_bind] at h
    exact .inl (congrArg _ (Except.error.inj h))
  | ok d =>
    rw [hf, ok_bind] at h
    split at h
    · cases h
    · next hd => exact .inr ⟨(Except.error.inj h).symm, d, rfl, hd⟩

end FileTree

namespace Sandbox

/-! ## Names that lead nowhere -/

theorem existingPrefix_of_noEntry (hnul : ∀ x ∈ names, x.contains '\x00' = false)
    (h : t.follow true maxLinks [] names = .error .noEntry) :
    ∃ l, existingPrefix t names.reverse = .ok l := by
  induction names using List.reverseRecOn with
  | nil => exact ⟨[], rfl⟩
  | append_singleton above x ih =>
    have habove : ∀ y ∈ above, y.contains '\x00' = false :=
      fun y hy => hnul y (List.mem_append_left _ hy)
    rw [List.reverse_concat, existingPrefix, List.reverse_cons, List.reverse_reverse,
      canonical_of_nulFree hnul, h]
    obtain ⟨l, hl⟩ : ∃ l, existingPrefix t above.reverse = .ok l := by
      cases hf : t.follow true maxLinks [] above with
      | ok d => exact ⟨d, existingPrefix_of_canonical ((canonical_of_nulFree habove).trans hf)⟩
      | error e =>
        obtain rfl : e = .noEntry :=
          Except.error.inj ((follow_append_of_error (by simp) hf).symm.trans h)
        exact ih habove hf
    exact ⟨l ++ [x], by rw [hl]; rfl⟩

theorem existingPrefix_of_refused (hnul : ∀ x ∈ names, x.contains '\x00' = false)
    (h : t.follow true maxLinks [] names = .error cause) (hne : cause ≠ .noEntry) :
    existingPrefix t names.reverse = .error cause := by
  have hcanonical : t.canonical names = .error cause := (canonical_of_nulFree hnul).trans h
  cases names using List.reverseRecOn with
  | nil => cases hcanonical
  | append_singleton above x =>
    rw [List.reverse_concat, existingPrefix, List.reverse_cons, List.reverse_reverse, hcanonical]
    cases cause <;> first | exact absurd rfl hne | rfl

/-- Nothing is found at a place of names that lead nowhere, nor behind it. -/
theorem find_of_existingPrefix (h : t.follow true maxLinks [] names = .error .noEntry)
    (hl : existingPrefix t names.reverse = .ok l) {more : Location} (hmore : more ≠ [] ∨ last)
    (hp : checkPath (l ++ more) = .ok ()) : t.find last (l ++ more) = .error .noEntry := by
  rcases existingPrefix_eq_ok hl with hcanonical | ⟨c, x, m, rfl, hc, hx, -⟩
  · rw [List.reverse_reverse] at hcanonical
    cases (canonical_eq_ok hcanonical).symm.trans h
  · have hbehind : c ++ x :: m ++ more = c ++ x :: (m ++ more) := by simp
    rw [hbehind] at hp ⊢
    by_cases hempty : m ++ more = []
    · -- the missing name is the last one
      obtain ⟨-, rfl⟩ := List.append_eq_nil_iff.mp hempty
      obtain rfl : last = true := hmore.resolve_left fun hno => hno rfl
      have hstart : t.follow true maxLinks [] (c ++ [x]) = t.follow true maxLinks ([] ++ c) [x] :=
        follow_of_canonical hc [x]
      rw [hempty] at hp ⊢
      exact find_of_follow_error hp (hstart.trans hx)
    · exact find_of_missing hc hx hempty hp

/-- Names below the root that lead nowhere are refused, or have a place where nothing is found. -/
theorem resolveNames_of_refused (shown : String) (hw : Location.isWithin names s.root)
    (hnul : ∀ x ∈ names, x.contains '\x00' = false)
    (h : t.follow true maxLinks [] names = .error cause) :
    cause ≠ .noEntry ∧ s.resolveNames t shown names = .error (.ofSystem shown cause) ∨
      s.resolveNames t shown names = .error (.pathEscape shown) ∨
      cause = .noEntry ∧ ∃ p, s.resolveNames t shown names = .ok p ∧
        ∀ (last : Bool) (more : Location), more ≠ [] ∨ last →
          checkPath (p.absolute ++ more) = .ok () →
            t.find last (p.absolute ++ more) = .error .noEntry := by
  by_cases hcause : cause = .noEntry
  · subst hcause
    obtain ⟨l, hl⟩ := existingPrefix_of_noEntry hnul h
    rcases resolveNames_of_found shown hw hl with ⟨relative, -, hok⟩ | hescape
    · exact .inr (.inr ⟨rfl, _, hok, fun last more hmore hp =>
        find_of_existingPrefix h hl hmore hp⟩)
    · exact .inr (.inl hescape)
  · refine .inl ⟨hcause, ?_⟩
    rw [resolveNames, hw, existingPrefix_of_refused hnul h hcause]
    rfl

/-! ## Paths that name nothing -/

/-- Where a request looks for what its path names. A link at the end is followed or kept. -/
def look (s : Sandbox) (t : FileTree) (last : Bool) (path : String) :
    Except WorkspaceError Place :=
  if last then s.resolve t path else s.resolveEntry t path

/-- A path that does not escape and names nothing, be it an object to which it leads or an entry.
It has no NUL, nothing on its way is too long, and it does not lead through too many links. -/
structure Missing (s : Sandbox) (t : FileTree) (last : Bool) (path : String) (names : Location) :
    Prop where
  located : Path.locate s.root path = some names
  inside : ∀ shown, s.look t last path ≠ .error (.pathEscape shown)
  missing : ∀ e, t.find last names ≠ .ok e
  nulFree : ∀ x ∈ names, x.contains '\x00' = false
  short : t.find last names ≠ .error .nameTooLong
  unlooped : t.find last names ≠ .error .tooManyLinks
  placed : ∀ p, s.look t last path = .ok p → checkPath p.absolute = .ok ()

theorem Missing.checked (h : s.Missing t last path names) : checkPath names = .ok () := by
  unfold checkPath
  have hany : names.any (·.contains '\x00') = false := by
    rw [List.any_eq_false]
    intro x hx
    simp [h.nulFree x hx]
  rw [hany, if_neg (by simp)]
  split_ifs with hlong
  · refine absurd ?_ h.short
    rw [find, checkPath, hany, if_neg (by simp), if_pos hlong, error_bind]
  · rfl

/-- What is in the way: a name that is missing, or what is no directory. -/
theorem Missing.exists_cause (h : s.Missing t last path names) : ∃ cause,
    t.find last names = .error cause ∧ (cause = .noEntry ∨ cause = .notDirectory) ∧
      (cause = .notDirectory ↔ t.Obstructed last [] names) := by
  cases hfind : t.find last names with
  | ok e => exact absurd hfind (h.missing e)
  | error cause =>
    refine ⟨cause, rfl, ?_⟩
    have hshort := h.short
    have hunlooped := h.unlooped
    rw [hfind] at hshort hunlooped
    rcases follow_of_find_error h.checked hfind with hf | ⟨rfl, d, hf, -⟩
    · have hiff : _ ↔ t.Obstructed last [] names := follow_eq_notDirectory_iff fun hno =>
        hunlooped (congrArg _ (Except.error.inj (hf.symm.trans hno)))
      rw [hf, Except.error.injEq] at hiff
      refine ⟨?_, hiff⟩
      rcases refused_of_follow hf with rfl | rfl | rfl | rfl
      · exact .inl rfl
      · exact .inr rfl
      · exact absurd rfl hshort
      · exact absurd rfl hunlooped
    · refine ⟨.inl rfl, by simp, fun hobstructed => ?_⟩
      rcases hobstructed.follow maxLinks with hno | hno <;> cases hf.symm.trans hno

theorem Missing.within (h : s.Missing t last path names) : Location.isWithin names s.root := by
  have hinside := h.inside path
  by_contra hout
  cases last with
  | true =>
    rw [look, if_pos rfl, resolve_of_locate h.located] at hinside
    exact hinside (if_pos (by simpa using hout))
  | false => exact hinside (by simp [look, resolveEntry, h.located, hout])

theorem Missing.resolve_cases (h : s.Missing t true path names)
    (hcause : t.find true names = .error cause) :
    s.resolve t path = .error (.ofSystem path cause) ∨
      ∃ p, s.resolve t path = .ok p ∧ t.find true p.absolute = .error cause := by
  have hf : t.follow true maxLinks [] names = .error cause := by
    refine (follow_of_find_error h.checked hcause).resolve_right ?_
    rintro ⟨-, d, hd, hnone⟩
    obtain ⟨e, he, -⟩ := (canonical_of_follow (canonical_nil t) hd).here
    cases he.symm.trans hnone
  have hinside := h.inside
  have hplaced := h.placed
  rw [look, if_pos rfl, resolve_of_locate h.located] at hinside hplaced
  rw [resolve_of_locate h.located]
  rcases resolveNames_of_refused path h.within h.nulFree hf with
    ⟨-, hrefused⟩ | hescape | ⟨rfl, p, hok, hnone⟩
  · exact .inl hrefused
  · exact absurd hescape (hinside path)
  · have hfind := hnone true [] (.inr rfl)
    rw [List.append_nil] at hfind
    exact .inr ⟨p, hok, hfind (hplaced p hok)⟩

/-- The root is found, so names that lead to no entry end below it. -/
theorem Missing.exists_last (ha : s.Anchored t) (h : s.Missing t last path names) :
    names ≠ s.root ∧ ∃ (above : Location) (x : String), names = above ++ [x] ∧ Path.IsName x := by
  have hroot : names ≠ s.root := by
    rintro rfl
    exact h.missing _ (find_eq_ok.mpr
      ⟨h.checked, _, follow_canonical ha.canonical, isDirectory_iff.mp ha.directory⟩)
  have hnil : names ≠ [] := by
    rintro rfl
    have hpre : s.root <+: [] :=
      List.isPrefixOf_iff_prefix.mp (by simpa [Location.isWithin] using h.within)
    exact hroot (List.prefix_nil.mp hpre).symm
  obtain ⟨above, x, rfl⟩ : ∃ (above : Location) (x : String), names = above ++ [x] :=
    ⟨_, _, (List.dropLast_append_getLast hnil).symm⟩
  exact ⟨hroot, above, x, rfl,
    Path.isName_of_mem_locate ha.canonical.isName h.located x (by simp)⟩

/-- The way to an entry ends above its name, or at it. -/
theorem Missing.resolveEntry_cases (ha : s.Anchored t) (h : s.Missing t false path names)
    (hcause : t.find false names = .error cause) :
    (∃ shown, s.resolveEntry t path = .error (.ofSystem shown cause)) ∨
      ∃ p, s.resolveEntry t path = .ok p ∧ p.relative ≠ [] ∧
        t.find false p.absolute = .error cause := by
  obtain ⟨hroot, above, x, rfl, hx⟩ := h.exists_last ha
  have hinside := h.inside
  have hplaced := h.placed
  rw [look, if_neg (by simp), resolveEntry_of_concat h.located h.within hroot] at hinside hplaced
  rw [resolveEntry_of_concat h.located h.within hroot]
  have hnul : ∀ y ∈ above, y.contains '\x00' = false :=
    fun y hy => h.nulFree y (List.mem_append_left _ hy)
  have hwithin : Location.isWithin above s.root := by
    by_contra hout
    refine hinside above.absoluteText ?_
    rw [resolveNames, if_pos (by simpa using hout)]
    rfl
  have hescaped : s.resolveNames t above.absoluteText above ≠
      .error (.pathEscape above.absoluteText) := by
    intro hescape
    exact hinside above.absoluteText (by rw [hescape]; rfl)
  cases hf : t.follow true maxLinks [] above with
  | ok c =>
    have hprefix := existingPrefix_of_canonical ((canonical_of_nulFree hnul).trans hf)
    rcases resolveNames_of_found above.absoluteText hwithin hprefix with
      ⟨relative, -, hok⟩ | hescape
    · rw [hok] at hplaced ⊢
      exact .inr ⟨_, rfl, by simp,
        (find_concat_of_follow hx hf h.checked (hplaced _ rfl)).trans hcause⟩
    · exact absurd hescape hescaped
  | error e =>
    have hrefused : t.follow false maxLinks [] (above ++ [x]) = .error e :=
      follow_append_of_error (List.cons_ne_nil x []) hf
    have hfind := find_of_follow_error h.checked hrefused
    obtain rfl : e = cause := Except.error.inj (hfind.symm.trans hcause)
    rcases resolveNames_of_refused above.absoluteText hwithin hnul hf with
      ⟨-, hrefused⟩ | hescape | ⟨rfl, p, hok, hnone⟩
    · exact .inl ⟨_, by rw [hrefused]; rfl⟩
    · exact absurd hescape hescaped
    · rw [hok] at hplaced ⊢
      exact .inr ⟨_, rfl, by simp, hnone false [x] (.inl (by simp)) (hplaced _ rfl)⟩

end Sandbox

end Worksite
