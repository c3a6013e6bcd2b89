import Worksite.Proofs.FileTree.Clear
import Worksite.Sandbox

/-!
What the sandbox resolves: a place is below the root, and no part of it leads anywhere else. Its
missing names, which are taken as they are written, are names.
-/
namespace Worksite.Sandbox

open FileTree

variable {s : Sandbox} {t : FileTree} {l : Location} {path shown : String}
  {names : List String} {p : Place}

/-- The root of a sandbox is in place: a directory that links do not lead to. -/
structure Anchored (s : Sandbox) (t : FileTree) : Prop where
  canonical : t.Canonical s.root
  directory : t.isDirectory s.root

/-- A location that was resolved: it is canonical, or its last name stands behind a part that is. -/
structure Reached (t : FileTree) (l : Location) : Prop where
  names : ∀ s ∈ l, Path.IsName s
  straight : t.Straight l
  nulFree : t.Canonical l ∨ ∀ s, l.getLast? = some s → s.contains '\x00' = false

theorem canonical_eq_ok (h : t.canonical names = .ok l) :
    t.follow true maxLinks [] names = .ok l := by
  unfold FileTree.canonical at h
  split_ifs at h
  exact h

theorem contains_nul_of_canonical {e : SystemError} (h : t.canonical names = .error e)
    (he : e ≠ .nul) : (∀ s ∈ names, s.contains '\x00' = false) ∧
      t.follow true maxLinks [] names = .error e := by
  unfold FileTree.canonical at h
  split_ifs at h with hnul
  · exact absurd (Except.error.inj h).symm he
  · refine ⟨fun s hs => ?_, h⟩
    by_contra hc
    exact hnul (List.any_eq_true.mpr ⟨s, hs, by simpa using hc⟩)

/-- The part that exists, with every link followed, and the names behind it. -/
theorem existingPrefix_eq_ok (h : existingPrefix t names = .ok l) :
    t.canonical names.reverse = .ok l ∨ ∃ c s m, l = c ++ s :: m ∧ t.Canonical c ∧
      t.follow true maxLinks c [s] = .error .noEntry ∧
      ∀ x ∈ s :: m, x ∈ names ∧ x.contains '\x00' = false := by
  induction names generalizing l with
  | nil => exact .inl h
  | cons name above ih =>
    rw [existingPrefix] at h
    split at h
    · next hc => exact .inl (Except.ok.inj h ▸ hc)
    · next hc =>
      obtain ⟨hnul, hf⟩ := contains_nul_of_canonical hc (by simp)
      cases hp : existingPrefix t above with
      | error e => simp [hp, Except.map] at h
      | ok l' =>
        rw [hp] at h
        obtain rfl : l' ++ [name] = l := Except.ok.inj h
        have hname : name ∈ name :: above ∧ name.contains '\x00' = false :=
          ⟨List.mem_cons_self, hnul name (by simp)⟩
        right
        -- the part above exists as a whole, or its own first missing name is the first one
        rcases ih hp with hl | ⟨c, x, m, rfl, hcan, hx, hm⟩
        · -- the part above exists as a whole
          have hab := canonical_eq_ok hl
          rw [List.reverse_cons] at hf
          obtain ⟨k, hk, hk'⟩ : ∃ k ≤ maxLinks,
              t.follow true maxLinks [] (above.reverse ++ [name]) = t.follow true k l' [name] :=
            follow_append_of_ok (by simp) hab
          rw [hk'] at hf
          refine ⟨l', name, [], rfl, canonical_of_follow (canonical_nil t) hab, ?_, ?_⟩
          · rw [follow_mono hk (by simp [hf]), hf]
          · simpa using hname
        · refine ⟨c, x, m ++ [name], by simp, hcan, hx, fun y hy => ?_⟩
          rw [← List.cons_append, List.mem_append, List.mem_singleton] at hy
          rcases hy with hy | rfl
          · exact ⟨List.mem_cons_of_mem _ (hm y hy).1, (hm y hy).2⟩
          · exact hname
    · simp at h

theorem reached_of_existingPrefix (hn : ∀ s ∈ names, Path.IsName s)
    (h : existingPrefix t names = .ok l) : Reached t l := by
  rcases existingPrefix_eq_ok h with h | ⟨c, s, m, rfl, hc, hs, hm⟩
  · have hcan := canonical_of_follow (canonical_nil t) (canonical_eq_ok h)
    exact ⟨hcan.isName, hcan.straight, .inl hcan⟩
  · refine ⟨fun x hx => ?_, straight_of_missing hc hs, .inr fun x hx => (hm x ?_).2⟩
    · rcases List.mem_append.mp hx with hx | hx
      · exact hc.isName x hx
      · exact hn x (hm x hx).1
    · rw [List.getLast?_append_of_ne_nil _ (by simp)] at hx
      exact List.mem_of_getLast? hx

theorem resolveNames_eq_ok (hn : ∀ s ∈ names, Path.IsName s)
    (h : s.resolveNames t shown names = .ok p) :
    p.absolute = s.root ++ p.relative ∧ Reached t p.absolute := by
  unfold resolveNames at h
  split_ifs at h
  split at h
  · simp at h
  · next l hl =>
    split at h
    · next relative hr =>
      obtain rfl := Except.ok.inj h
      exact ⟨Location.relativeTo?_eq_some.mp hr,
        reached_of_existingPrefix (fun s hs => hn s (List.mem_reverse.mp hs)) hl⟩
    · simp at h

theorem resolve_of_locate (h : Path.locate s.root path = some names) :
    s.resolve t path = s.resolveNames t path names := by
  rw [resolve, h]

theorem resolve_eq_ok (ha : s.Anchored t) (h : s.resolve t path = .ok p) :
    p.absolute = s.root ++ p.relative ∧ Reached t p.absolute := by
  unfold resolve at h
  split at h
  · simp at h
  · next names hl => exact resolveNames_eq_ok (Path.isName_of_mem_locate ha.canonical.isName hl) h

/-- The place of an entry: the part above it leads nowhere else. -/
theorem resolveEntry_eq_ok (ha : s.Anchored t) (h : s.resolveEntry t path = .ok p) :
    p.absolute = s.root ++ p.relative ∧ (∀ s ∈ p.absolute, Path.IsName s) ∧
      t.Straight p.absolute.dropLast := by
  unfold resolveEntry at h
  split at h
  · simp at h
  · next names hl =>
    have hn := Path.isName_of_mem_locate ha.canonical.isName hl
    split_ifs at h with hw hroot
    · -- the root itself is resolved like any path
      obtain ⟨hp, hr⟩ := resolveNames_eq_ok hn h
      exact ⟨hp, hr.names, hr.straight.of_prefix (List.dropLast_prefix _)⟩
    · -- below it the last name is kept as it is
      obtain ⟨above, hab, h⟩ := bind_eq_ok.mp h
      obtain ⟨hp, hr⟩ :=
        resolveNames_eq_ok (fun s hs => hn s (List.dropLast_subset names hs)) hab
      have hroot' : s.root <+: names :=
        List.isPrefixOf_iff_prefix.mp (by simpa [Location.isWithin] using hw)
      have hne : names ≠ [] := by
        rintro rfl
        exact hroot (List.prefix_nil.mp hroot').symm
      obtain rfl := Except.ok.inj h
      rw [List.getLast?_eq_getLast_of_ne_nil hne]
      refine ⟨by simp [hp], fun x hx => ?_, by simpa using hr.straight⟩
      rcases List.mem_append.mp hx with hx | hx
      · exact hr.names x hx
      · rw [Option.toList_some, List.mem_singleton] at hx
        exact hn x (hx ▸ List.getLast_mem hne)

theorem ofRoot_eq_ok {here : Location} {root : String} (h : ofRoot t here root = .ok s) :
    t.canonicalText here root = .ok s.root ∧ t.isDirectory s.root := by
  unfold ofRoot at h
  split at h
  · simp at h
  · next l hl =>
    split_ifs at h with hd
    obtain rfl := Except.ok.inj h
    exact ⟨hl, hd⟩

/-- A root that was found is in place. -/
theorem anchored_of_ofRoot {here : Location} {root : String} (hh : t.Canonical here)
    (h : ofRoot t here root = .ok s) : s.Anchored t := by
  obtain ⟨hl, hd⟩ := ofRoot_eq_ok h
  exact ⟨canonical_of_follow (canonical_start root hh) (follow_of_canonicalText hl), hd⟩

/-! ## Names that are resolved to themselves -/

variable {q : Location}

theorem canonical_of_nulFree (hnul : ∀ x ∈ l, x.contains '\x00' = false) :
    t.canonical l = t.follow true maxLinks [] l := by
  have hany : l.any (·.contains '\x00') = false := by
    rw [List.any_eq_false]
    intro x hx
    simp only [hnul x hx, Bool.false_eq_true, not_false_eq_true]
  rw [FileTree.canonical, hany]
  rfl

/-- Where nothing but directories is in the way, names are resolved to themselves. -/
theorem existingPrefix_of_clear (hn : ∀ x ∈ l, Path.IsName x ∧ x.utf8ByteSize ≤ maxName)
    (hnul : ∀ x ∈ l, x.contains '\x00' = false) (h : t.Clear l) :
    existingPrefix t l.reverse = .ok l := by
  induction l using List.reverseRecOn with
  | nil => rfl
  | append_singleton l name ih =>
    have hpre : l <+: l ++ [name] := List.prefix_append _ _
    rw [List.reverse_concat, existingPrefix, List.reverse_cons, List.reverse_reverse,
      canonical_of_nulFree hnul]
    rcases follow_of_clear true maxLinks hn h with ⟨hf, -⟩ | hf
    · rw [hf]
    · rw [hf, ih (fun x hx => hn x (hpre.subset hx)) (fun x hx => hnul x (hpre.subset hx))
        (h.of_prefix hpre)]
      rfl

/-- A name below a way that ends before it is taken as it is written. -/
theorem existingPrefix_concat_of_missing {x : String}
    (hf : t.follow true maxLinks [] l = .error .noEntry)
    (hnul : ∀ y ∈ l ++ [x], y.contains '\x00' = false) :
    existingPrefix t (l ++ [x]).reverse = (existingPrefix t l.reverse).map (· ++ [x]) := by
  rw [List.reverse_concat, existingPrefix, List.reverse_cons, List.reverse_reverse,
    canonical_of_nulFree hnul, follow_append_of_error (by simp) hf]

theorem resolveNames_of_existingPrefix (shown : String)
    (h : existingPrefix t (s.root ++ l).reverse = .ok (s.root ++ q)) :
    s.resolveNames t shown (s.root ++ l) = .ok { absolute := s.root ++ q, relative := q } := by
  have hwithin : Location.isWithin (s.root ++ l) s.root = true := by
    simp [Location.isWithin]
  have hrelative : Location.relativeTo? (s.root ++ q) s.root = some q :=
    Location.relativeTo?_eq_some.mpr rfl
  simp only [resolveNames, hwithin, h, hrelative, Bool.not_true, Bool.false_eq_true, ↓reduceIte]

/-- A request names what is missing by a name below it. -/
theorem resolve_below_missing {x : String}
    (hn : ∀ y ∈ s.root ++ q, Path.IsName y ∧ y.utf8ByteSize ≤ maxName) (hx : Path.IsName x)
    (hslash : ∀ y ∈ q ++ [x], '/' ∉ y.toList)
    (hnul : ∀ y ∈ s.root ++ (q ++ [x]), y.contains '\x00' = false) (h : t.Clear (s.root ++ q))
    (hmissing : t.entry? (s.root ++ q) = none) :
    s.resolve t (Location.relativeText (q ++ [x])) =
      .ok { absolute := s.root ++ (q ++ [x]), relative := q ++ [x] } := by
  have hl : Path.locate s.root (Location.relativeText (q ++ [x])) =
      some (s.root ++ (q ++ [x])) := by
    refine Path.locate_relativeText s.root (by simp) fun y hy => ⟨?_, hslash y hy⟩
    rcases List.mem_append.mp hy with hy | hy
    · exact (hn y (List.mem_append_right _ hy)).1
    · exact List.mem_singleton.mp hy ▸ hx
  have hf : t.follow true maxLinks [] (s.root ++ q) = .error .noEntry := by
    rcases follow_of_clear true maxLinks hn h with ⟨-, hd⟩ | hf
    · simp [isDirectory_iff, hmissing] at hd
    · exact hf
  have hprefix : existingPrefix t (s.root ++ (q ++ [x])).reverse = .ok (s.root ++ (q ++ [x])) := by
    rw [← List.append_assoc] at hnul ⊢
    rw [existingPrefix_concat_of_missing hf hnul,
      existingPrefix_of_clear hn (fun y hy => hnul y (List.mem_append_left _ hy)) h]
    rfl
  simp only [resolve, hl]
  exact resolveNames_of_existingPrefix _ hprefix

theorem resolveEntry_of_clear {d : Location} {x : String} (hslash : ∀ y ∈ d ++ [x], '/' ∉ y.toList)
    (hn : ∀ y ∈ s.root ++ (d ++ [x]), Path.IsName y ∧ y.utf8ByteSize ≤ maxName)
    (hnul : ∀ y ∈ s.root ++ d, y.contains '\x00' = false) (h : t.Clear (s.root ++ d)) :
    s.resolveEntry t (Location.relativeText (d ++ [x])) =
      .ok { absolute := s.root ++ (d ++ [x]), relative := d ++ [x] } := by
  have hl := Path.locate_relativeText s.root (l := d ++ [x]) (by simp) fun y hy =>
    ⟨(hn y (List.mem_append_right _ hy)).1, hslash y hy⟩
  have hprefix := existingPrefix_of_clear (l := s.root ++ d) (fun y hy => hn y (by
    rw [← List.append_assoc]
    exact List.mem_append_left _ hy)) hnul h
  have habove := resolveNames_of_existingPrefix (Location.absoluteText (s.root ++ d)) hprefix
  have hwithin : Location.isWithin (s.root ++ (d ++ [x])) s.root = true := by
    simp [Location.isWithin]
  have hne : s.root ++ (d ++ [x]) ≠ s.root := by simp
  simp only [resolveEntry, hl, hwithin, hne, Bool.not_true, Bool.false_eq_true, ↓reduceIte]
  rw [← List.append_assoc, List.dropLast_concat, Location.parent, List.dropLast_concat, habove]
  simp

end Worksite.Sandbox
