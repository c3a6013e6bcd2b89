import Worksite.Proofs.FileTree.Trail
import Worksite.Proofs.Sandbox.Resolve

/-!
Links at a resolved place. The part of a path that exists is resolved without links, and below a
missing name there are none. A name is missing also when it is that of a link to nothing: such a
link is taken as it is written, and it is the only one that can stand at a resolved place.
-/
namespace Worksite

open FileTree

variable {s : Sandbox} {t : FileTree} {l l' d q : Location} {path x target : String} {p : Place}
  {last : Bool} {n : Nat} {names rest : List String}

namespace FileTree

/-- A link that leads to nothing. -/
structure Dangling (t : FileTree) (l : Location) : Prop where
  link : ∃ target, t.entry? l = some (.link target)
  nothing : t.follow true maxLinks [] l = .error .noEntry

/-- A link that leads to something. -/
structure Leading (t : FileTree) (l : Location) : Prop where
  link : ∃ target, t.entry? l = some (.link target)
  something : ∃ d, t.follow true maxLinks [] l = .ok d

/-! ## Names that are walked -/

theorem forall_mem_course {P : String → Prop} (hl : ∀ s ∈ l, P s) (hn : ∀ s ∈ names, P s) :
    (∀ l', t.course last l names = .arrived l' → ∀ s ∈ l', P s) ∧
      ∀ d target rest, t.course last l names = .led d target rest →
        (∀ s ∈ d, P s) ∧ ∀ s ∈ rest, P s := by
  fun_induction course t last l names with
  | case1 l =>
    refine ⟨fun l' h => ?_, by simp⟩
    exact Course.arrived.inj h ▸ hl
  | case2 => simp
  | case3 l s rest _ _ ih => exact ih hl fun s hs => hn s (List.mem_cons_of_mem _ hs)
  | case4 l rest _ _ ih =>
    exact ih (fun s hs => hl s (List.dropLast_subset l hs))
      fun s hs => hn s (List.mem_cons_of_mem _ hs)
  | case5 => simp
  | case6 => simp
  | case7 l s rest =>
    refine ⟨fun l' h => ?_, by simp⟩
    have hconcat : ∀ y ∈ l ++ [s], P y := by
      simpa [or_imp, forall_and] using ⟨hl, hn s List.mem_cons_self⟩
    exact Course.arrived.inj h ▸ hconcat
  | case8 l s rest =>
    refine ⟨by simp, fun d target rest' h => ?_⟩
    obtain ⟨rfl, -, rfl⟩ := Course.led.inj h
    exact ⟨hl, fun s hs => hn s (List.mem_cons_of_mem _ hs)⟩
  | case9 l s rest _ _ _ _ e _ _ ih =>
    have hconcat : ∀ y ∈ l ++ [s], P y := by
      simpa [or_imp, forall_and] using ⟨hl, hn s List.mem_cons_self⟩
    exact ih hconcat fun s hs => hn s (List.mem_cons_of_mem _ hs)

/-- What holds of the segments of every path holds of the names that links lead to. -/
theorem forall_mem_follow {P : String → Prop} (hP : ∀ path, ∀ s ∈ Path.segments path, P s)
    (hl : ∀ s ∈ l, P s) (hn : ∀ s ∈ names, P s) (h : t.follow last n l names = .ok l') :
    ∀ s ∈ l', P s := by
  induction n generalizing l names with
  | zero =>
    rw [follow] at h
    split at h
    · next hc => exact Except.ok.inj h ▸ (forall_mem_course hl hn).1 _ hc
    · simp at h
    · simp at h
  | succ n ih =>
    rw [follow] at h
    split at h
    · next hc => exact Except.ok.inj h ▸ (forall_mem_course hl hn).1 _ hc
    · simp at h
    · next d target rest hc =>
      obtain ⟨hd, hrest⟩ := (forall_mem_course hl hn).2 _ _ _ hc
      refine ih ?_ ?_ h
      · split_ifs
        · simp
        · exact hd
      · simpa [or_imp, forall_and] using ⟨hP target, hrest⟩

/-! ## Links behind a missing name -/

/-- A name that leads to nothing from a directory has no entry, or is that of a link. -/
theorem not_isDirectory_of_follow (hs : Path.IsName x)
    (h : t.follow true n d [x] = .error .noEntry) : ¬ t.isDirectory (d ++ [x]) := by
  intro hd
  rw [isDirectory_iff] at hd
  rw [follow, course] at h
  by_cases hdir : t.isDirectory d
  · by_cases hlen : maxName < x.utf8ByteSize
    · simp [hdir, hs.1, hs.2.1, hs.2.2, hlen] at h
    · simp [hdir, hs.1, hs.2.1, hs.2.2, hlen, hd, course] at h
  · simp [hdir] at h

/-- A link on the way to a missing name leads to nothing. -/
theorem dangling_of_missing (hc : t.Closed) (h : t.Canonical d) (hs : Path.IsName x)
    (hm : t.follow true maxLinks d [x] = .error .noEntry) (hq : q <+: d ++ x :: rest)
    (hl : t.entry? q = some (.link target)) : t.Dangling q := by
  rcases List.prefix_or_prefix_of_prefix hq (List.prefix_append d _) with hqd | ⟨m, rfl⟩
  · exact absurd hl (h.linkFree q hqd target)
  · cases m with
    | nil =>
      rw [List.append_nil] at hl
      exact absurd hl (h.linkFree d (List.prefix_refl d) target)
    | cons y m =>
      obtain ⟨rfl, -⟩ := List.cons_prefix_cons.mp ((List.prefix_append_right_inj d).mp hq)
      cases m with
      | nil =>
        refine ⟨⟨target, hl⟩, ?_⟩
        have hf : t.follow true maxLinks [] (d ++ [y]) = t.follow true maxLinks ([] ++ d) [y] :=
          follow_of_canonical h [y]
        rw [hf, List.nil_append, hm]
      | cons z m =>
        -- nothing stands below what is no directory
        have habsent := hc.absent_below (not_isDirectory_of_follow hs hm)
          (x := d ++ y :: z :: m) ⟨z :: m, by simp⟩ (by simp)
        simp [habsent] at hl

end FileTree

namespace Sandbox

/-- A root that was found is spelled with names. -/
theorem isNormal_of_ofRoot {here : Location} {root : String} (hh : ∀ x ∈ here, Path.IsNormal x)
    (hc : t.Canonical here) (h : ofRoot t here root = .ok s) : ∀ x ∈ s.root, Path.IsNormal x := by
  intro x hx
  refine ⟨(anchored_of_ofRoot hc h).canonical.isName x hx, ?_⟩
  refine forall_mem_follow (fun _ _ => Path.slash_notMem_of_mem_segments) ?_ ?_
    (follow_of_canonicalText (ofRoot_eq_ok h).1) x hx
  · split_ifs
    · simp
    · exact fun y hy => (hh y hy).2
  · exact fun _ => Path.slash_notMem_of_mem_segments

theorem forall_mem_existingPrefix {P : String → Prop}
    (hP : ∀ path, ∀ s ∈ Path.segments path, P s) (hn : ∀ x ∈ names, P x)
    (h : existingPrefix t names = .ok l) : ∀ x ∈ l, P x := by
  induction names generalizing l with
  | nil => exact forall_mem_follow hP (by simp) (by simp) (canonical_eq_ok h)
  | cons name above ih =>
    rw [existingPrefix] at h
    split at h
    · next l' hl =>
      have hrev : ∀ x ∈ (name :: above).reverse, P x := fun x hx => hn x (List.mem_reverse.mp hx)
      exact Except.ok.inj h ▸ forall_mem_follow hP (by simp) hrev (canonical_eq_ok hl)
    · cases hp : existingPrefix t above with
      | error e => simp [hp, Except.map] at h
      | ok l' =>
        rw [hp] at h
        obtain rfl : l' ++ [name] = l := Except.ok.inj h
        have habove := ih (fun x hx => hn x (List.mem_cons_of_mem _ hx)) hp
        simpa [or_imp, forall_and] using ⟨habove, hn name List.mem_cons_self⟩
    · simp at h

theorem existingPrefix_of_resolveNames {shown : String}
    (h : s.resolveNames t shown names = .ok p) :
    existingPrefix t names.reverse = .ok p.absolute ∧ p.absolute = s.root ++ p.relative := by
  unfold resolveNames at h
  split_ifs at h
  split at h
  · simp at h
  · next l hp =>
    split at h
    · next relative hr =>
      obtain rfl := Except.ok.inj h
      exact ⟨hp, Location.relativeTo?_eq_some.mp hr⟩
    · simp at h

theorem existingPrefix_of_resolve (h : s.resolve t path = .ok p) :
    ∃ names, Path.locate s.root path = some names ∧
      existingPrefix t names.reverse = .ok p.absolute ∧ p.absolute = s.root ++ p.relative := by
  unfold resolve at h
  split at h
  · simp at h
  · next names hl => exact ⟨names, hl, existingPrefix_of_resolveNames h⟩

/-- Where no link on the way leads to anything, names are resolved to themselves. -/
theorem existingPrefix_eq_self (hn : ∀ x ∈ names, Path.IsName x)
    (hlead : ∀ q, q <+: names → ¬ t.Leading q) (h : existingPrefix t names.reverse = .ok l) :
    l = names := by
  induction names using List.reverseRecOn generalizing l with
  | nil => exact (Except.ok.inj h).symm
  | append_singleton names x ih =>
    rw [List.reverse_concat, existingPrefix, List.reverse_cons, List.reverse_reverse] at h
    split at h
    · next l' hl =>
      -- a way that is followed to its end is followed to each part of it
      have hfollow := canonical_eq_ok hl
      have hfree : t.LinkFree (names ++ [x]) := by
        intro q hq target hlink
        refine hlead q hq ⟨⟨target, hlink⟩, ?_⟩
        obtain ⟨m, hm⟩ := hq
        cases hf : t.follow true maxLinks [] q with
        | ok d => exact ⟨d, rfl⟩
        | error e =>
          by_cases hne : m = []
          · rw [← hm, hne, List.append_nil, hf] at hfollow
            simp at hfollow
          · rw [← hm, follow_append_of_error hne hf] at hfollow
            simp at hfollow
      have hself := spelled_of_isName hn
      have harrived := (follow_of_linkFree (t := t) (l := []) true maxLinks (not_mem_climb hn)
        (by rwa [hself])).1 l' hfollow
      rw [hself] at harrived
      exact (Except.ok.inj h).symm.trans harrived
    · have hpre : names <+: names ++ [x] := List.prefix_append _ _
      cases hp : existingPrefix t names.reverse with
      | error e => simp [hp, Except.map] at h
      | ok l' =>
        have habove := ih (fun y hy => hn y (hpre.subset hy))
          (fun q hq => hlead q (hq.trans hpre)) hp
        rw [hp] at h
        rw [← habove]
        exact (Except.ok.inj h).symm
    · simp at h

/-- A link at a resolved place leads to nothing. -/
theorem dangling_of_existingPrefix (hc : t.Closed) (hn : ∀ x ∈ names, Path.IsName x)
    (h : existingPrefix t names = .ok l) (hq : q <+: l)
    (hl : t.entry? q = some (.link target)) : t.Dangling q := by
  rcases existingPrefix_eq_ok h with h | ⟨c, x, m, rfl, hcan, hx, hm⟩
  · have hcan := canonical_of_follow (canonical_nil t) (canonical_eq_ok h)
    exact absurd hl (hcan.linkFree q hq target)
  · exact dangling_of_missing hc hcan (hn x (hm x List.mem_cons_self).1) hx hq hl

/-- A resolved place is spelled with names. -/
theorem isNormal_of_resolve (hr : ∀ x ∈ s.root, Path.IsNormal x) (h : s.resolve t path = .ok p) :
    ∀ x ∈ p.absolute, Path.IsNormal x := by
  obtain ⟨names, hl, hp, -⟩ := existingPrefix_of_resolve h
  have hnormal : ∀ x ∈ names.reverse, Path.IsNormal x := fun x hx =>
    Path.isNormal_of_mem_locate hr hl x (List.mem_reverse.mp hx)
  have hslash := forall_mem_existingPrefix (fun _ _ => Path.slash_notMem_of_mem_segments)
    (fun x hx => (hnormal x hx).2) hp
  have hname := (reached_of_existingPrefix (fun x hx => (hnormal x hx).1) hp).names
  exact fun x hx => ⟨hname x hx, hslash x hx⟩

theorem isNormal_relative_of_resolve (hr : ∀ x ∈ s.root, Path.IsNormal x)
    (h : s.resolve t path = .ok p) : ∀ x ∈ p.relative, Path.IsNormal x := by
  obtain ⟨-, -, -, hbelow⟩ := existingPrefix_of_resolve h
  exact fun x hx => isNormal_of_resolve hr h x (hbelow ▸ List.mem_append_right _ hx)

/-- A resolved place is spelled with names below the root, and no link stands at it or on the way
to it but one that leads to nothing. -/
theorem resolve_linkFree_iff (hr : ∀ x ∈ s.root, Path.IsNormal x) (hc : t.Closed)
    (h : s.resolve t path = .ok p) :
    p.absolute = s.root ++ p.relative ∧ (∀ x ∈ p.relative, Path.IsNormal x) ∧
      (t.LinkFree p.absolute ↔ ∀ q, q <+: p.absolute → ¬ t.Dangling q) := by
  obtain ⟨names, hl, hp, hbelow⟩ := existingPrefix_of_resolve h
  have hname : ∀ x ∈ names.reverse, Path.IsName x := fun x hx =>
    (Path.isNormal_of_mem_locate hr hl x (List.mem_reverse.mp hx)).1
  refine ⟨hbelow, isNormal_relative_of_resolve hr h, fun hfree q hq hd => ?_,
    fun hno q hq target hlink => ?_⟩
  · obtain ⟨target, hlink⟩ := hd.link
    exact hfree q hq target hlink
  · exact hno q hq (dangling_of_existingPrefix hc hname hp hq hlink)

/-- An alias of a directory, beside which a file is missing. -/
def aliased : FileTree where
  entries := [(["ws"], .directory), (["ws", "src"], .directory), (["ws", "alias"], .link "src")]
  distinct := by decide

theorem resolve_linkFree_aliased :
    Sandbox.resolve { root := ["ws"] } aliased "alias/new.py" =
        .ok { absolute := ["ws", "src", "new.py"], relative := ["src", "new.py"] } ∧
      aliased.LinkFree ["ws", "src", "new.py"] := by
  have hp : Sandbox.resolve { root := ["ws"] } aliased "alias/new.py" =
      .ok { absolute := ["ws", "src", "new.py"], relative := ["src", "new.py"] } := by
    have hl : Path.locate ["ws"] "alias/new.py" = some ["ws", "alias", "new.py"] := by decide
    rw [Sandbox.resolve_of_locate hl]
    cbv
  refine ⟨hp, (resolve_linkFree_iff (by decide) (by decide) hp).2.2.mpr fun q hq hd => ?_⟩
  obtain ⟨target, hlink⟩ := hd.link
  have hmem := (List.mem_inits q _).mpr hq
  simp only [List.inits, List.map_cons, List.map_nil, List.mem_cons, List.not_mem_nil,
    or_false] at hmem
  rcases hmem with rfl | rfl | rfl | rfl <;> exact absurd hlink (by cbv; simp)

/-! ## Links to nothing -/

/-- A link to nothing is resolved to itself, wherever it points. -/
theorem resolve_of_dangling (hslash : ∀ y ∈ d ++ [x], '/' ∉ y.toList)
    (hn : ∀ y ∈ s.root ++ (d ++ [x]), Path.IsName y ∧ y.utf8ByteSize ≤ maxName)
    (hnul : ∀ y ∈ s.root ++ (d ++ [x]), y.contains '\x00' = false) (hclear : t.Clear (s.root ++ d))
    (h : t.Dangling (s.root ++ (d ++ [x]))) :
    s.resolve t (Location.relativeText (d ++ [x])) =
      .ok { absolute := s.root ++ (d ++ [x]), relative := d ++ [x] } := by
  have hl := Path.locate_relativeText s.root (l := d ++ [x]) (by simp) fun y hy =>
    ⟨(hn y (List.mem_append_right _ hy)).1, hslash y hy⟩
  have hprefix : existingPrefix t (s.root ++ (d ++ [x])).reverse = .ok (s.root ++ (d ++ [x])) := by
    rw [← List.append_assoc] at hn hnul h ⊢
    have habove := existingPrefix_of_clear (fun y hy => hn y (List.mem_append_left _ hy))
      (fun y hy => hnul y (List.mem_append_left _ hy)) hclear
    rw [List.reverse_concat, existingPrefix, List.reverse_cons, List.reverse_reverse,
      canonical_of_nulFree hnul, h.nothing, habove]
    rfl
  rw [resolve_of_locate hl]
  exact resolveNames_of_existingPrefix _ hprefix

/-- A link out of the workspace, to what is not there. -/
def loose : FileTree where
  entries := [(["ws"], .directory), (["ws", "out"], .link "../x")]
  distinct := by decide

/-- A resolved place can be a link, which leads out of the workspace as soon as its target is
there. -/
theorem resolve_loose_not_linkFree : ∃ p,
    Sandbox.resolve { root := ["ws"] } loose "out" = .ok p ∧ ¬ loose.LinkFree p.absolute := by
  have hclear : loose.Clear ["ws"] := by
    refine Canonical.clear (Closed.canonical (by decide) (by decide) ?_) rfl
    exact ⟨.directory, rfl, by simp⟩
  have hnul : ∀ y ∈ ["ws", "out"], y.contains '\x00' = false :=
    List.forall_mem_cons.mpr ⟨by cbv, List.forall_mem_singleton.mpr (by cbv)⟩
  have hp : Sandbox.resolve { root := ["ws"] } loose "out" =
      .ok { absolute := ["ws", "out"], relative := ["out"] } :=
    resolve_of_dangling (d := []) (by decide) (by decide) hnul hclear
      ⟨⟨"../x", rfl⟩, by cbv⟩
  exact ⟨_, hp, fun hfree => hfree ["ws", "out"] (List.prefix_refl _) "../x" rfl⟩

end Sandbox

end Worksite
