import Worksite.Proofs.Sandbox.Below
import Worksite.Proofs.Sandbox.Stability

/-!
The two checks of containment. One follows a whole path and looks where it ends; the other folds it
by its text, follows the part that exists and keeps the names behind it. On paths below the root
that do not climb they agree: what is contained is what exists and is resolved.
-/
namespace Worksite

open FileTree

variable {s : Sandbox} {t : FileTree} {l l' x d q root : Location} {path target : String}
  {p : Place} {n : Nat} {names rest : List String}

namespace FileTree

/-! ## What exists -/

/-- Names that are walked from a location arrive at another, however many links are on the way. -/
inductive Arrives (t : FileTree) : Location → List String → Location → Prop where
  | done (l : Location) : Arrives t l [] l
  | stay {l l' : Location} {name : String} {names : List String} (hd : t.isDirectory l)
      (hs : name = "" ∨ name = ".") (h : Arrives t l names l') : Arrives t l (name :: names) l'
  | up {l l' : Location} {names : List String} (hd : t.isDirectory l)
      (h : Arrives t l.dropLast names l') : Arrives t l (".." :: names) l'
  | enter {l l' : Location} {name : String} {names : List String} {e : Entry}
      (hd : t.isDirectory l) (hs : Path.IsName name) (hlen : name.utf8ByteSize ≤ maxName)
      (he : t.entry? (l ++ [name]) = some e) (hlink : ∀ target, e ≠ .link target)
      (h : Arrives t (l ++ [name]) names l') : Arrives t l (name :: names) l'
  | link {l l' : Location} {name target : String} {names : List String} (hd : t.isDirectory l)
      (hs : Path.IsName name) (hlen : name.utf8ByteSize ≤ maxName)
      (he : t.entry? (l ++ [name]) = some (.link target))
      (h : Arrives t (if Path.isAbsolute target then [] else l)
        (Path.segments target ++ names) l') : Arrives t l (name :: names) l'

/-- An absolute path leads to something that is there. -/
def Present (t : FileTree) (path : String) : Prop :=
  '\x00' ∉ path.toList ∧ ∃ l, t.Arrives [] (Path.segments path) l

theorem Arrives.exists_follow (h : t.Arrives l names x) :
    ∃ n, t.follow true n l names = .ok x := by
  induction h with
  | done l => exact ⟨0, rfl⟩
  | stay hd hs _ ih =>
    obtain ⟨n, ih⟩ := ih
    refine ⟨n, Eq.trans (follow_congr_course ?_) ih⟩
    rw [course]
    simp [hd, hs]
  | up hd _ ih =>
    obtain ⟨n, ih⟩ := ih
    refine ⟨n, Eq.trans (follow_congr_course ?_) ih⟩
    rw [course]
    simp [hd]
  | @enter l x name names e hd hs hlen he hlink _ ih =>
    obtain ⟨n, ih⟩ := ih
    refine ⟨n, Eq.trans (follow_congr_course ?_) ih⟩
    rw [course_cons true names hd hs hlen, he]
    cases e with
    | link target => exact absurd rfl (hlink target)
    | file | directory | socket => rfl
  | @link l x name target names hd hs hlen he _ ih =>
    obtain ⟨n, ih⟩ := ih
    refine ⟨n + 1, ?_⟩
    rw [follow, course_cons true names hd hs hlen, he]
    simpa using ih

/-- A course arrives, or arrives where the link does that ends it. -/
theorem arrives_of_course (l : Location) (names : List String) :
    (∀ x, t.course true l names = .arrived x → t.Arrives l names x) ∧
      ∀ d target rest x, t.course true l names = .led d target rest →
        t.Arrives (if Path.isAbsolute target then [] else d) (Path.segments target ++ rest) x →
          t.Arrives l names x := by
  fun_induction course t true l names with
  | case1 l => simpa using Arrives.done l
  | case2 => simp
  | case3 l s rest hd hs ih =>
    have hd : t.isDirectory l := by simpa using hd
    have hs : s = "" ∨ s = "." := by simpa using hs
    exact ⟨fun x h => .stay hd hs (ih.1 x h), fun d target rest x h hx =>
      .stay hd hs (ih.2 d target rest x h hx)⟩
  | case4 l rest hd _ ih =>
    have hd : t.isDirectory l := by simpa using hd
    exact ⟨fun x h => .up hd (ih.1 x h), fun d target rest x h hx =>
      .up hd (ih.2 d target rest x h hx)⟩
  | case5 => simp
  | case6 => simp
  | case7 l s rest _ _ _ _ target _ hlast => simp at hlast
  | case8 l s rest hd hs hup hlen target he =>
    have hd : t.isDirectory l := by simpa using hd
    simp only [Bool.or_eq_true, decide_eq_true_eq, not_or] at hs
    refine ⟨by simp, fun d target rest x h hx => ?_⟩
    obtain ⟨rfl, rfl, rfl⟩ := Course.led.inj h
    exact .link hd ⟨hs.1, hs.2, hup⟩ (Nat.not_lt.mp hlen) he hx
  | case9 l s rest hd hs hup hlen e hlink he ih =>
    have hd : t.isDirectory l := by simpa using hd
    simp only [Bool.or_eq_true, decide_eq_true_eq, not_or] at hs
    have hname : Path.IsName s := ⟨hs.1, hs.2, hup⟩
    have hlink : ∀ target, e ≠ .link target := fun target he => hlink target he
    exact ⟨fun x h => .enter hd hname (Nat.not_lt.mp hlen) he hlink (ih.1 x h),
      fun d target rest x h hx =>
        .enter hd hname (Nat.not_lt.mp hlen) he hlink (ih.2 d target rest x h hx)⟩

/-- What is followed with enough links arrives, and nothing else does. -/
theorem arrives_iff : t.Arrives l names x ↔ ∃ n, t.follow true n l names = .ok x := by
  constructor
  · exact Arrives.exists_follow
  · rintro ⟨n, h⟩
    induction n generalizing l names with
    | zero =>
      rw [follow] at h
      cases hc : t.course true l names with
      | arrived y =>
        rw [hc] at h
        exact Except.ok.inj h ▸ (arrives_of_course l names).1 y hc
      | refused e => simp [hc] at h
      | led d target rest => simp [hc] at h
    | succ n ih =>
      rw [follow] at h
      cases hc : t.course true l names with
      | arrived y =>
        rw [hc] at h
        exact Except.ok.inj h ▸ (arrives_of_course l names).1 y hc
      | refused e => simp [hc] at h
      | led d target rest =>
        rw [hc] at h
        exact (arrives_of_course l names).2 d target rest x hc (ih h)

/-- Names that arrive are followed there, unless through too many links. -/
theorem Arrives.follow_eq (h : t.Arrives l names x) (n : Nat) :
    t.follow true n l names = .ok x ∨ t.follow true n l names = .error .tooManyLinks := by
  obtain ⟨m, hm⟩ := h.exists_follow
  by_cases hmany : t.follow true n l names = .error .tooManyLinks
  · exact .inr hmany
  · left
    rcases Nat.le_total n m with hle | hle
    · rw [← follow_mono hle hmany, hm]
    · rw [follow_mono hle (by simp [hm]), hm]

end FileTree

/-! ## Absolute paths of locations -/

namespace Path

theorem segments_absoluteText (l : Location) :
    segments l.absoluteText = "" :: segments l.relativeText := by
  rw [absoluteText_eq, segments_slash]
  rfl

theorem spells_absoluteText (hn : ∀ y ∈ l, IsNormal y) : Spells [] l.absoluteText l := by
  have hname : ∀ y ∈ l, IsName y := fun y hy => (hn y hy).1
  by_cases hl : l = []
  · subst hl
    exact ⟨by decide, by decide⟩
  · have hsegments := segments_absoluteText l
    rw [segments_relativeText hl fun y hy => (hn y hy).2] at hsegments
    refine ⟨?_, ?_⟩
    · rw [hsegments, List.mem_cons, not_or]
      exact ⟨by decide, not_mem_climb hname⟩
    · rw [isAbsolute_absoluteText, if_pos rfl, hsegments, spelled_cons_of_silent (.inl rfl),
        List.nil_append, spelled_of_isName hname]

theorem stripNames?_blank (root : Location) (segs : List String) :
    stripNames? root ("" :: segs) = stripNames? root segs := by
  cases root <;> rfl

theorem dropSilent_of_isName (hn : ∀ y ∈ l, IsName y) : dropSilent l = l := by
  cases l with
  | nil => rfl
  | cons y l =>
    obtain ⟨hblank, hdot, -⟩ := hn y List.mem_cons_self
    simp [dropSilent, hblank, hdot]

theorem dropWhile_isSilent_of_isName (hn : ∀ y ∈ l, IsName y) : l.dropWhile isSilent = l := by
  cases l with
  | nil => rfl
  | cons y l =>
    obtain ⟨hblank, hdot, -⟩ := hn y List.mem_cons_self
    exact List.dropWhile_cons_of_neg (by simp [isSilent, hblank, hdot])

/-- Names are taken from names. -/
theorem stripNames?_append (hn : ∀ y ∈ root ++ q, IsName y) :
    stripNames? root (root ++ q) = some q.relativeText := by
  induction root with
  | nil =>
    rw [List.nil_append] at hn ⊢
    rw [stripNames?, dropWhile_isSilent_of_isName hn,
      dropSilent_of_isName fun y hy => hn y (List.mem_reverse.mp hy), List.reverse_reverse]
    rfl
  | cons name root ih =>
    rw [List.cons_append] at hn ⊢
    rw [stripNames?, dropWhile_isSilent_of_isName hn]
    simpa using ih fun y hy => hn y (List.mem_cons_of_mem _ hy)

end Path

namespace Sandbox

/-- What a location below the root is called from there is read off its absolute path. -/
theorem relativize?_absoluteText (hn : ∀ y ∈ s.root ++ q, Path.IsNormal y) :
    s.relativize? (Location.absoluteText (s.root ++ q)) = some q.relativeText := by
  have hstrip := Path.stripNames?_append fun y hy => (hn y hy).1
  rw [relativize?, Path.isAbsolute_absoluteText, if_pos rfl, Path.segments_absoluteText,
    Path.stripNames?_blank]
  by_cases hl : s.root ++ q = []
  · obtain ⟨hroot, rfl⟩ := List.append_eq_nil_iff.mp hl
    rw [hroot]
    rfl
  · rw [Path.segments_relativeText hl fun y hy => (hn y hy).2, hstrip]

/-! ## Agreement -/

theorem contains_eq_true : s.contains t path = true ↔
    ∃ l, t.canonicalText [] path = .ok l ∧ s.root <+: l := by
  unfold contains
  cases t.canonicalText [] path with
  | error e => simp
  | ok l => simp [Location.isWithin]

/-- A path that is followed as it is written leads to something. -/
theorem present_of_canonicalText (habs : Path.isAbsolute path)
    (h : t.canonicalText [] path = .ok l) : t.Present path := by
  have hfollow := follow_of_canonicalText h
  rw [if_pos habs] at hfollow
  exact ⟨by simpa using contains_nul_of_canonicalText h, l, arrives_iff.mpr ⟨_, hfollow⟩⟩

theorem spelled_eq (hs : Spells [] path l) : spelled (Path.segments path) = l := by
  have hnames := hs.names
  rwa [ite_self, List.nil_append] at hnames

theorem locate_of_spells (habs : Path.isAbsolute path) (hs : Spells [] path l) :
    Path.locate root path = some l := by
  have hfold := Path.fold_of_noClimb [] hs.noClimb
  rw [Path.locate, if_pos habs, hfold, spelled_eq hs, List.nil_append]

/-- A path that is followed below the root is resolved to where it leads. -/
theorem resolve_of_canonicalText (habs : Path.isAbsolute path) (hs : Spells [] path (s.root ++ q))
    (h : t.canonicalText [] path = .ok (s.root ++ rest)) :
    s.resolve t path = .ok { absolute := s.root ++ rest, relative := rest } := by
  obtain ⟨folded, hfolded, hcan⟩ :=
    canonical_of_canonicalText (canonical_nil t) (by simp) hs.noClimb h
  obtain rfl := Option.some.inj ((locate_of_spells habs hs).symm.trans hfolded)
  have hwithin : Location.isWithin (s.root ++ q) s.root = true := by
    simp [Location.isWithin]
  have hrelative : Location.relativeTo? (s.root ++ rest) s.root = some rest :=
    Location.relativeTo?_eq_some.mpr rfl
  rw [resolve_of_locate (locate_of_spells habs hs)]
  simp only [resolveNames, hwithin, existingPrefix_of_canonical hcan, hrelative, Bool.not_true,
    Bool.false_eq_true, ↓reduceIte]

/-- Names that do not end are not resolved. -/
theorem existingPrefix_of_tooManyLinks (h : t.canonical l = .error .tooManyLinks) :
    existingPrefix t l.reverse = .error .tooManyLinks := by
  cases l using List.reverseRecOn with
  | nil => exact h
  | append_singleton l y =>
    rw [List.reverse_concat, existingPrefix, List.reverse_cons, List.reverse_reverse, h]

theorem canonicalText_of_follow (habs : Path.isAbsolute path) (hnul : '\x00' ∉ path.toList) :
    t.canonicalText [] path = t.follow true maxLinks [] (Path.segments path) := by
  have hne : path ≠ "" := by
    rintro rfl
    exact absurd habs (by decide)
  have hno : path.contains '\x00' = false := by simpa using hnul
  rw [canonicalText, if_neg hne, hno, habs]
  rfl

theorem nulFree_of_spells (hs : Spells [] path l) (hnul : '\x00' ∉ path.toList) :
    ∀ y ∈ l, y.contains '\x00' = false := by
  intro y hy
  rw [← spelled_eq hs] at hy
  exact Path.contains_nul_of_mem_segments (by simpa using hnul) (List.mem_filter.mp hy).1

theorem canonical_of_spells (hs : Spells [] path l) (hnul : '\x00' ∉ path.toList) :
    t.canonical l = t.follow true maxLinks [] (spelled (Path.segments path)) := by
  rw [spelled_eq hs]
  exact canonical_of_nulFree (nulFree_of_spells hs hnul)

/-- A path that leads to something and is resolved is followed to where it is resolved to. -/
theorem canonicalText_of_present (habs : Path.isAbsolute path) (hs : Spells [] path l)
    (hthere : t.Present path) (h : s.resolve t path = .ok p) :
    t.canonicalText [] path = .ok p.absolute := by
  obtain ⟨hnul, x, hx⟩ := hthere
  rw [resolve_of_locate (locate_of_spells habs hs)] at h
  have hp := (existingPrefix_of_resolveNames h).1
  have hcanonical := canonical_of_spells (t := t) hs hnul
  rw [canonicalText_of_follow habs hnul]
  -- only the number of links can keep what is there from being followed
  rcases hx.follow_eq maxLinks with hfollow | hmany
  · have hspelled : t.follow true maxLinks [] (spelled (Path.segments path)) = .ok x :=
      follow_append_spelled (a := []) hfollow
    have hfound := existingPrefix_of_canonical (hcanonical.trans hspelled)
    rw [hfollow, ← hp, hfound]
  · -- the folded names lead through as many links
    have hspelled : t.follow true maxLinks [] (spelled (Path.segments path)) =
        .error .tooManyLinks :=
      follow_append_spelled_eq (a := []) (fun e he => (Except.error.inj he).symm) hmany
    have hfailed := existingPrefix_of_tooManyLinks (hcanonical.trans hspelled)
    rw [hfailed] at hp
    simp at hp

/-- What is contained exists and is resolved, and nothing else is. -/
theorem contains_iff_present (habs : Path.isAbsolute path)
    (hs : Spells [] path (s.root ++ q)) :
    s.contains t path = true ↔ t.Present path ∧ ∃ p, s.resolve t path = .ok p := by
  rw [contains_eq_true]
  constructor
  · rintro ⟨l, hl, rest, rfl⟩
    exact ⟨present_of_canonicalText habs hl, _, resolve_of_canonicalText habs hs hl⟩
  · rintro ⟨hthere, p, hp⟩
    obtain ⟨-, -, -, hbelow⟩ := existingPrefix_of_resolve hp
    exact ⟨p.absolute, canonicalText_of_present habs hs hthere hp, hbelow ▸ List.prefix_append _ _⟩

/-- A resolved place that exists is resolved to itself. -/
theorem resolve_absoluteText (hr : ∀ y ∈ s.root, Path.IsNormal y) (h : s.resolve t path = .ok p)
    (hthere : t.Present p.absolute.absoluteText) :
    s.resolve t p.absolute.absoluteText = .ok p := by
  have hn := isNormal_of_resolve hr h
  obtain ⟨names, -, hfound, hbelow⟩ := existingPrefix_of_resolve h
  have hself : existingPrefix t p.absolute.reverse = .ok p.absolute :=
    existingPrefix_idem hfound (nulFree_of_spells (Path.spells_absoluteText hn) hthere.1)
  obtain ⟨absolute, relative⟩ := p
  obtain rfl : absolute = s.root ++ relative := hbelow
  exact resolve_of_located (Path.locate_absoluteText s.root hn) hself

/-- The two checks agree: below the root, paths without climbs are contained just if they lead to
something and are resolved, namely to where they are followed to. A resolved place is contained just
if it leads to something. -/
theorem contains_iff_resolve (hr : ∀ y ∈ s.root, Path.IsNormal y) :
    (∀ path q, Path.isAbsolute path → Spells [] path (s.root ++ q) →
      (s.contains t path = true ↔ t.Present path ∧ ∃ p, s.resolve t path = .ok p) ∧
      ∀ p, s.contains t path = true → s.resolve t path = .ok p →
        t.canonicalText [] path = .ok p.absolute ∧
          s.relativize? p.absolute.absoluteText = some p.relative.relativeText) ∧
    ∀ path p, s.resolve t path = .ok p →
      (s.contains t p.absolute.absoluteText = true ↔ t.Present p.absolute.absoluteText) := by
  refine ⟨fun path q habs hs => ⟨contains_iff_present habs hs, fun p hc hp => ⟨?_, ?_⟩⟩,
    fun path p hp => ?_⟩
  · exact canonicalText_of_present habs hs ((contains_iff_present habs hs).mp hc).1 hp
  · obtain ⟨-, -, -, hbelow⟩ := existingPrefix_of_resolve hp
    have hn := isNormal_of_resolve hr hp
    rw [hbelow] at hn ⊢
    exact relativize?_absoluteText hn
  · have hs := Path.spells_absoluteText (isNormal_of_resolve hr hp)
    obtain ⟨-, -, -, hbelow⟩ := existingPrefix_of_resolve hp
    rw [contains_iff_present (q := p.relative) (Path.isAbsolute_absoluteText _) (hbelow ▸ hs)]
    exact ⟨And.left, fun hthere => ⟨hthere, p, resolve_absoluteText hr hp hthere⟩⟩

/-- An alias is contained as what it leads to; a file that is missing behind it is resolved, but is
not there. -/
theorem contains_iff_resolve_aliased :
    aliased.Present "/ws/alias" ∧ aliased.canonicalText [] "/ws/alias" = .ok ["ws", "src"] ∧
      relativize? { root := ["ws"] } "/ws/src" = some "src" ∧
      ¬ aliased.Present "/ws/src/new.py" := by
  obtain ⟨hpath, hplace⟩ :=
    contains_iff_resolve (s := { root := ["ws"] }) (t := aliased) (by decide)
  have hcontains : Sandbox.contains { root := ["ws"] } aliased "/ws/alias" = true := by cbv
  have hresolve : Sandbox.resolve { root := ["ws"] } aliased "/ws/alias" =
      .ok { absolute := ["ws", "src"], relative := ["src"] } := by cbv
  have hplaced : Sandbox.resolve { root := ["ws"] } aliased "alias/new.py" =
      .ok { absolute := ["ws", "src", "new.py"], relative := ["src", "new.py"] } := by
    have hl : Path.locate ["ws"] "alias/new.py" = some ["ws", "alias", "new.py"] := by decide
    rw [resolve_of_locate hl]
    cbv
  have hmissing : Sandbox.contains { root := ["ws"] } aliased "/ws/src/new.py" = false := by cbv
  obtain ⟨hiff, hsame⟩ := hpath "/ws/alias" ["alias"] rfl ⟨by decide, by decide⟩
  obtain ⟨hcanonical, hrelative⟩ := hsame _ hcontains hresolve
  refine ⟨(hiff.mp hcontains).1, hcanonical, hrelative, fun hthere => ?_⟩
  have hnew := (hplace "alias/new.py" _ hplaced).mpr hthere
  exact absurd (hmissing.symm.trans hnew) (by decide)

end Sandbox

end Worksite
