import Worksite.Proofs.FileTree.Listing
import Worksite.Proofs.Glob
import Worksite.Proofs.Sandbox.Resolve
import Worksite.Walk

/-!
What a walk finds. Nothing is lost by not entering the directories that are never shown, since
every file below one is refused by itself; so a walk to its end gives the files of a listing that it
keeps, each place by the first of its names.
-/
namespace Worksite

open FileTree

namespace Exclusion

theorem holds_iff {names : List String} :
    holds names ↔ ∃ name ∈ names.dropLast, name ∈ directories := by
  simp [holds]

theorem holdsPath_relativeText {l : Location} (h : ∀ x ∈ l, Path.IsNormal x) :
    holdsPath l.relativeText = holds l := by
  by_cases hl : l = []
  · subst hl
    rfl
  · rw [holdsPath, Path.steps_relativeText hl h, List.map_map]
    congr 1
    exact List.map_id' l

end Exclusion

/-- What the options of a walk admit, by the names below its start and below the workspace root. -/
@[mk_iff]
structure WalkOptions.Admits (o : WalkOptions) (below inWorkspace : Location) : Prop where
  shown : ∀ name ∈ inWorkspace.dropLast, name ∉ Exclusion.directories
  notExcluded : ∀ text ∈ Exclusion.files ++ o.excluding,
    ¬ Glob.Matches text below ∧ ¬ Glob.Matches text inWorkspace
  included : o.including = [] ∨ ∃ text ∈ o.including, Glob.Matches text below

instance (o : WalkOptions) (below inWorkspace : Location) :
    Decidable (o.Admits below inWorkspace) :=
  decidable_of_iff' _ (WalkOptions.admits_iff o below inWorkspace)

theorem FileFilter.admits_iff {f : FileFilter} {o : WalkOptions} {inWorkspace : Location}
    (hf : FileFilter.ofTexts o.including o.excluding = .ok f) (below : Location)
    (hn : ∀ x ∈ inWorkspace, Path.IsNormal x) :
    f.admits below.relativeText inWorkspace.relativeText ↔ o.Admits below inWorkspace := by
  have hshown : Exclusion.holds inWorkspace = false ↔
      ∀ name ∈ inWorkspace.dropLast, name ∉ Exclusion.directories := by
    rw [← Bool.not_eq_true, Exclusion.holds_iff]
    push Not
    rfl
  have hexcluded (l : Location) : f.excludes l.relativeText = false ↔
      ∀ text ∈ Exclusion.files ++ o.excluding, ¬ Glob.Matches text l := by
    rw [← Bool.not_eq_true, FileFilter.excludes_iff hf]
    push Not
    rfl
  rw [FileFilter.admits, Exclusion.holdsPath_relativeText hn]
  simp only [Bool.and_eq_true, Bool.not_eq_true', hshown, hexcluded,
    FileFilter.including_iff hf below]
  constructor
  · rintro ⟨⟨⟨h₁, h₂⟩, h₃⟩, h₄⟩
    exact ⟨h₁, fun text ht => ⟨h₂ text ht, h₃ text ht⟩, h₄⟩
  · rintro ⟨h₁, h₂, h₄⟩
    exact ⟨⟨⟨h₁, fun text ht => (h₂ text ht).1⟩, fun text ht => (h₂ text ht).2⟩, h₄⟩

namespace Walk

variable {s : Sandbox} {t : FileTree} {o : WalkOptions} {root : Place} {l place : Location}
  {f : FoundFile} {filter : FileFilter}

/-! ## Gathering -/

/-- The files that were found, each place by the first of its names. -/
def firstOfEach (found : List (Location × FoundFile)) : List FoundFile :=
  (found.eraseDupsBy fun a b => a.1 == b.1).map Prod.snd

/-- One step of gathering. -/
theorem gather_cons (c : Location → Option (Location × FoundFile)) (seen : List Location)
    (left : Option Nat) (d : Deadline) (l : Location) (rest : List Location) :
    gather c seen left d (l :: rest) =
      if d.expired then ({ truncated := some .timeBudget }, d)
      else
        match c l with
        | none => gather c seen left d.next rest
        | some (place, file) =>
          if place ∈ seen then gather c seen left d.next rest
          else if left.any (· ≤ 1) then ({ files := [file], truncated := some .count }, d.next)
          else
            let (e, d) := gather c (place :: seen) (left.map (· - 1)) d.next rest
            ({ e with files := file :: e.files }, d) :=
  rfl

/-- With all the time and without a cap, each place has its turn. -/
theorem gather_unbounded (c : Location → Option (Location × FoundFile)) (seen ls : List Location) :
    gather c seen none .unbounded ls =
      ({ files := firstOfEach ((ls.filterMap c).filter (·.1 ∉ seen)) }, .unbounded) := by
  induction ls generalizing seen with
  | nil => rfl
  | cons l ls ih =>
    rw [gather_cons, if_neg (by decide), List.filterMap_cons]
    cases hc : c l with
    | none => simp only [Deadline.next_unbounded, ih]
    | some found =>
      obtain ⟨place, file⟩ := found
      by_cases hplace : place ∈ seen
      · simp [hplace, Deadline.next_unbounded, ih]
      · -- what comes later at the same place is dropped, as if the place had been seen before
        have hlater : ((ls.filterMap c).filter (·.1 ∉ place :: seen)) =
            ((ls.filterMap c).filter (·.1 ∉ seen)).filter fun b => (b.1 == place) = false := by
          simp [List.filter_filter]
        simp only [hplace, Deadline.next_unbounded, ih, hlater, firstOfEach, Option.any_none,
          Option.map_none, not_false_eq_true, decide_true, List.filter_cons_of_pos,
          List.eraseDupsBy_cons, List.map_cons, ↓reduceIte, Bool.false_eq_true]

/-- Whatever the cap and the time, files are gathered in the order in which they were met. -/
theorem gather_sublist (c : Location → Option (Location × FoundFile)) (seen : List Location)
    (left : Option Nat) (d : Deadline) (ls : List Location) :
    (gather c seen left d ls).1.files.Sublist ((ls.filterMap c).map Prod.snd) := by
  induction ls generalizing seen left d with
  | nil => exact List.nil_sublist _
  | cons l ls ih =>
    rw [gather_cons]
    by_cases hexpired : d.expired
    · rw [if_pos hexpired]
      exact List.nil_sublist _
    rw [if_neg hexpired]
    cases hc : c l with
    | none =>
      rw [List.filterMap_cons_none hc]
      exact ih seen left d.next
    | some found =>
      obtain ⟨place, file⟩ := found
      rw [List.filterMap_cons_some hc, List.map_cons]
      dsimp only
      split_ifs
      · exact (ih seen left d.next).cons _
      · exact (List.nil_sublist _).cons_cons _
      · exact (ih (place :: seen) (left.map (· - 1)) d.next).cons_cons _

/-- Each file was found at a location that was visited. -/
theorem mem_gather {c : Location → Option (Location × FoundFile)} {seen ls : List Location}
    {left : Option Nat} {d : Deadline} (h : f ∈ (gather c seen left d ls).1.files) :
    ∃ l ∈ ls, ∃ place, c l = some (place, f) := by
  obtain ⟨⟨place, g⟩, hg, rfl⟩ := List.mem_map.mp ((gather_sublist c seen left d ls).subset h)
  obtain ⟨l, hl, hc⟩ := List.mem_filterMap.mp hg
  exact ⟨l, hl, place, hc⟩

/-- A place that was found is there under some name. -/
theorem exists_mem_firstOfEach {found : List (Location × FoundFile)} (h : (place, f) ∈ found) :
    ∃ g, (place, g) ∈ found ∧ g ∈ firstOfEach found := by
  induction hlen : found.length using Nat.strong_induction_on generalizing found with
  | _ n ih =>
    cases found with
    | nil => simp at h
    | cons first later =>
      rw [firstOfEach, List.eraseDupsBy_cons, List.map_cons]
      by_cases hplace : first.1 = place
      · exact ⟨first.2, hplace ▸ List.mem_cons_self, List.mem_cons_self⟩
      · have hlater : (place, f) ∈ later.filter fun b => (b.1 == first.1) = false := by
          rw [List.mem_filter]
          refine ⟨(List.mem_cons.mp h).resolve_left ?_, by simpa using Ne.symm hplace⟩
          rintro rfl
          exact hplace rfl
        have hshort : (later.filter fun b => (b.1 == first.1) = false).length < n := by
          rw [← hlen, List.length_cons]
          exact Nat.lt_succ_of_le (List.length_filter_le _ _)
        obtain ⟨g, hg, hfirst⟩ := ih _ hshort hlater rfl
        exact ⟨g, List.mem_cons_of_mem _ (List.mem_filter.mp hg).1, List.mem_cons_of_mem _ hfirst⟩

/-! ## Candidates -/

/-- The file that a walk keeps for a location, with the place where its bytes are. -/
def kept? (s : Sandbox) (t : FileTree) (root : Place) (o : WalkOptions) (l : Location) :
    Option (Location × FoundFile) :=
  match t.find true l, t.canonical l with
  | .ok (.file bytes _), .ok place =>
    if s.root <+: place ∧ o.Admits (l.drop root.absolute.length) (l.drop s.root.length) then
      some (place, { relative := l.drop s.root.length, size := bytes.size })
    else none
  | _, _ => none

theorem kept?_of_found {bytes : ByteArray} {mode : Nat}
    (hf : t.find true l = .ok (.file bytes mode)) (hc : t.canonical l = .ok place) :
    kept? s t root o l =
      if s.root <+: place ∧ o.Admits (l.drop root.absolute.length) (l.drop s.root.length) then
        some (place, { relative := l.drop s.root.length, size := bytes.size })
      else none := by
  simp only [kept?, hf, hc]

theorem kept?_eq_some : kept? s t root o l = some (place, f) ↔
    (∃ bytes mode, t.find true l = .ok (.file bytes mode) ∧ f.size = bytes.size) ∧
      f.relative = l.drop s.root.length ∧ t.canonical l = .ok place ∧ s.root <+: place ∧
      o.Admits (l.drop root.absolute.length) f.relative := by
  unfold kept?
  split
  · next bytes mode place' hf hc =>
    simp only [hf, hc, Except.ok.injEq, Entry.file.injEq]
    split_ifs with h
    · simp only [Option.some.injEq, Prod.mk.injEq]
      constructor
      · rintro ⟨rfl, rfl⟩
        exact ⟨⟨bytes, mode, ⟨rfl, rfl⟩, rfl⟩, rfl, rfl, h⟩
      · rintro ⟨⟨_, _, ⟨rfl, rfl⟩, hsize⟩, hrelative, rfl, -⟩
        refine ⟨rfl, ?_⟩
        rw [← hrelative, ← hsize]
    · simp only [false_iff]
      rintro ⟨-, hrelative, rfl, hplace, hadmits⟩
      exact h ⟨hplace, hrelative ▸ hadmits⟩
  · next h =>
    simp only [reduceCtorEq, false_iff]
    rintro ⟨⟨bytes, mode, hf, -⟩, -, hc, -⟩
    exact h _ _ _ hf hc

/-- A file is found by the names of the location that it is kept for. -/
theorem append_relative_of_kept? (h : kept? s t root o l = some (place, f)) (hl : s.root <+: l) :
    s.root ++ f.relative = l := by
  rw [(kept?_eq_some.mp h).2.1, List.prefix_iff_eq_append.mp hl]

/-- A candidate is named by where it was met, and leads to a place within the root. -/
theorem candidate?_eq_some {start : Location}
    (h : candidate? s t filter start l = some (place, f)) :
    t.canonical l = .ok place ∧ s.root ++ f.relative = l ∧ s.root <+: place := by
  rw [candidate?] at h
  split_ifs at h
  split at h
  · split at h
    · simp at h
    · next place' hc =>
      simp only [Option.bind_eq_bind, Option.bind_eq_some_iff, Option.guard_eq_some'] at h
      obtain ⟨-, hin, relative, hrelative, -, -, h⟩ := h
      obtain ⟨rfl, rfl⟩ := Prod.mk.inj (Option.some.inj h)
      exact ⟨hc, (Location.relativeTo?_eq_some.mp hrelative).symm,
        List.isPrefixOf_iff_prefix.mp hin⟩
  · simp at h

/-- A walk keeps the files among its candidates. -/
theorem candidate?_eq_kept? (hf : FileFilter.ofTexts o.including o.excluding = .ok filter)
    (hroot : root.absolute = s.root ++ root.relative) (hl : root.absolute <+: l)
    (hd : ¬ t.isDirectory l) (hn : ∀ x ∈ l, Path.IsNormal x) :
    candidate? s t filter root.absolute l = kept? s t root o l := by
  have hwithin : s.root <+: l := (List.prefix_append _ _).trans (hroot ▸ hl)
  have hrelative : l.relativeTo? s.root = some (l.drop s.root.length) := by
    rw [Location.relativeTo?, if_pos (List.isPrefixOf_iff_prefix.mpr hwithin)]
  have hbelow : l.relativeTo? root.absolute = some (l.drop root.absolute.length) := by
    rw [Location.relativeTo?, if_pos (List.isPrefixOf_iff_prefix.mpr hl)]
  have hadmits := FileFilter.admits_iff hf (l.drop root.absolute.length)
    fun x hx => hn x (List.mem_of_mem_drop (i := s.root.length) hx)
  rw [candidate?, kept?, if_neg hd]
  cases hfind : t.find true l with
  | error e => rfl
  | ok entry =>
    cases entry with
    | file bytes mode =>
      cases hc : t.canonical l with
      | error e => rfl
      | ok place =>
        have hplace : place.isWithin s.root ↔ s.root <+: place := List.isPrefixOf_iff_prefix
        simp only [hrelative, hbelow, Option.getD_some, Option.bind_eq_bind, Option.bind_some,
          hplace, hadmits]
        by_cases h₁ : s.root <+: place <;>
          by_cases h₂ : o.Admits (l.drop root.absolute.length) (l.drop s.root.length) <;>
            simp [h₁, h₂]
    | directory => rfl
    | link target => rfl
    | socket daemon => rfl

/-- What a walk does not enter it would not keep. -/
theorem kept?_of_isPruned (hroot : root.absolute = s.root ++ root.relative)
    (hl : root.absolute <+: l) (hd : ¬ t.isDirectory l) (h : isPruned t root.absolute l) :
    kept? s t root o l = none := by
  obtain ⟨below, rfl⟩ := hl
  simp only [isPruned, List.drop_left, Bool.or_eq_true, Bool.and_eq_true, hd, Bool.false_eq_true,
    false_and, or_false, Exclusion.holds_iff] at h
  obtain ⟨name, hname, hshown⟩ := h
  by_contra hkept
  obtain ⟨⟨place, f⟩, hkept⟩ := Option.ne_none_iff_exists'.mp hkept
  obtain ⟨-, hrelative, -, -, hadmits⟩ := kept?_eq_some.mp hkept
  have hne : below ≠ [] := by
    rintro rfl
    simp at hname
  rw [hroot, List.append_assoc, List.drop_left] at hrelative
  refine hadmits.shown name ?_ hshown
  rw [hrelative, List.dropLast_append_of_ne_nil hne]
  exact List.mem_append_right _ hname

theorem filterMap_visited (hn : t.Named)
    (hf : FileFilter.ofTexts o.including o.excluding = .ok filter)
    (hroot : root.absolute = s.root ++ root.relative) (hd : t.isDirectory root.absolute) :
    (visited t root.absolute).filterMap (candidate? s t filter root.absolute) =
      (t.listing root.absolute).filterMap (kept? s t root o) := by
  have hstart : candidate? s t filter root.absolute root.absolute = none := by
    rw [candidate?, if_pos hd]
  rw [visited, List.filterMap_cons_none hstart, ← filter_below hd, List.filterMap_filter,
    List.filterMap_filter]
  refine List.filterMap_congr fun l hl => ?_
  obtain ⟨hbelow, hl, -⟩ := mem_below.mp hl
  by_cases hdir : t.isDirectory l
  · simp [hdir, candidate?]
  · rw [candidate?_eq_kept? hf hroot hbelow hdir fun x hx => (hn.names hl x hx).1]
    by_cases hpruned : isPruned t root.absolute l
    · simp [hpruned, kept?_of_isPruned hroot hbelow hdir hpruned]
    · simp [hpruned, hdir]

/-- A walk from a directory to its end keeps what is listed below it. -/
theorem enumerate_of_directory (hn : t.Named) (hroot : root.absolute = s.root ++ root.relative)
    (hd : t.isDirectory root.absolute) (hfind : t.find true root.absolute = .ok .directory)
    (ho : o.maxCount = none)
    (hg : ∀ text ∈ o.including ++ o.excluding, ∃ gs, Glob.parse text = .ok gs) :
    enumerate s t root o .unbounded =
      .ok ({ files := firstOfEach ((t.listing root.absolute).filterMap (kept? s t root o)) },
        .unbounded) := by
  obtain ⟨filter, hf⟩ := FileFilter.exists_ofTexts hg
  simp only [enumerate, hf, ok_bind, ho, hfind, reduceCtorEq, ↓reduceIte, gather_unbounded,
    filterMap_visited hn hf hroot hd]
  simp [pure, Except.pure]

/-- A walk from a directory to its end: of what is below it and no directory, in the order of the
bytes of the names, the files that the walk keeps, each place by the first of its names. -/
theorem enumerate_eq_kept {path : String} (ha : s.Anchored t) (hn : t.Named)
    (hp : s.resolve t path = .ok root) (hd : t.find true root.absolute = .ok .directory)
    (ho : o.maxCount = none)
    (hg : ∀ text ∈ o.including ++ o.excluding, ∃ gs, Glob.parse text = .ok gs) :
    ∃ ls : List Location,
      (∀ l, l ∈ ls ↔ root.absolute <+: l ∧ ∃ e, t.entry? l = some e ∧ e ≠ .directory) ∧
      ls.Pairwise (fun a b => a.bytes < b.bytes) ∧
      enumerate s t root o .unbounded =
        .ok ({ files := firstOfEach (ls.filterMap (kept? s t root o)) }, .unbounded) := by
  obtain ⟨hroot, hreached⟩ := Sandbox.resolve_eq_ok ha hp
  have hdir : t.isDirectory root.absolute :=
    isDirectory_iff.mpr (hreached.straight.find_eq_ok hd).2.2
  exact ⟨t.listing root.absolute, fun l => mem_listing, t.listing_pairwise root.absolute,
    enumerate_of_directory hn hroot hdir hd ho hg⟩

/-- What is gathered was kept for a location that the walk came to. -/
theorem exists_of_mem_gather {seen : List Location} {left : Option Nat} {d : Deadline}
    (hn : t.Named) (hf : FileFilter.ofTexts o.including o.excluding = .ok filter)
    (hroot : root.absolute = s.root ++ root.relative) (he : t.entry? root.absolute ≠ none)
    (h : f ∈ (gather (candidate? s t filter root.absolute) seen left d
      (visited t root.absolute)).1.files) :
    ∃ l place, root.absolute <+: l ∧ t.entry? l ≠ none ∧ kept? s t root o l = some (place, f) := by
  obtain ⟨l, hl, place, hc⟩ := mem_gather h
  have hbelow : root.absolute <+: l ∧ t.entry? l ≠ none := by
    rcases List.mem_cons.mp hl with rfl | hl
    · exact ⟨List.prefix_refl _, he⟩
    · obtain ⟨hl, he, -⟩ := mem_below.mp (List.mem_filter.mp hl).1
      exact ⟨hl, he⟩
  have hd : ¬ t.isDirectory l := by
    intro hd
    simp [candidate?, hd] at hc
  rw [candidate?_eq_kept? hf hroot hbelow.1 hd fun x hx => (hn.names hbelow.2 x hx).1] at hc
  exact ⟨l, place, hbelow.1, hbelow.2, hc⟩

/-- What a walk that succeeds does, whenever it ends: there is nothing that it may find, or it finds
the file that it starts from, or it gathers what it comes to. -/
theorem enumerate_cases {e : Enumeration} {d d' : Deadline}
    (h : enumerate s t root o d = .ok (e, d')) :
    ∃ filter, FileFilter.ofTexts o.including o.excluding = .ok filter ∧
      ((e = {} ∧ ∀ d, enumerate s t root o d = .ok (e, d)) ∨
      (∃ bytes mode, t.find true root.absolute = .ok (.file bytes mode) ∧
        ¬ (Exclusion.holds root.relative || filter.excludes root.relative.relativeText) ∧
        e = { files := [{ relative := root.relative, size := bytes.size }] } ∧
        ∀ d, enumerate s t root o d = .ok (e, d)) ∨
      (o.maxCount ≠ some 0 ∧ (∃ entry, t.find true root.absolute = .ok entry) ∧
        candidate? s t filter root.absolute root.absolute = none ∧
        ∀ d, enumerate s t root o d =
          .ok (gather (candidate? s t filter root.absolute) [] o.maxCount d
            (visited t root.absolute)))) := by
  obtain ⟨filter, hf, h⟩ := bind_eq_ok.mp h
  refine ⟨filter, hf, ?_⟩
  simp only [enumerate, hf, ok_bind]
  by_cases hcap : o.maxCount = some 0
  · rw [if_pos hcap] at h
    obtain ⟨rfl, -⟩ := Prod.mk.inj (Except.ok.inj h)
    exact .inl ⟨rfl, fun d => if_pos hcap⟩
  rw [if_neg hcap] at h
  simp only [if_neg hcap]
  cases hfind : t.find true root.absolute with
  | error e => simp [hfind] at h
  | ok entry =>
    cases entry with
    | file bytes mode =>
      simp only [hfind] at h ⊢
      by_cases hexcluded : Exclusion.holds root.relative ||
          filter.excludes root.relative.relativeText
      · rw [if_pos hexcluded] at h
        obtain ⟨rfl, -⟩ := Prod.mk.inj (Except.ok.inj h)
        exact .inl ⟨rfl, fun d => if_pos hexcluded⟩
      · rw [if_neg hexcluded] at h
        obtain ⟨rfl, -⟩ := Prod.mk.inj (Except.ok.inj h)
        exact .inr (.inl ⟨bytes, mode, rfl, hexcluded, rfl, fun d => if_neg hexcluded⟩)
    | directory | link target | socket daemon =>
      exact .inr (.inr ⟨hcap, ⟨_, rfl⟩, by simp [candidate?, hfind], fun d => rfl⟩)

/-- Whatever a walk is after and whenever it ends: what it finds is the file it starts from, or was
kept for a location that it came to. -/
theorem exists_of_mem_enumerate {e : Enumeration} {d d' : Deadline} (hn : t.Named)
    (hroot : root.absolute = s.root ++ root.relative) (hs : t.Straight root.absolute)
    (h : enumerate s t root o d = .ok (e, d')) (hf : f ∈ e.files) :
    (∃ bytes mode, t.find true root.absolute = .ok (.file bytes mode) ∧
        f = { relative := root.relative, size := bytes.size } ∧
        (∀ name ∈ root.relative.dropLast, name ∉ Exclusion.directories) ∧
        ∀ text ∈ Exclusion.files ++ o.excluding, ¬ Glob.Matches text root.relative) ∨
      ∃ l place, root.absolute <+: l ∧ t.entry? l ≠ none ∧
        kept? s t root o l = some (place, f) := by
  obtain ⟨filter, hfilter, hcases⟩ := enumerate_cases h
  rcases hcases with ⟨rfl, -⟩ | ⟨bytes, mode, hfind, hexcluded, rfl, -⟩ |
    ⟨-, ⟨entry, hfind⟩, -, hgather⟩
  · exact absurd hf List.not_mem_nil
  · rw [Bool.or_eq_true, not_or, Exclusion.holds_iff, FileFilter.excludes_iff hfilter] at hexcluded
    push Not at hexcluded
    exact .inl ⟨bytes, mode, hfind, List.mem_singleton.mp hf, hexcluded⟩
  · obtain rfl := congrArg Prod.fst (Except.ok.inj ((hgather d).symm.trans h))
    have hentry : t.entry? root.absolute ≠ none := by simp [(hs.find_eq_ok hfind).2.2]
    exact .inr (exists_of_mem_gather hn hfilter hroot hentry hf)

/-- A file with a link to it, a link to a file outside, and a directory that is not shown. -/
def linked : FileTree where
  entries := [(["ws"], .directory), (["ws", "b"], .file "x".toUTF8 0o644),
    (["ws", "a"], .link "b"), (["ws", "c"], .link "/x"), (["ws", "build"], .directory),
    (["ws", "build", "d"], .file "y".toUTF8 0o644), (["x"], .file "z".toUTF8 0o644)]
  distinct := by decide

def linkedRoot : Place where
  absolute := ["ws"]
  relative := []

theorem firstOfEach_linked :
    firstOfEach
        ((linked.listing ["ws"]).filterMap (kept? { root := ["ws"] } linked linkedRoot {})) =
      [{ relative := ["a"], size := 1 }] := by
  have hlisting : linked.listing ["ws"] =
      [["ws", "a"], ["ws", "b"], ["ws", "build", "d"], ["ws", "c"]] := by cbv
  have hfile (l place : Location) (bytes : ByteArray)
      (hf : linked.find true l = .ok (.file bytes 0o644)) (hc : linked.canonical l = .ok place) :
      kept? { root := ["ws"] } linked linkedRoot {} l = _ := kept?_of_found hf hc
  rw [hlisting, List.filterMap_cons, List.filterMap_cons, List.filterMap_cons, List.filterMap_cons,
    hfile ["ws", "a"] ["ws", "b"] "x".toUTF8 (by cbv) (by cbv),
    hfile ["ws", "b"] ["ws", "b"] "x".toUTF8 (by cbv) (by cbv),
    hfile ["ws", "build", "d"] ["ws", "build", "d"] "y".toUTF8 (by cbv) (by cbv),
    hfile ["ws", "c"] ["x"] "z".toUTF8 (by cbv) (by cbv),
    if_pos (by decide +kernel), if_pos (by decide +kernel), if_neg (by decide +kernel),
    if_neg (by decide)]
  rfl

/-- The file is found once, by the name of the link, which comes first. -/
theorem enumerate_eq_kept_linked :
    ∃ ls : List Location,
      (∀ l, l ∈ ls ↔ ["ws"] <+: l ∧ ∃ e, linked.entry? l = some e ∧ e ≠ .directory) ∧
      ls.Pairwise (fun a b => a.bytes < b.bytes) ∧
      firstOfEach (ls.filterMap (kept? { root := ["ws"] } linked linkedRoot {})) =
        [{ relative := ["a"], size := 1 }] := by
  have hanchored : Sandbox.Anchored { root := ["ws"] } linked :=
    ⟨Closed.canonical (by decide) (by decide) ⟨.directory, rfl, by simp⟩, rfl⟩
  have hresolve : Sandbox.resolve { root := ["ws"] } linked "" = .ok linkedRoot := by cbv
  have hfind : linked.find true linkedRoot.absolute = .ok .directory := by cbv
  obtain ⟨ls, hmem, hsorted, heq⟩ := enumerate_eq_kept (o := {}) hanchored (by decide +kernel)
    hresolve hfind rfl (by simp)
  refine ⟨ls, hmem, hsorted, ?_⟩
  rw [enumerate_of_directory (by decide +kernel) rfl rfl hfind rfl (by simp)] at heq
  simp only [Except.ok.injEq, Prod.mk.injEq, Enumeration.mk.injEq, and_true] at heq
  rw [← heq]
  exact firstOfEach_linked

end Walk

end Worksite
