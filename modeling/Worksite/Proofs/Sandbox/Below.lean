import Worksite.Proofs.FileTree.Spelled
import Worksite.Proofs.Sandbox.Links

/-!
Paths below a root that is spelled in another way: the part of a path that exists is the same behind
every path of the root, and what a path spells behind the names of the root is what it is called
from there.
-/
namespace Worksite.Sandbox

open FileTree

variable {t : FileTree} {here names l d r x : Location} {path : String}

/-! ## The root followed -/

theorem contains_nul_of_canonicalText (h : t.canonicalText here path = .ok l) :
    path.contains '\x00' = false := by
  unfold canonicalText at h
  cases hnul : path.contains '\x00' with
  | false => rfl
  | true =>
    simp only [hnul, ↓reduceIte] at h
    split_ifs at h

/-- A path without climbs is followed to where it leads when it is folded first. -/
theorem canonical_of_canonicalText (hh : t.Canonical here)
    (hnul : ∀ y ∈ here, y.contains '\x00' = false) (hup : ".." ∉ Path.segments path)
    (h : t.canonicalText here path = .ok l) :
    ∃ folded, Path.locate here path = some folded ∧ t.canonical folded = .ok l := by
  let start := if Path.isAbsolute path then [] else here
  refine ⟨start ++ spelled (Path.segments path), ?_, ?_⟩
  · unfold Path.locate
    simp only [start]
    split_ifs
    · exact Path.fold_of_noClimb [] hup
    · exact Path.fold_of_noClimb here hup
  · have hstart : t.Canonical start := canonical_start path hh
    have hfollow : t.follow true maxLinks start (spelled (Path.segments path)) = .ok l :=
      follow_append_spelled (a := []) (follow_of_canonicalText h)
    rw [canonical_of_nulFree, ← hfollow]
    · exact follow_of_canonical (l := []) hstart _
    · intro y hy
      rcases List.mem_append.mp hy with hy | hy
      · simp only [start] at hy
        split_ifs at hy
        · simp at hy
        · exact hnul y hy
      · exact Path.contains_nul_of_mem_segments (contains_nul_of_canonicalText h)
          (List.mem_filter.mp hy).1

/-- A way that exists is resolved to where it leads. -/
theorem existingPrefix_of_canonical (h : t.canonical l = .ok d) :
    existingPrefix t l.reverse = .ok d := by
  cases l using List.reverseRecOn with
  | nil => exact h
  | append_singleton l y =>
    rw [List.reverse_concat, existingPrefix, List.reverse_cons, List.reverse_reverse, h]

/-- Names behind a part that was followed lead where they lead from its place. -/
theorem canonical_append (h : t.canonical r = .ok d) (hnul : ∀ y ∈ d, y.contains '\x00' = false)
    (hlinks : t.canonical (r ++ l) ≠ .error .tooManyLinks) :
    t.canonical (d ++ l) = t.canonical (r ++ l) := by
  have hfollow := canonical_eq_ok h
  have hcan : t.Canonical d := canonical_of_follow (canonical_nil t) hfollow
  have hr : r.any (·.contains '\x00') = false := by
    cases hr : r.any (·.contains '\x00') with
    | false => rfl
    | true =>
      rw [FileTree.canonical, hr] at h
      simp at h
  have hd : d.any (·.contains '\x00') = false := by simpa using hnul
  rw [FileTree.canonical, FileTree.canonical, List.any_append, List.any_append, hr, hd,
    Bool.false_or]
  rw [FileTree.canonical, List.any_append, hr, Bool.false_or] at hlinks
  split_ifs with hany
  · rfl
  · rw [if_neg hany] at hlinks
    have hway : t.follow true maxLinks [] (d ++ l) = t.follow true maxLinks d l :=
      follow_of_canonical (l := []) hcan l
    by_cases hl : l = []
    · subst hl
      rw [List.append_nil, List.append_nil, hfollow]
      exact follow_canonical hcan
    · obtain ⟨k, hk, hsame⟩ : ∃ k ≤ maxLinks,
          t.follow true maxLinks [] (r ++ l) = t.follow true k d l :=
        follow_append_of_ok hl hfollow
      rw [hsame] at hlinks ⊢
      rw [hway, follow_mono hk hlinks]

/-- What a path is resolved to stays the same when a part of it is followed first. -/
theorem existingPrefix_append (h : t.canonical r = .ok d)
    (hnul : ∀ y ∈ d, y.contains '\x00' = false)
    (hx : existingPrefix t (r ++ l).reverse = .ok x) :
    existingPrefix t (d ++ l).reverse = .ok x := by
  induction l using List.reverseRecOn generalizing x with
  | nil =>
    have hd : t.canonical d = .ok d := by
      rw [canonical_of_nulFree hnul]
      exact follow_canonical (canonical_of_follow (canonical_nil t) (canonical_eq_ok h))
    rw [List.append_nil, existingPrefix_of_canonical h] at hx
    rw [List.append_nil, existingPrefix_of_canonical hd, hx]
  | append_singleton l y ih =>
    rw [← List.append_assoc, List.reverse_concat, existingPrefix, List.reverse_cons,
      List.reverse_reverse, List.append_assoc] at hx ⊢
    split at hx
    · next l' hc =>
      rw [canonical_append h hnul (by simp [hc]), hc]
      exact hx
    · next hc =>
      rw [canonical_append h hnul (by simp [hc]), hc]
      cases hp : existingPrefix t (r ++ l).reverse with
      | error e =>
        rw [hp] at hx
        simp [Except.map] at hx
      | ok l' =>
        rw [hp] at hx
        simp only [ih hp]
        exact hx
    · simp at hx

/-! ## The place of names -/

/-- Names lead to a place: the longest part of them that is there is followed, and the rest is taken
as it is written. -/
def LeadsTo (t : FileTree) (names place : Location) : Prop :=
  ∃ a b d, names = a ++ b ∧ t.canonical a = .ok d ∧ place = d ++ b ∧
    ∀ c, c <+: names → a.length < c.length → ∀ l, t.canonical c ≠ .ok l

theorem leadsTo_of_existingPrefix (h : existingPrefix t names.reverse = .ok x) :
    LeadsTo t names x := by
  induction names using List.reverseRecOn generalizing x with
  | nil => exact ⟨[], [], x, rfl, h, by simp, fun c hc => by simp [List.prefix_nil.mp hc]⟩
  | append_singleton names y ih =>
    rw [List.reverse_concat, existingPrefix, List.reverse_cons, List.reverse_reverse] at h
    split at h
    · next l hl =>
      obtain rfl := Except.ok.inj h
      refine ⟨names ++ [y], [], l, by simp, hl, by simp, fun c hc hlen => ?_⟩
      exact absurd hc.length_le (by omega)
    · next hl =>
      cases hp : existingPrefix t names.reverse with
      | error e => simp [hp, Except.map] at h
      | ok l =>
        rw [hp] at h
        obtain rfl : l ++ [y] = x := Except.ok.inj h
        obtain ⟨a, b, d, rfl, ha, rfl, hlongest⟩ := ih hp
        refine ⟨a, b ++ [y], d, by simp, ha, by simp, fun c hc hlen => ?_⟩
        rcases List.prefix_concat_iff.mp hc with rfl | hc
        · intro l' hok
          rw [hl] at hok
          simp at hok
        · exact hlongest c hc hlen
    · simp at h

/-- The sandbox finds the place of names unless a part of them fails otherwise than by missing. -/
theorem LeadsTo.existingPrefix_eq (h : LeadsTo t names x)
    (hmissing : ∀ c, c <+: names → ∀ e, t.canonical c = .error e → e = .noEntry) :
    existingPrefix t names.reverse = .ok x := by
  obtain ⟨a, b, d, rfl, ha, rfl, hlongest⟩ := h
  induction b using List.reverseRecOn with
  | nil =>
    rw [List.append_nil, List.append_nil]
    exact existingPrefix_of_canonical ha
  | append_singleton b y ih =>
    have hpre : a ++ b <+: a ++ (b ++ [y]) := by simp
    have habove := ih (fun c hc => hmissing c (hc.trans hpre))
      fun c hc => hlongest c (hc.trans hpre)
    have hwhole : t.canonical (a ++ (b ++ [y])) = .error .noEntry := by
      cases hc : t.canonical (a ++ (b ++ [y])) with
      | ok l => exact absurd hc (hlongest _ (List.prefix_refl _) (by simp) l)
      | error e => rw [hmissing _ (List.prefix_refl _) e hc]
    rw [← List.append_assoc] at hwhole ⊢
    rw [List.reverse_concat, existingPrefix, List.reverse_cons, List.reverse_reverse, hwhole,
      habove, ← List.append_assoc]
    rfl

theorem LeadsTo.eq_of_canonical (h : LeadsTo t names x) (hl : t.canonical names = .ok l) :
    l = x := by
  obtain ⟨a, b, d, rfl, ha, rfl, hlongest⟩ := h
  by_cases hb : b = []
  · subst hb
    rw [List.append_nil, ha] at hl
    rw [List.append_nil]
    exact (Except.ok.inj hl).symm
  · have hlen : 0 < b.length := List.length_pos_iff.mpr hb
    exact absurd hl (hlongest _ (List.prefix_refl _) (by rw [List.length_append]; omega) l)

theorem LeadsTo.isNormal (h : LeadsTo t names x) (hn : ∀ y ∈ names, Path.IsNormal y) :
    ∀ y ∈ x, Path.IsNormal y := by
  obtain ⟨a, b, d, rfl, ha, rfl, -⟩ := h
  have hfollow := canonical_eq_ok ha
  have hname := (canonical_of_follow (canonical_nil t) hfollow).isName
  have hslash : ∀ y ∈ d, '/' ∉ y.toList :=
    forall_mem_follow (fun _ _ => Path.slash_notMem_of_mem_segments) (by simp)
      (fun y hy => (hn y (List.mem_append_left _ hy)).2) hfollow
  intro y hy
  rcases List.mem_append.mp hy with hy | hy
  · exact ⟨hname y hy, hslash y hy⟩
  · exact hn y (List.mem_append_right _ hy)

/-- An absolute path without climbs that is followed leads to the place of its names. -/
theorem LeadsTo.eq_of_canonicalText (hx : LeadsTo t names x) (habs : Path.isAbsolute path)
    (hup : ".." ∉ Path.segments path) (hl : Path.locate here path = some names)
    (h : t.canonicalText [] path = .ok l) : l = x := by
  obtain ⟨folded, hfolded, hcan⟩ := canonical_of_canonicalText (canonical_nil t) (by simp) hup h
  have hsame : folded = names := by
    rw [Path.locate, if_pos habs] at hfolded hl
    exact Option.some.inj (hfolded.symm.trans hl)
  exact hx.eq_of_canonical (hsame ▸ hcan)

end Worksite.Sandbox

/-! ## The root taken from the text -/

namespace Worksite.Path

open FileTree (spelled spelled_cons spelled_cons_of_silent)

variable {path s : String} {q root : Location} {segs : List String}

theorem isSilent_iff : isSilent s = true ↔ s = "" ∨ s = "." := by
  simp [isSilent]

theorem isSilent_of_head?_dropWhile (h : (segs.dropWhile isSilent).head? = some s) :
    isSilent s = false := by
  have hnot := List.head?_dropWhile_not isSilent segs
  rwa [h] at hnot

theorem spelled_dropWhile (segs : List String) :
    spelled (segs.dropWhile isSilent) = spelled segs := by
  induction segs with
  | nil => rfl
  | cons s segs ih =>
    by_cases hs : isSilent s = true
    · rw [List.dropWhile_cons_of_pos hs, ih, spelled_cons_of_silent (isSilent_iff.mp hs)]
    · rw [List.dropWhile_cons_of_neg hs]

/-- What is dropped from the end spells nothing. -/
theorem dropSilent_spec (segs : List String) :
    dropSilent segs <:+ segs ∧ spelled (dropSilent segs) = spelled segs := by
  fun_induction dropSilent segs with
  | case1 s rest hs ih =>
    have hsilent : s = "" ∨ s = "." := by
      simp only [Bool.or_eq_true, decide_eq_true_eq, Bool.and_eq_true] at hs
      exact hs.imp_right And.left
    rw [spelled_cons_of_silent hsilent]
    exact ⟨ih.1.trans (List.suffix_cons s rest), ih.2⟩
  | case2 s rest hs => exact ⟨List.suffix_refl _, rfl⟩
  | case3 => exact ⟨List.suffix_refl _, rfl⟩

theorem spelled_reverse (segs : List String) : spelled segs.reverse = (spelled segs).reverse :=
  List.filter_reverse

/-- The rest behind the names of the root spells what is below it, and a name opens it. -/
theorem stripNames?_of_spelled (h : spelled segs = root ++ q) : ∃ kept,
    stripNames? root segs = some ("/".intercalate kept) ∧ spelled kept = q ∧
      (∀ s ∈ kept, s ∈ segs) ∧ ∀ s ∈ kept.head?, isSilent s = false := by
  induction root generalizing segs with
  | nil =>
    let body := segs.dropWhile isSilent
    obtain ⟨hsuffix, hspelled⟩ := dropSilent_spec body.reverse
    have hpre : (dropSilent body.reverse).reverse <+: body := by
      rw [← List.reverse_suffix, List.reverse_reverse]
      exact hsuffix
    refine ⟨(dropSilent body.reverse).reverse, rfl, ?_, fun s hs => ?_, fun s hs => ?_⟩
    · rw [spelled_reverse, hspelled, spelled_reverse, List.reverse_reverse]
      exact (spelled_dropWhile segs).trans h
    · exact (List.dropWhile_suffix _).subset (hpre.subset hs)
    · obtain ⟨more, hbody⟩ := hpre
      have hfirst : body.head? = some s := by
        rw [← hbody, List.head?_append, hs]
        rfl
      exact isSilent_of_head?_dropWhile hfirst
  | cons name root ih =>
    have hbody := spelled_dropWhile segs
    rw [h] at hbody
    cases hdrop : segs.dropWhile isSilent with
    | nil => simp [hdrop, spelled] at hbody
    | cons s rest =>
      have hfirst : (segs.dropWhile isSilent).head? = some s := by
        rw [hdrop]
        rfl
      have hs := isSilent_of_head?_dropWhile hfirst
      rw [hdrop, spelled_cons (mt isSilent_iff.mpr (by simp [hs])), List.cons_append] at hbody
      obtain ⟨rfl, hrest⟩ := List.cons.inj hbody
      obtain ⟨kept, hstrip, hkept, hmem, hhead⟩ := ih hrest
      have hsub : rest ⊆ segs := fun x hx =>
        (List.dropWhile_suffix isSilent).subset (hdrop ▸ List.mem_cons_of_mem s hx)
      refine ⟨kept, ?_, hkept, fun x hx => hsub (hmem x hx), hhead⟩
      rw [stripNames?, hdrop]
      simpa using hstrip

theorem head?_segments_of_isAbsolute (h : isAbsolute path) :
    (segments path).head? = some "" := by
  cases hpath : path.toList with
  | nil => simp [isAbsolute, hpath] at h
  | cons c cs =>
    obtain rfl : c = '/' := by simpa [isAbsolute, hpath] using h
    rw [segments, hpath, List.splitOn_cons_eq_if_modifyHead]
    rfl

/-- What a path spells behind the names of a root is what it is called from there. -/
theorem slashed_of_spelled {sandbox : Sandbox} (habs : isAbsolute path)
    (h : spelled (segments path) = sandbox.root ++ q) (hq : q ≠ []) :
    (sandbox.relativize? path).map slashed = some q.relativeText := by
  obtain ⟨kept, hstrip, hkept, hmem, hhead⟩ := stripNames?_of_spelled h
  have hne : kept ≠ [] := by
    rintro rfl
    exact hq hkept.symm
  let rest := Location.relativeText kept
  have hsegments : segments rest = kept :=
    segments_relativeText hne fun s hs => slash_notMem_of_mem_segments (hmem s hs)
  have hopen : ∀ s, (segments rest).head? = some s → s ≠ "" ∧ s ≠ "." := by
    intro s hs
    have hsilent := hhead s (hsegments ▸ hs)
    simpa [isSilent] using hsilent
  have habsent : isAbsolute rest = false := by
    cases habs : isAbsolute rest with
    | false => rfl
    | true => exact absurd rfl (hopen "" (head?_segments_of_isAbsolute habs)).1
  have hrest : rest ≠ "" := by
    intro hrest
    have hblank : (segments rest).head? = some "" := by
      rw [hrest]
      rfl
    exact absurd rfl (hopen "" hblank).1
  have hsteps : (steps rest).map Step.text = q := by
    have hdot : (segments rest).head? ≠ some "." := fun hdot => absurd rfl (hopen "." hdot).2
    rw [steps_of_head? hdot, hsegments, hkept, List.map_map]
    exact (List.map_congr_left fun s _ => text_ofSegment s).trans (List.map_id q)
  rw [Sandbox.relativize?, if_pos habs, hstrip, Option.map_some]
  change some (slashed rest) = _
  rw [slashed, if_neg hrest, habsent, hsteps]
  rfl

end Worksite.Path
