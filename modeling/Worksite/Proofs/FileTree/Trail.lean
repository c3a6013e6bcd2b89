import Worksite.Proofs.FileTree.Canonical
import Worksite.Proofs.Outcome

/-!
Trails: the locations that are looked at when a path is followed. What a path leads to depends on
no others.
-/
namespace Worksite.FileTree

variable {t t' : FileTree} {l x here : Location} {last : Bool} {links : Nat} {names : List String}
  {path : String}

/-- Two trees hold the same at some locations. -/
def Agree (t t' : FileTree) (trail : List Location) : Prop := ∀ x ∈ trail, t'.entry? x = t.entry? x

theorem agree_append {a b : List Location} : t.Agree t' (a ++ b) ↔ t.Agree t' a ∧ t.Agree t' b := by
  simp only [Agree, List.mem_append, or_imp, forall_and]

theorem agree_cons {b : List Location} :
    t.Agree t' (l :: b) ↔ t'.entry? l = t.entry? l ∧ t.Agree t' b := by
  simp [Agree]

/-- What is looked at on a course. -/
def courseTrail (t : FileTree) (last : Bool) : Location → List String → List Location
  | _, [] => []
  | l, s :: rest =>
    l :: if !t.isDirectory l then []
      else if s = "" || s = "." then courseTrail t last l rest
      else if s = ".." then courseTrail t last l.dropLast rest
      else if maxName < s.utf8ByteSize then []
      else
        (l ++ [s]) ::
          match t.entry? (l ++ [s]) with
          | none => []
          | some (.link _) => []
          | some _ => courseTrail t last (l ++ [s]) rest

/-- What is looked at when names are followed. -/
def followTrail (t : FileTree) (last : Bool) (links : Nat) (l : Location) (names : List String) :
    List Location :=
  t.courseTrail last l names ++
    match t.course last l names with
    | .led directory target rest =>
      match links with
      | 0 => []
      | links + 1 =>
        t.followTrail last links (if Path.isAbsolute target then [] else directory)
          (Path.segments target ++ rest)
    | _ => []

theorem course_congr (h : t.Agree t' (t.courseTrail last l names)) :
    t'.course last l names = t.course last l names := by
  fun_induction courseTrail t last l names with
  | case1 => rfl
  | case2 l s rest stay up down =>
    -- each turn of the course is decided by an entry that stands on the trail
    obtain ⟨hl, h⟩ := agree_cons.mp h
    have hd : t'.isDirectory l = t.isDirectory l := by
      unfold FileTree.isDirectory
      rw [hl]
    rw [course, course, hd]
    split at h
    · next hdir => rw [if_pos hdir, if_pos hdir]
    · next hdir =>
      rw [if_neg hdir, if_neg hdir]
      split at h
      · next hstay =>
        rw [if_pos hstay, if_pos hstay]
        exact stay h
      · next hstay =>
        rw [if_neg hstay, if_neg hstay]
        split at h
        · next hup =>
          rw [if_pos hup, if_pos hup]
          exact up h
        · next hup =>
          rw [if_neg hup, if_neg hup]
          split at h
          · next hlong => rw [if_pos hlong, if_pos hlong]
          · next hlong =>
            rw [if_neg hlong, if_neg hlong]
            obtain ⟨hs, h⟩ := agree_cons.mp h
            rw [hs]
            cases he : t.entry? (l ++ [s]) with
            | none => rfl
            | some e =>
              rw [he] at h
              cases e with
              | link target => rfl
              | file | directory | socket => exact down h

theorem follow_congr (h : t.Agree t' (t.followTrail last links l names)) :
    t'.follow last links l names = t.follow last links l names := by
  induction links generalizing l names with
  | zero =>
    rw [followTrail, agree_append] at h
    rw [follow, follow, course_congr h.1]
  | succ links ih =>
    rw [followTrail, agree_append] at h
    rw [follow, follow, course_congr h.1]
    cases hc : t.course last l names with
    | led d target rest =>
      rw [hc] at h
      exact ih h.2
    | _ => rfl

theorem canonical_congr (h : t.Agree t' (t.followTrail true maxLinks [] l)) :
    t'.canonical l = t.canonical l := by
  unfold canonical
  rw [follow_congr h]

/-- What is looked at to find where a path leads, as it is written. -/
def textTrail (t : FileTree) (here : Location) (path : String) : List Location :=
  t.followTrail true maxLinks (if Path.isAbsolute path then [] else here) (Path.segments path)

theorem canonicalText_congr (h : t.Agree t' (t.textTrail here path)) :
    t'.canonicalText here path = t.canonicalText here path := by
  unfold canonicalText
  rw [follow_congr h]

/-- What is looked at to find what stands where a path leads. -/
def readTrail (t : FileTree) (here : Location) (path : String) : List Location :=
  t.textTrail here path ++
    match t.canonicalText here path with
    | .ok l => [l]
    | .error _ => []

theorem entry?_congr_of_canonicalText (h : t.Agree t' (t.readTrail here path))
    (hl : t.canonicalText here path = .ok l) : t'.entry? l = t.entry? l := by
  rw [readTrail, agree_append, hl] at h
  exact h.2 l List.mem_cons_self

theorem readText_congr (h : t.Agree t' (t.readTrail here path)) :
    t'.readText here path = t.readText here path := by
  have hc := canonicalText_congr (agree_append.mp h).1
  unfold readText readBytes
  rw [hc]
  cases hl : t.canonicalText here path with
  | error e => rfl
  | ok l => simp only [ok_bind, entry?_congr_of_canonicalText h hl]

/-! ## Where a trail stays -/

/-- A location in a directory that links do not lead to. -/
structure Seated (t : FileTree) (x : Location) : Prop where
  canonical : t.Canonical x.dropLast
  directory : t.isDirectory x.dropLast

/-- The directory and the name of what lies below a root. -/
theorem Seated.exists_concat {root q : Location} (h : t.Seated (root ++ q)) (hq : q ≠ []) :
    ∃ d s, q = d ++ [s] ∧ t.Canonical (root ++ d) ∧ t.isDirectory (root ++ d) := by
  obtain ⟨hc, hd⟩ := h
  rw [List.dropLast_append_of_ne_nil hq] at hc hd
  exact ⟨q.dropLast, q.getLast hq, (List.dropLast_append_getLast hq).symm, hc, hd⟩

theorem Canonical.seated (h : t.Canonical l) : t.Seated l := by
  refine ⟨h.dropLast, ?_⟩
  by_cases hl : l = []
  · subst hl
    rfl
  · apply h.above _ (List.dropLast_prefix l)
    intro heq
    have hlen := congrArg List.length heq
    have hpos := List.length_pos_of_ne_nil hl
    rw [List.length_dropLast] at hlen
    omega

theorem seated_of_mem_courseTrail (h : t.Canonical l) (hx : x ∈ t.courseTrail last l names) :
    t.Seated x := by
  fun_induction courseTrail t last l names with
  | case1 => simp at hx
  | case2 l s rest stay up down =>
    rcases List.mem_cons.mp hx with rfl | hx
    · exact h.seated
    · split at hx
      · simp at hx
      · next hd =>
        have hd : t.isDirectory l := by simpa using hd
        split at hx
        · exact stay h hx
        · next hstay =>
          split at hx
          · exact up h.dropLast hx
          · next hup =>
            split at hx
            · simp at hx
            · next hlong =>
              rcases List.mem_cons.mp hx with rfl | hx
              · exact ⟨by simpa using h, by simpa using hd⟩
              · simp only [Bool.or_eq_true, decide_eq_true_eq, not_or] at hstay
                cases he : t.entry? (l ++ [s]) with
                | none => simp [he] at hx
                | some e =>
                  rw [he] at hx
                  cases e with
                  | link target => simp at hx
                  | file | directory | socket =>
                    exact down (h.concat hd ⟨hstay.1, hstay.2, hup⟩ (by omega) ⟨_, he, by simp⟩) hx

theorem seated_of_mem_followTrail (h : t.Canonical l)
    (hx : x ∈ t.followTrail last links l names) : t.Seated x := by
  induction links generalizing l names with
  | zero =>
    rw [followTrail] at hx
    rcases List.mem_append.mp hx with hx | hx
    · exact seated_of_mem_courseTrail h hx
    · split at hx <;> simp at hx
  | succ links ih =>
    rw [followTrail] at hx
    rcases List.mem_append.mp hx with hx | hx
    · exact seated_of_mem_courseTrail h hx
    · cases hc : t.course last l names with
      | led d target rest =>
        rw [hc] at hx
        exact ih (canonical_start target (canonical_of_led h hc).1) hx
      | arrived | refused => simp [hc] at hx

theorem seated_of_mem_readTrail (h : t.Canonical here) (hx : x ∈ t.readTrail here path) :
    t.Seated x := by
  rcases List.mem_append.mp hx with hx | hx
  · exact seated_of_mem_followTrail (canonical_start path h) hx
  · split at hx
    · next l hl =>
      rw [List.mem_singleton.mp hx]
      exact (canonical_of_follow (canonical_start path h) (follow_of_canonicalText hl)).seated
    · simp at hx

/-! ## Paths without links -/

/-- No link stands at a location, nor on the way to it. -/
def LinkFree (t : FileTree) (l : Location) : Prop :=
  ∀ x, x <+: l → ∀ target, t.entry? x ≠ some (.link target)

/-- The names that are left of segments when those that stay are dropped. -/
def spelled (names : List String) : Location := names.filter (!Path.isSilent ·)

theorem spelled_cons_of_silent {s : String} (h : s = "" ∨ s = ".") (names : List String) :
    spelled (s :: names) = spelled names := by
  rcases h with rfl | rfl <;> rfl

theorem spelled_cons {s : String} (h : ¬ (s = "" ∨ s = ".")) (names : List String) :
    spelled (s :: names) = s :: spelled names := by
  rw [not_or] at h
  simp [spelled, Path.isSilent, h.1, h.2]

theorem spelled_of_isName (h : ∀ s ∈ names, Path.IsName s) : spelled names = names :=
  List.filter_eq_self.mpr fun s hs => by simp [Path.isSilent, (h s hs).1, (h s hs).2.1]

theorem not_mem_climb (h : ∀ s ∈ names, Path.IsName s) : ".." ∉ names :=
  fun hup => (h _ hup).2.2 rfl

theorem LinkFree.of_prefix {q : Location} (h : t.LinkFree l) (hq : q <+: l) : t.LinkFree q :=
  fun x hx => h x (hx.trans hq)

theorem Canonical.linkFree (h : t.Canonical l) : t.LinkFree l := by
  intro x hx target
  exact (h.of_prefix hx).entry?_ne_link target

/-- Where no link stands, a course without climbs arrives where its names point, and looks at
nothing that is not on the way. -/
theorem course_of_linkFree (last : Bool) (hup : ".." ∉ names)
    (h : t.LinkFree (l ++ spelled names)) :
    (t.course last l names = .arrived (l ++ spelled names) ∨
      ∃ e, t.course last l names = .refused e) ∧
      ∀ x ∈ t.courseTrail last l names, x <+: l ++ spelled names := by
  induction names generalizing l with
  | nil => simp [course, courseTrail, spelled]
  | cons s rest ih =>
    obtain ⟨hs, hup⟩ := not_or.mp (mt List.mem_cons.mpr hup)
    have hl : l <+: l ++ spelled (s :: rest) := List.prefix_append _ _
    rw [course, courseTrail]
    simp only [List.forall_mem_cons]
    by_cases hd : t.isDirectory l
    · by_cases hstay : s = "" ∨ s = "."
      · rw [spelled_cons_of_silent hstay] at h hl ⊢
        simpa [hd, hstay, hl] using ih hup h
      · rw [spelled_cons hstay] at h hl ⊢
        have hls : l ++ s :: spelled rest = l ++ [s] ++ spelled rest := by simp
        have hway : l ++ [s] <+: l ++ s :: spelled rest := hls ▸ List.prefix_append _ _
        have hlink := h _ hway
        rw [hls] at h
        simp only [hd, Bool.not_true, Bool.false_eq_true, ↓reduceIte, Bool.or_eq_true,
          decide_eq_true_eq, hstay, Ne.symm hs]
        by_cases hlong : maxName < s.utf8ByteSize
        · simp [hlong]
        · simp only [hlong, ↓reduceIte]
          cases he : t.entry? (l ++ [s]) with
          | none => simp [hway]
          | some e =>
            cases e with
            | link target => exact absurd he (hlink target)
            | file | directory | socket =>
              obtain ⟨hcourse, htrail⟩ := ih hup h
              rw [← hls] at hcourse htrail
              exact ⟨hcourse, hl, List.forall_mem_cons.mpr ⟨hway, htrail⟩⟩
    · simp [hd]

theorem follow_of_linkFree (last : Bool) (links : Nat) (hup : ".." ∉ names)
    (h : t.LinkFree (l ++ spelled names)) :
    (∀ x, t.follow last links l names = .ok x → x = l ++ spelled names) ∧
      ∀ x ∈ t.followTrail last links l names, x <+: l ++ spelled names := by
  obtain ⟨hcourse, htrail⟩ := course_of_linkFree last hup h
  rw [follow, followTrail]
  rcases hcourse with hcourse | ⟨e, hcourse⟩
  · simpa [hcourse] using htrail
  · simpa [hcourse] using htrail

/-- A path without climbs that spells a location. -/
structure Spells (here : Location) (path : String) (l : Location) : Prop where
  noClimb : ".." ∉ Path.segments path
  names : (if Path.isAbsolute path then [] else here) ++ spelled (Path.segments path) = l

theorem Spells.canonicalText_eq_ok {d : Location} (hp : Spells here path l) (h : t.LinkFree l)
    (hd : t.canonicalText here path = .ok d) : d = l := by
  obtain ⟨hup, rfl⟩ := hp
  exact (follow_of_linkFree _ _ hup h).1 d (follow_of_canonicalText hd)

theorem Spells.textTrail (hp : Spells here path l) (h : t.LinkFree l) :
    ∀ x ∈ t.textTrail here path, x <+: l := by
  obtain ⟨hup, rfl⟩ := hp
  exact (follow_of_linkFree _ _ hup h).2

theorem Spells.readTrail (hp : Spells here path l) (h : t.LinkFree l) :
    ∀ x ∈ t.readTrail here path, x <+: l := by
  intro x hx
  rcases List.mem_append.mp hx with hx | hx
  · exact hp.textTrail h x hx
  · cases hl : t.canonicalText here path with
    | error e => simp [hl] at hx
    | ok d =>
      rw [hl, List.mem_singleton] at hx
      rw [hx, hp.canonicalText_eq_ok h hl]

end Worksite.FileTree
