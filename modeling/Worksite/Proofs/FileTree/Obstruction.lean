import Worksite.Proofs.FileTree.Straight

/-!
Obstructed ways. Names that are walked come to something that is no directory, and there are names
left; that is one way in which a path leads nowhere, the others being a name that is missing, one
that is too long, and too many links.
-/
namespace Worksite.FileTree

variable {t : FileTree} {l : Location} {last : Bool} {n k : Nat} {names : List String}
  {s : String} {e : SystemError}

/-- A way that is refused, but not for its links, is refused on one of the courses that the links
lead to. -/
theorem follow_refused_induction {motive : Location → List String → Prop}
    (h : t.follow last n l names = .error e) (hlinks : e ≠ .tooManyLinks)
    (refused : ∀ l names, t.course last l names = .refused e → motive l names)
    (led : ∀ l names d target rest, t.course last l names = .led d target rest →
      motive (if Path.isAbsolute target then [] else d) (Path.segments target ++ rest) →
        motive l names) : motive l names := by
  induction n generalizing l names with
  | zero =>
    rw [follow] at h
    cases hc : t.course last l names with
    | arrived => simp [hc] at h
    | refused e' =>
      rw [hc] at h
      exact refused l names (Except.error.inj h ▸ hc)
    | led =>
      rw [hc] at h
      exact absurd (Except.error.inj h).symm hlinks
  | succ n ih =>
    rw [follow] at h
    cases hc : t.course last l names with
    | arrived => simp [hc] at h
    | refused e' =>
      rw [hc] at h
      exact refused l names (Except.error.inj h ▸ hc)
    | led d target rest =>
      rw [hc] at h
      exact led l names d target rest hc (ih h)

/-- Names that are walked from a location come to what is no directory before they are at their
end. The link at the end counts as what it leads to if `last`. -/
inductive Obstructed (t : FileTree) (last : Bool) : Location → List String → Prop where
  | here {l : Location} {name : String} {names : List String} (hd : ¬ t.isDirectory l) :
      Obstructed t last l (name :: names)
  | stay {l : Location} {name : String} {names : List String} (hd : t.isDirectory l)
      (hs : name = "" ∨ name = ".") (h : Obstructed t last l names) :
      Obstructed t last l (name :: names)
  | up {l : Location} {names : List String} (hd : t.isDirectory l)
      (h : Obstructed t last l.dropLast names) : Obstructed t last l (".." :: names)
  | enter {l : Location} {name : String} {names : List String} {e : Entry}
      (hd : t.isDirectory l) (hs : Path.IsName name) (hlen : name.utf8ByteSize ≤ maxName)
      (he : t.entry? (l ++ [name]) = some e) (hlink : ∀ target, e ≠ .link target)
      (h : Obstructed t last (l ++ [name]) names) : Obstructed t last l (name :: names)
  | link {l : Location} {name target : String} {names : List String} (hd : t.isDirectory l)
      (hs : Path.IsName name) (hlen : name.utf8ByteSize ≤ maxName)
      (he : t.entry? (l ++ [name]) = some (.link target)) (hlast : names ≠ [] ∨ last)
      (h : Obstructed t last (if Path.isAbsolute target then [] else l)
        (Path.segments target ++ names)) : Obstructed t last l (name :: names)

/-- An obstructed way is refused for that, or for the links before the obstruction. -/
theorem Obstructed.follow (h : t.Obstructed last l names) (n : Nat) :
    t.follow last n l names = .error .notDirectory ∨
      t.follow last n l names = .error .tooManyLinks := by
  induction h generalizing n with
  | here hd =>
    rw [FileTree.follow, course, if_pos (by simpa using hd)]
    exact .inl rfl
  | stay hd hs _ ih =>
    refine (follow_congr_course ?_).symm ▸ ih n
    rw [course]
    simp [hd, hs]
  | up hd _ ih =>
    refine (follow_congr_course ?_).symm ▸ ih n
    rw [course]
    simp [hd]
  | @enter l name names e hd hs hlen he hlink _ ih =>
    refine (follow_congr_course ?_).symm ▸ ih n
    rw [course_cons last names hd hs hlen, he]
    cases e with
    | link target => exact absurd rfl (hlink target)
    | file | directory | socket => rfl
  | @link l name target names hd hs hlen he hlast _ ih =>
    have hcourse : t.course last l (name :: names) = .led l target names := by
      rw [course_cons last names hd hs hlen, he]
      rcases hlast with hnames | rfl <;> simp [*]
    rw [FileTree.follow, hcourse]
    cases n with
    | zero => exact .inr rfl
    | succ n => exact ih n

/-- A course that is refused for what is no directory is obstructed, and so is one that is led to
an obstruction. -/
theorem obstructed_of_course (t : FileTree) (last : Bool) (l : Location) (names : List String) :
    (t.course last l names = .refused .notDirectory → t.Obstructed last l names) ∧
      ∀ d target rest, t.course last l names = .led d target rest →
        t.Obstructed last (if Path.isAbsolute target then [] else d)
          (Path.segments target ++ rest) → t.Obstructed last l names := by
  fun_induction course t last l names with
  | case1 => simp
  | case2 l s rest hd => exact ⟨fun _ => .here (by simpa using hd), by simp⟩
  | case3 l s rest hd hs ih =>
    have hd : t.isDirectory l := by simpa using hd
    have hs : s = "" ∨ s = "." := by simpa using hs
    exact ⟨fun h => .stay hd hs (ih.1 h), fun d target rest h hx =>
      .stay hd hs (ih.2 d target rest h hx)⟩
  | case4 l rest hd _ ih =>
    have hd : t.isDirectory l := by simpa using hd
    exact ⟨fun h => .up hd (ih.1 h), fun d target rest h hx => .up hd (ih.2 d target rest h hx)⟩
  | case5 => simp
  | case6 => simp
  | case7 => simp
  | case8 l s rest hd hs hup hlen target he hlast =>
    have hd : t.isDirectory l := by simpa using hd
    simp only [Bool.or_eq_true, decide_eq_true_eq, not_or] at hs
    have hlast : rest ≠ [] ∨ last := by
      by_contra! hno
      exact hlast (by simp [hno.1, hno.2])
    refine ⟨by simp, fun d target rest h hx => ?_⟩
    obtain ⟨rfl, rfl, rfl⟩ := Course.led.inj h
    exact .link hd ⟨hs.1, hs.2, hup⟩ (Nat.not_lt.mp hlen) he hlast hx
  | case9 l s rest hd hs hup hlen e hlink he ih =>
    have hd : t.isDirectory l := by simpa using hd
    simp only [Bool.or_eq_true, decide_eq_true_eq, not_or] at hs
    have hname : Path.IsName s := ⟨hs.1, hs.2, hup⟩
    have hlink : ∀ target, e ≠ .link target := fun target he => hlink target he
    exact ⟨fun h => .enter hd hname (Nat.not_lt.mp hlen) he hlink (ih.1 h),
      fun d target rest h hx =>
        .enter hd hname (Nat.not_lt.mp hlen) he hlink (ih.2 d target rest h hx)⟩

theorem obstructed_of_follow (h : t.follow last n l names = .error .notDirectory) :
    t.Obstructed last l names :=
  follow_refused_induction h (by simp)
    (fun l names => (obstructed_of_course t last l names).1)
    fun l names => (obstructed_of_course t last l names).2

/-- Where links are no hindrance, a way is refused for what is no directory just if it is
obstructed. -/
theorem follow_eq_notDirectory_iff (h : t.follow last n l names ≠ .error .tooManyLinks) :
    t.follow last n l names = .error .notDirectory ↔ t.Obstructed last l names :=
  ⟨obstructed_of_follow, fun ho => (ho.follow n).resolve_right h⟩

/-! ## Other refusals -/

theorem refused_of_course (h : t.course last l names = .refused e) :
    e = .noEntry ∨ e = .notDirectory ∨ e = .nameTooLong := by
  fun_induction course t last l names with
  | case1 | case7 | case8 => simp at h
  | case2 => exact .inr (.inl (Course.refused.inj h).symm)
  | case3 l s rest _ _ ih => exact ih h
  | case4 l rest _ _ ih => exact ih h
  | case5 => exact .inr (.inr (Course.refused.inj h).symm)
  | case6 => exact .inl (Course.refused.inj h).symm
  | case9 l s rest _ _ _ _ e _ _ ih => exact ih h

theorem refused_of_follow (h : t.follow last n l names = .error e) :
    e = .noEntry ∨ e = .notDirectory ∨ e = .nameTooLong ∨ e = .tooManyLinks := by
  by_cases hlinks : e = .tooManyLinks
  · simp [hlinks]
  have hcause : e = .noEntry ∨ e = .notDirectory ∨ e = .nameTooLong :=
    follow_refused_induction h hlinks (fun _ _ hc => refused_of_course hc)
      fun _ _ _ _ _ _ hcause => hcause
  rcases hcause with rfl | rfl | rfl <;> simp

/-- The last name, kept as it is, needs no links. -/
theorem follow_kept (hs : Path.IsName s) (n k : Nat) :
    t.follow false n l [s] = t.follow false k l [s] := by
  have hled : ∀ d target rest, t.course false l [s] ≠ .led d target rest := by
    intro d target rest h
    by_cases hd : t.isDirectory l
    · by_cases hlen : s.utf8ByteSize ≤ maxName
      · rw [course_cons false [] hd hs hlen] at h
        cases he : t.entry? (l ++ [s]) with
        | none => simp [he] at h
        | some e => cases e <;> simp [he, course] at h
      · simp [course, hd, hs.1, hs.2.1, hs.2.2, Nat.not_le.mp hlen] at h
    · simp [course, hd] at h
  rw [follow, follow]
  cases hc : t.course false l [s] with
  | arrived | refused => rfl
  | led d target rest => exact absurd hc (hled d target rest)

end Worksite.FileTree
